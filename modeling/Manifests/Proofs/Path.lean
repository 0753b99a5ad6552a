import Manifests.Path
import Mathlib.Logic.Relation

/-! # Paths in normal form

Normalizing leaves the steps back at the front and no step that stays (`isNormal_normalize`), and it leaves a path of
that form alone (`normalize_of_isNormal`). It takes out steps that stay, and names with the step back after them, until
none is left (`normalize_eq_iff`). Hence it makes no difference whether the parts of a path are normalized before they
are joined (`normalize_join`). The directory of a path in normal form has the form too, and whatever lies below a path
lies below its directory. -/

namespace Manifests.Path

/-- Steps in normal form: none stays, and before a step back there are steps back only. -/
def IsNormal (steps : List Step) : Prop :=
  .current ∉ steps ∧ steps.Pairwise fun s t => t = .parent → s = .parent

theorem IsNormal.sublist {steps some : List Step} (h : IsNormal steps) (hsub : some.Sublist steps) : IsNormal some :=
  ⟨fun hmem => h.1 (hsub.subset hmem), h.2.sublist hsub⟩

/-! ### Normalizing -/

theorem IsNormal.append_name {steps : List Step} (h : IsNormal steps) (s : String) : IsNormal (steps ++ [.name s]) := by
  refine ⟨?_, List.pairwise_append.mpr ⟨h.2, List.pairwise_singleton _ _, ?_⟩⟩
  · intro hmem
    rcases List.mem_append.mp hmem with hmem | hmem
    · exact h.1 hmem
    · cases List.mem_singleton.mp hmem
  · intro t _ u hu hparent
    cases (List.mem_singleton.mp hu).symm.trans hparent

theorem IsNormal.append_parent {steps : List Step} (h : IsNormal steps) (hback : ∀ s ∈ steps, s = .parent) :
    IsNormal (steps ++ [.parent]) := by
  refine ⟨?_, List.pairwise_append.mpr ⟨h.2, List.pairwise_singleton _ _, fun s hs _ _ _ => hback s hs⟩⟩
  intro hmem
  rcases List.mem_append.mp hmem with hmem | hmem
  · exact h.1 hmem
  · cases List.mem_singleton.mp hmem

/-- Steps that end with a step back are steps back. -/
theorem IsNormal.eq_parent_of_mem {steps : List Step} (h : IsNormal (steps ++ [.parent])) {s : Step} (hs : s ∈ steps) :
    s = .parent :=
  (List.pairwise_append.mp h.2).2.2 s hs .parent (List.mem_singleton.mpr rfl) rfl

theorem isNormal_addStep {done : List Step} (h : IsNormal done.reverse) (s : Step) :
    IsNormal (addStep done s).reverse := by
  cases s with
  | current => exact h
  | name s =>
    rw [addStep, List.reverse_cons]
    exact h.append_name s
  | parent =>
    cases done with
    | nil => exact h.append_parent (by simp)
    | cons last rest =>
      rw [List.reverse_cons] at h
      cases last with
      | name s => exact h.sublist (List.sublist_append_left _ _)
      | current => exact absurd (by simp) h.1
      | parent =>
        rw [addStep, List.reverse_cons, List.reverse_cons]
        refine h.append_parent fun s hs => ?_
        rcases List.mem_append.mp hs with hs | hs
        · exact h.eq_parent_of_mem hs
        · exact List.mem_singleton.mp hs
        · simp

theorem isNormal_foldl_addStep {done : List Step} (h : IsNormal done.reverse) (steps : List Step) :
    IsNormal (steps.foldl addStep done).reverse := by
  induction steps generalizing done with
  | nil => exact h
  | cons s steps ih => exact ih (isNormal_addStep h s)

theorem isNormal_normalize (p : Path) : IsNormal p.normalize.steps :=
  isNormal_foldl_addStep ⟨List.not_mem_nil, .nil⟩ p.steps

theorem addStep_of_isNormal {done : List Step} {s : Step} (h : IsNormal (done.reverse ++ [s])) :
    addStep done s = s :: done := by
  cases s with
  | current => exact absurd (by simp) h.1
  | name s => rfl
  | parent =>
    cases done with
    | nil => rfl
    | cons last rest =>
      have hlast : last = .parent := h.eq_parent_of_mem (by simp)
      rw [hlast]
      rfl

theorem foldl_addStep_of_isNormal {done steps : List Step} (h : IsNormal (done.reverse ++ steps)) :
    steps.foldl addStep done = steps.reverse ++ done := by
  -- Each step is added, as it stands in normal form after those that are done.
  induction steps generalizing done with
  | nil => rfl
  | cons s steps ih =>
    rw [← List.singleton_append, ← List.append_assoc] at h
    rw [List.foldl_cons, addStep_of_isNormal (h.sublist (List.sublist_append_left _ _)), ih]
    · rw [List.reverse_cons, List.append_assoc, List.singleton_append]
    · rw [List.reverse_cons]
      exact h

theorem normalize_of_isNormal {p : Path} (h : IsNormal p.steps) : p.normalize = p := by
  have hsteps : p.steps.foldl addStep [] = p.steps.reverse := by
    rw [foldl_addStep_of_isNormal (by simpa using h), List.append_nil]
  rw [normalize, hsteps, List.reverse_reverse]

@[simp] theorem normalize_normalize (p : Path) : p.normalize.normalize = p.normalize :=
  normalize_of_isNormal (isNormal_normalize p)

/-! ### Shortening -/

/-- The second steps are the first ones without a step that stays, or without a name and the step back after it. -/
inductive Shortens : List Step → List Step → Prop
  | stay (before after : List Step) : Shortens (before ++ .current :: after) (before ++ after)
  | back (before : List Step) (s : String) (after : List Step) :
      Shortens (before ++ .name s :: .parent :: after) (before ++ after)

section
variable {steps shorter : List Step}

theorem Shortens.append (h : Shortens steps shorter) (rest : List Step) :
    Shortens (steps ++ rest) (shorter ++ rest) := by
  cases h with
  | stay before after =>
    rw [List.append_assoc, List.append_assoc]
    exact .stay before (after ++ rest)
  | back before s after =>
    rw [List.append_assoc, List.append_assoc]
    exact .back before s (after ++ rest)

theorem Shortens.sublist (h : Shortens steps shorter) : shorter.Sublist steps := by
  cases h with
  | stay before after => exact (List.sublist_cons_self _ after).append_left before
  | back before s after => exact ((List.sublist_cons_self _ after).cons _).append_left before

section
variable {α : Type} {f : α → Step → α} (hstay : ∀ a, f a .current = a) (hback : ∀ a s, f (f a (.name s)) .parent = a)
include hstay hback

/-- Where a step that stays changes nothing and a step back undoes a name, shortening changes nothing. -/
theorem Shortens.foldl_eq (h : Shortens steps shorter) (a : α) : shorter.foldl f a = steps.foldl f a := by
  cases h with
  | stay before after => rw [List.foldl_append, List.foldl_append, List.foldl_cons, hstay]
  | back before s after => rw [List.foldl_append, List.foldl_append, List.foldl_cons, List.foldl_cons, hback]

theorem foldl_eq_of_shortens (h : Relation.ReflTransGen Shortens steps shorter) (a : α) :
    shorter.foldl f a = steps.foldl f a := by
  induction h with
  | refl => rfl
  | tail _ hstep ih => exact (hstep.foldl_eq hstay hback a).trans ih

end

theorem shortens_addStep (done : List Step) (s : Step) :
    Relation.ReflTransGen Shortens (done.reverse ++ [s]) (addStep done s).reverse := by
  have hpush : Relation.ReflTransGen Shortens (done.reverse ++ [s]) (s :: done).reverse := by
    rw [List.reverse_cons]
  cases s with
  | current =>
    have hstay := Shortens.stay done.reverse []
    rw [List.append_nil] at hstay
    exact .single hstay
  | name s => exact hpush
  | parent =>
    cases done with
    | nil => exact hpush
    | cons last rest =>
      cases last with
      | current => exact hpush
      | parent => exact hpush
      | name s =>
        have hback := Shortens.back rest.reverse s []
        rw [List.append_nil] at hback
        rw [List.reverse_cons, List.append_assoc]
        exact .single hback

theorem shortens_foldl_addStep (done steps : List Step) :
    Relation.ReflTransGen Shortens (done.reverse ++ steps) (steps.foldl addStep done).reverse := by
  induction steps generalizing done with
  | nil => rw [List.append_nil, List.foldl_nil]
  | cons s steps ih =>
    have hstep : Relation.ReflTransGen Shortens (done.reverse ++ [s] ++ steps) ((addStep done s).reverse ++ steps) :=
      (shortens_addStep done s).lift (· ++ steps) fun _ _ h => h.append steps
    rw [List.append_assoc, List.singleton_append] at hstep
    exact hstep.trans (ih (addStep done s))

end

theorem shortens_normalize (p : Path) : Relation.ReflTransGen Shortens p.steps p.normalize.steps :=
  shortens_foldl_addStep [] p.steps

theorem foldl_addStep_of_shortens {steps shorter : List Step} (h : Relation.ReflTransGen Shortens steps shorter)
    (done : List Step) : shorter.foldl addStep done = steps.foldl addStep done :=
  foldl_eq_of_shortens (fun _ => rfl) (fun _ _ => rfl) h done

/-- Steps are in normal form if they cannot be shortened. -/
theorem isNormal_iff {steps : List Step} : IsNormal steps ↔ ∀ shorter, ¬Shortens steps shorter := by
  constructor
  · rintro ⟨hcurrent, hback⟩ shorter hshort
    cases hshort with
    | stay before after => exact hcurrent (by simp)
    | back before s after =>
      have hname : Step.name s = .parent :=
        List.rel_of_pairwise_cons (List.pairwise_append.mp hback).2.1 List.mem_cons_self rfl
      cases hname
  · intro h
    -- Nothing is left for normalizing to take out.
    have hnormal := isNormal_normalize ⟨false, steps⟩
    rcases (shortens_normalize ⟨false, steps⟩).cases_head with heq | ⟨shorter, hshort, -⟩
    · rwa [← heq] at hnormal
    · exact absurd hshort (h shorter)

/-- The normal form is what a path is shortened to, if it is shortened as far as possible. -/
theorem normalize_eq_iff {p q : Path} :
    p.normalize = q ↔ q.absolute = p.absolute ∧ Relation.ReflTransGen Shortens p.steps q.steps ∧
      ∀ shorter, ¬Shortens q.steps shorter := by
  rw [← isNormal_iff]
  constructor
  · rintro rfl
    exact ⟨rfl, shortens_normalize p, isNormal_normalize p⟩
  · rintro ⟨habs, hshort, hnormal⟩
    have hsteps := foldl_addStep_of_shortens hshort []
    calc p.normalize = q.normalize := by rw [normalize, normalize, habs, hsteps]
      _ = q := normalize_of_isNormal hnormal

/-- A step back at the root stays, as no name stands before it. -/
example : (ofText "/a/../../mesh/.").normalize = ofText "/../mesh" := by decide

/-! ### Joining -/

/-- What is joined may be normalized early or late. -/
theorem normalize_join (p q : Path) : (p.normalize.join q.normalize).normalize = (p.join q).normalize := by
  have hsteps : (p.normalize.steps ++ q.normalize.steps).foldl addStep [] = (p.steps ++ q.steps).foldl addStep [] := by
    rw [List.foldl_append, List.foldl_append, foldl_addStep_of_shortens (shortens_normalize p),
      foldl_addStep_of_shortens (shortens_normalize q)]
  have habs : q.normalize.absolute = q.absolute := rfl
  unfold join
  rw [habs]
  split
  · exact normalize_normalize q
  · exact congrArg (fun done : List Step => (⟨p.absolute, done.reverse⟩ : Path)) hsteps

theorem normalize_join_normalize (p q : Path) : (p.normalize.join q).normalize = (p.join q).normalize := by
  rw [← normalize_join, normalize_normalize, normalize_join]

theorem join_of_absolute (p : Path) {q : Path} (h : q.absolute = true) : p.join q = q := if_pos h

/-! ### Directories -/

theorem prefix_steps_parent (p : Path) : p.parent.steps <+: p.steps := by
  unfold parent
  split
  · exact List.nil_prefix
  · exact List.dropLast_prefix _

/-- The directory of a path in normal form is in normal form. -/
theorem normalize_parent {p : Path} (h : p.normalize = p) : p.parent.normalize = p.parent := by
  refine normalize_of_isNormal (IsNormal.sublist ?_ (prefix_steps_parent p).sublist)
  rw [← h]
  exact isNormal_normalize p

theorem join_absolute {p : Path} (h : p.absolute = true) (q : Path) : (p.join q).absolute = true := by
  unfold join
  split
  · assumption
  · exact h

/-! ### Beginnings -/

/-- What a path is made of: the root, if it begins there, and its steps. -/
inductive Component where
  | root
  | step (s : Step)

def components (p : Path) : List Component := (if p.absolute then [.root] else []) ++ p.steps.map .step

theorem map_step_prefix_iff {steps rest : List Step} :
    steps.map Component.step <+: rest.map Component.step ↔ steps <+: rest :=
  List.prefix_map_iff_of_injective fun _ _ h => Component.step.inj h

theorem startsWith_eq_true_iff {p q : Path} :
    p.startsWith q = true ↔ q = empty ∨ p.absolute = q.absolute ∧ q.steps <+: p.steps := by
  simp only [startsWith, Bool.or_eq_true, Bool.and_eq_true, decide_eq_true_eq, List.isPrefixOf_iff_prefix]

/-- A path begins with another one exactly if its components do. -/
theorem startsWith_iff_components {p q : Path} : p.startsWith q = true ↔ q.components <+: p.components := by
  rw [startsWith_eq_true_iff]
  obtain ⟨absolute, steps⟩ := p
  obtain ⟨absolute', steps'⟩ := q
  cases absolute' with
  | true =>
    -- Only an absolute path has the root to begin with.
    cases absolute with
    | true => simp [components, empty, map_step_prefix_iff]
    | false => cases steps <;> simp [components, empty]
  | false =>
    cases absolute with
    | true => cases steps' <;> simp [components, empty]
    | false =>
      have hempty : steps' = [] → steps' <+: steps := fun h => h ▸ List.nil_prefix
      simpa [components, empty, map_step_prefix_iff] using hempty

theorem startsWith_parent {p q : Path} (h : p.startsWith q = true) : p.startsWith q.parent = true := by
  rw [startsWith_eq_true_iff] at h ⊢
  rcases h with rfl | ⟨habs, hsteps⟩
  · exact Or.inl rfl
  · by_cases hempty : q.steps.isEmpty
    · exact Or.inl (by rw [parent, if_pos hempty])
    · refine Or.inr ⟨?_, (prefix_steps_parent q).trans hsteps⟩
      rw [parent, if_neg hempty]
      exact habs

end Manifests.Path
