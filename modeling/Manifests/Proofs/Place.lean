import Manifests.FileTree
import Manifests.Proofs.Except
import Manifests.Proofs.Path

/-! # Where paths lead

The place that a path leads to, if its steps are followed from a directory and a step back leads to the parent
directory. Normalizing a path does not change where it leads (`place_normalize`), names lead further down
(`prefix_follow_names`), and each step back leads up by one name (`length_follow_parents`). In a tree a path leads
to that place or to none (`place_of_walk`). The normal form of an absolute path is that of its place, unless a step
back is taken at the root (`normalize_of_absolute`): then this step stays in it. -/

namespace Manifests

/-- The place that one more step leads to. The root is its own parent. -/
def Step.follow (place : Place) : Step → Place
  | .current => place
  | .parent => place.dropLast
  | .name s => place ++ [s]

namespace Step
variable {steps : List Step}

theorem prefix_follow_names (h : ∀ s ∈ steps, ∃ name, s = .name name) (start : Place) :
    start <+: steps.foldl follow start := by
  induction steps generalizing start with
  | nil => exact List.prefix_refl start
  | cons s steps ih =>
    obtain ⟨name, rfl⟩ := h s List.mem_cons_self
    exact (List.prefix_append start [name]).trans (ih (fun t ht => h t (List.mem_cons_of_mem _ ht)) _)

theorem length_follow_parents (h : ∀ s ∈ steps, s = .parent) (start : Place) :
    (steps.foldl follow start).length = start.length - steps.length := by
  induction steps generalizing start with
  | nil => rfl
  | cons s steps ih =>
    obtain rfl := h s List.mem_cons_self
    rw [List.foldl_cons, ih (fun t ht => h t (List.mem_cons_of_mem _ ht)), follow, List.length_dropLast,
      List.length_cons]
    omega

/-- No step leads up by more than one name. -/
theorem length_le_length_follow (steps : List Step) (start : Place) :
    start.length ≤ (steps.foldl follow start).length + steps.length := by
  induction steps generalizing start with
  | nil => exact Nat.le_refl _
  | cons s steps ih =>
    have hstep : start.length ≤ (follow start s).length + 1 := by
      cases s with
      | current => exact Nat.le_succ _
      | parent =>
        rw [follow, List.length_dropLast]
        omega
      | name s =>
        rw [follow, List.length_append]
        omega
    have hrest := ih (follow start s)
    rw [List.foldl_cons, List.length_cons]
    omega

end Step

namespace Path

/-- The place that a path leads to from the directory `here`. -/
def place (here : Place) (p : Path) : Place := p.steps.foldl Step.follow (if p.absolute then [] else here)

theorem place_of_steps_append {p : Path} {steps rest : List Step} (h : p.steps = steps ++ rest) (here : Place) :
    p.place here = rest.foldl Step.follow (place here ⟨p.absolute, steps⟩) := by
  rw [place, h, List.foldl_append]
  rfl

/-! ### Normalizing -/

/-- Where a path leads stays, as a step back leads to where the name before it was followed from. -/
@[simp] theorem place_normalize (here : Place) (p : Path) : p.normalize.place here = p.place here :=
  foldl_eq_of_shortens (fun _ => rfl) (fun _ _ => List.dropLast_concat) (shortens_normalize p) _

/-! ### Steps back at the root -/

/-- The path of names from the root to a place. -/
def ofPlace (place : Place) : Path := ⟨true, place.map .name⟩

theorem foldl_follow_names (start names : Place) : (names.map Step.name).foldl Step.follow start = start ++ names := by
  induction names generalizing start with
  | nil => rw [List.map_nil, List.foldl_nil, List.append_nil]
  | cons name names ih => rw [List.map_cons, List.foldl_cons, ih, Step.follow, List.append_assoc, List.singleton_append]

@[simp] theorem place_ofPlace (here place : Place) : (ofPlace place).place here = place :=
  foldl_follow_names [] place

theorem ofPlace_injective : Function.Injective ofPlace := by
  intro place q h
  rw [← place_ofPlace [] place, h, place_ofPlace]

theorem parent_not_mem_ofPlace (place : Place) : Step.parent ∉ (ofPlace place).steps := by
  simp [ofPlace]

theorem normalize_ofPlace (place : Place) : (ofPlace place).normalize = ofPlace place := by
  refine normalize_of_isNormal ⟨by simp [ofPlace], ?_⟩
  refine List.pairwise_of_forall_mem_list fun s _ t ht hparent => ?_
  exact absurd (hparent ▸ ht) (parent_not_mem_ofPlace place)

/-- From a place on, a step back is taken at the root. -/
def ClimbsFrom (start : Place) (steps : List Step) : Prop :=
  ∃ before after, steps = before ++ .parent :: after ∧ before.foldl Step.follow start = []

/-- A step back of the path is taken at the root, if the path is followed from there. -/
def ClimbsRoot (p : Path) : Prop := ClimbsFrom [] p.steps

theorem not_climbsFrom_nil (start : Place) : ¬ClimbsFrom start [] := by
  rintro ⟨before, after, h, -⟩
  simp at h

theorem climbsFrom_cons {start : Place} {s : Step} {steps : List Step} :
    ClimbsFrom start (s :: steps) ↔ (s = .parent ∧ start = []) ∨ ClimbsFrom (Step.follow start s) steps := by
  constructor
  · rintro ⟨before, after, h, hroot⟩
    cases before with
    | nil => exact Or.inl ⟨(List.cons.inj h).1, hroot⟩
    | cons t before =>
      obtain ⟨rfl, hsteps⟩ := List.cons.inj h
      exact Or.inr ⟨before, after, hsteps, hroot⟩
  · rintro (⟨rfl, rfl⟩ | ⟨before, after, rfl, hroot⟩)
    · exact ⟨[], steps, rfl, rfl⟩
    · exact ⟨s :: before, after, rfl, hroot⟩

theorem parent_mem_foldl_addStep {done : List Step} (h : Step.parent ∈ done) (steps : List Step) :
    Step.parent ∈ steps.foldl addStep done := by
  induction steps generalizing done with
  | nil => exact h
  | cons s steps ih =>
    refine ih ?_
    cases s with
    | current => exact h
    | name s => exact List.mem_cons_of_mem _ h
    | parent =>
      cases done with
      | nil => cases h
      | cons last rest =>
        cases last with
        | current => exact List.mem_cons_self
        | parent => exact List.mem_cons_self
        | name s => exact (List.mem_cons.mp h).resolve_left Step.noConfusion

/-- A step from a place, after the names that lead there. -/
theorem addStep_names {place : Place} {s : Step} (h : ¬(s = .parent ∧ place = [])) :
    addStep (place.map Step.name).reverse s = ((Step.follow place s).map Step.name).reverse := by
  cases s with
  | current => rfl
  | name s => simp [addStep, Step.follow]
  | parent =>
    rcases List.eq_nil_or_concat' place with rfl | ⟨above, last, rfl⟩
    · exact absurd ⟨rfl, rfl⟩ h
    · simp [addStep, Step.follow]

theorem foldl_addStep_names {start : Place} {steps : List Step} (h : ¬ClimbsFrom start steps) :
    steps.foldl addStep (start.map Step.name).reverse =
      ((steps.foldl Step.follow start).map Step.name).reverse := by
  induction steps generalizing start with
  | nil => rfl
  | cons s steps ih =>
    obtain ⟨hstep, hrest⟩ := not_or.mp (climbsFrom_cons.not.mp h)
    rw [List.foldl_cons, List.foldl_cons, addStep_names hstep, ih hrest]

theorem parent_mem_of_climbsFrom {start : Place} {steps : List Step} (h : ClimbsFrom start steps) :
    Step.parent ∈ steps.foldl addStep (start.map Step.name).reverse := by
  induction steps generalizing start with
  | nil => exact absurd h (not_climbsFrom_nil start)
  | cons s steps ih =>
    by_cases hstep : s = .parent ∧ start = []
    · obtain ⟨rfl, rfl⟩ := hstep
      exact parent_mem_foldl_addStep List.mem_cons_self steps
    · rw [List.foldl_cons, addStep_names hstep]
      exact ih ((climbsFrom_cons.mp h).resolve_left hstep)

/-- The normal form of an absolute path names the way to its place, unless a step back is taken at the root. -/
theorem normalize_of_absolute {p : Path} (habs : p.absolute = true) (h : ¬p.ClimbsRoot) (here : Place) :
    p.normalize = ofPlace (p.place here) := by
  have hsteps : p.steps.foldl addStep [] = ((p.steps.foldl Step.follow []).map Step.name).reverse :=
    foldl_addStep_names h
  rw [normalize, hsteps, List.reverse_reverse, place, if_pos habs, habs, ofPlace]

theorem ClimbsRoot.parent_mem {p : Path} (h : p.ClimbsRoot) : Step.parent ∈ p.normalize.steps :=
  List.mem_reverse.mpr (parent_mem_of_climbsFrom h)

end Path

/-! ### In a tree -/

namespace FileTree

theorem eq_follow_of_follow {tree : FileTree} {place q : Place} {s : Step} (h : tree.follow place s = .ok q) :
    q = s.follow place := by
  unfold follow at h
  split at h
  · cases h
  · cases h
  · cases s with
    | current => exact (Except.ok.inj h).symm
    | parent => exact (Except.ok.inj h).symm
    | name s =>
      dsimp only at h
      split at h
      · cases h
      · split at h
        · exact (Except.ok.inj h).symm
        · cases h

theorem eq_foldl_of_foldlM {tree : FileTree} {place q : Place} {steps : List Step}
    (h : steps.foldlM tree.follow place = .ok q) : q = steps.foldl Step.follow place := by
  induction steps generalizing place with
  | nil => exact (Except.ok.inj h).symm
  | cons s steps ih =>
    rw [List.foldlM_cons] at h
    obtain ⟨next, hnext, h⟩ := bind_eq_ok_iff.mp h
    rw [List.foldl_cons, ← eq_follow_of_follow hnext]
    exact ih h

theorem place_of_walk {tree : FileTree} {here q : Place} {path : Path} (h : tree.walk here path = .ok q) :
    q = path.place here :=
  eq_foldl_of_foldlM h

theorem place_of_locate {tree : FileTree} {here q : Place} {path : Path} (h : tree.locate here path = .ok q) :
    q = path.place here := by
  unfold locate at h
  split at h
  · cases h
  · split at h
    · cases h
    · exact place_of_walk h

end FileTree

end Manifests
