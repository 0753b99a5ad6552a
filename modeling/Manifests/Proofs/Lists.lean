import Mathlib.Data.List.Forall2

/-! # Lists that are related item by item

How a relation between the items of two lists is carried on to a third list and to what holds of the items, and
likewise for optional values, and what a filter keeps. -/

namespace Manifests

variable {α β γ : Type}

/-- Two relations, one after the other. -/
theorem forall₂_comp {R : α → β → Prop} {S : β → γ → Prop} {as : List α} {bs : List β} {cs : List γ}
    (hR : List.Forall₂ R as bs) (hS : List.Forall₂ S bs cs) :
    List.Forall₂ (fun a c => ∃ b, R a b ∧ S b c) as cs := by
  induction hR generalizing cs with
  | nil =>
    cases hS
    exact .nil
  | cons hab _ ih =>
    cases hS with
    | cons hbc hS => exact .cons ⟨_, hab, hbc⟩ (ih hS)

/-- Where each item is related to another one, a list is related to another one. -/
theorem exists_forall₂ {R : α → β → Prop} {as : List α} (h : ∀ a ∈ as, ∃ b, R a b) :
    ∃ bs, List.Forall₂ R as bs := by
  induction as with
  | nil => exact ⟨[], .nil⟩
  | cons a as ih =>
    obtain ⟨⟨b, hb⟩, has⟩ := List.forall_mem_cons.mp h
    obtain ⟨bs, hbs⟩ := ih has
    exact ⟨b :: bs, .cons hb hbs⟩

/-- What is related to an item stands in the second list. -/
theorem forall₂_mem_right {R : α → β → Prop} {as : List α} {bs : List β} (h : List.Forall₂ R as bs) :
    List.Forall₂ (fun a b => b ∈ bs ∧ R a b) as bs := by
  induction h with
  | nil => exact .nil
  | cons hab _ ih => exact .cons ⟨List.mem_cons_self, hab⟩ (ih.imp fun _ _ h => ⟨List.mem_cons_of_mem _ h.1, h.2⟩)

/-- Where each item of the second list has an image, the images are related to the first list. -/
theorem forall₂_filterMap_right {R : α → β → Prop} {T : α → γ → Prop} {f : β → Option γ} {as : List α} {bs : List β}
    (hR : List.Forall₂ R as bs) (h : ∀ a b, R a b → ∃ c, f b = some c ∧ T a c) :
    List.Forall₂ T as (bs.filterMap f) := by
  induction hR with
  | nil => exact .nil
  | cons hab _ ih =>
    obtain ⟨c, hc, hT⟩ := h _ _ hab
    rw [List.filterMap_cons_some hc]
    exact .cons hT ih

theorem exists_mem_zip_of_forall₂ {R : α → β → Prop} {as : List α} {bs : List β} (h : List.Forall₂ R as bs) {a : α}
    (ha : a ∈ as) : ∃ b, (a, b) ∈ as.zip bs ∧ R a b := by
  induction h with
  | nil => cases ha
  | cons hab _ ih =>
    rcases List.mem_cons.mp ha with rfl | ha
    · exact ⟨_, List.mem_cons_self, hab⟩
    · obtain ⟨b, hb, hR⟩ := ih ha
      exact ⟨b, List.mem_cons_of_mem _ hb, hR⟩

theorem exists_mem_right_of_forall₂ {R : α → β → Prop} {as : List α} {bs : List β} (h : List.Forall₂ R as bs) {a : α}
    (ha : a ∈ as) : ∃ b ∈ bs, R a b := by
  obtain ⟨b, hb, hR⟩ := exists_mem_zip_of_forall₂ h ha
  exact ⟨b, (List.of_mem_zip hb).2, hR⟩

theorem exists_mem_left_of_forall₂ {R : α → β → Prop} {as : List α} {bs : List β} (h : List.Forall₂ R as bs) {b : β}
    (hb : b ∈ bs) : ∃ a ∈ as, R a b :=
  exists_mem_right_of_forall₂ h.flip hb

/-- What holds of all items holds of all that are related to them. -/
theorem forall_iff_of_forall₂ {R : α → β → Prop} {P : α → Prop} {Q : β → Prop} {as : List α} {bs : List β}
    (hR : List.Forall₂ R as bs) (h : ∀ a ∈ as, ∀ b, R a b → (P a ↔ Q b)) : (∀ a ∈ as, P a) ↔ ∀ b ∈ bs, Q b := by
  constructor
  · intro hP b hb
    obtain ⟨a, ha, hab⟩ := exists_mem_left_of_forall₂ hR hb
    exact (h a ha b hab).mp (hP a ha)
  · intro hQ a ha
    obtain ⟨b, hb, hab⟩ := exists_mem_right_of_forall₂ hR ha
    exact (h a ha b hab).mpr (hQ b hb)

/-- What holds of any two items holds of any two that are related to them, where something else holds of any two. -/
theorem pairwise_iff_of_forall₂ {R : α → β → Prop} {S P : α → α → Prop} {Q : β → β → Prop} {as : List α}
    {bs : List β} (hR : List.Forall₂ R as bs) (hS : as.Pairwise S)
    (h : ∀ {a a' b b'}, R a b → R a' b' → S a a' → (P a a' ↔ Q b b')) : as.Pairwise P ↔ bs.Pairwise Q := by
  induction hR with
  | nil => exact iff_of_true .nil .nil
  | @cons a b as bs hab hrest ih =>
    obtain ⟨hfirst, hS⟩ := List.pairwise_cons.mp hS
    rw [List.pairwise_cons, List.pairwise_cons, ih hS]
    refine and_congr_left fun _ => ⟨fun hP b' hb' => ?_, fun hQ a' ha' => ?_⟩
    · obtain ⟨a', ha', hR⟩ := exists_mem_left_of_forall₂ hrest hb'
      exact (h hab hR (hfirst a' ha')).mp (hP a' ha')
    · obtain ⟨b', hb', hR⟩ := exists_mem_right_of_forall₂ hrest ha'
      exact (h hab hR (hfirst a' ha')).mpr (hQ b' hb')

/-- Where each item is related to one other at most, and only if it satisfies a condition, a list is related to the
    list of these others if all its items satisfy the condition. -/
theorem forall₂_iff_eq {R S : α → β → Prop} {P : α → Prop} {as : List α} {bs : List β} (hR : List.Forall₂ R as bs)
    (hS : ∀ a b, R a b → ∀ b', S a b' ↔ b' = b ∧ P a) (bs' : List β) :
    List.Forall₂ S as bs' ↔ bs' = bs ∧ ∀ a ∈ as, P a := by
  induction hR generalizing bs' with
  | nil => simp
  | @cons a b as bs hab _ ih =>
    rw [List.forall₂_cons_left_iff, List.forall_mem_cons]
    constructor
    · rintro ⟨b', rest, hb', hrest, rfl⟩
      obtain ⟨rfl, ha⟩ := (hS a b hab b').mp hb'
      obtain ⟨rfl, has⟩ := (ih rest).mp hrest
      exact ⟨rfl, ha, has⟩
    · rintro ⟨rfl, ha, has⟩
      exact ⟨b, bs, (hS a b hab b).mpr ⟨rfl, ha⟩, (ih bs).mpr ⟨rfl, has⟩, rfl⟩

/-- Lists whose items have the same images have the same images in a row. -/
theorem flatMap_eq_of_forall₂ {f : α → List γ} {g : β → List γ} {as : List α} {bs : List β}
    (h : List.Forall₂ (fun a b => f a = g b) as bs) : as.flatMap f = bs.flatMap g := by
  induction h with
  | nil => rfl
  | cons hab _ ih => rw [List.flatMap_cons, List.flatMap_cons, hab, ih]

/-- Two lists are taken apart where an item stands for the last time. -/
theorem eq_of_append_cons_eq {x : α} {before before' after after' : List α} (hafter : x ∉ after) (hafter' : x ∉ after')
    (h : before ++ x :: after = before' ++ x :: after') : before = before' ∧ after = after' := by
  induction before generalizing before' with
  | nil =>
    cases before' with
    | nil => exact ⟨rfl, (List.cons.inj h).2⟩
    | cons y before' => exact absurd ((List.cons.inj h).2 ▸ List.mem_append_right _ List.mem_cons_self) hafter
  | cons y before ih =>
    cases before' with
    | nil => exact absurd ((List.cons.inj h).2 ▸ List.mem_append_right _ List.mem_cons_self) hafter'
    | cons y' before' =>
      obtain ⟨rfl, hrest⟩ := List.cons.inj h
      obtain ⟨rfl, hafter⟩ := ih hrest
      exact ⟨rfl, hafter⟩

/-! ### Optional values -/

theorem option_rel_comp {R : α → β → Prop} {S : β → γ → Prop} {a : Option α} {b : Option β} {c : Option γ}
    (hR : Option.Rel R a b) (hS : Option.Rel S b c) : Option.Rel (fun a c => ∃ b, R a b ∧ S b c) a c := by
  cases hR with
  | none =>
    cases hS
    exact .none
  | some hab =>
    cases hS with
    | some hbc => exact .some ⟨_, hab, hbc⟩

theorem option_rel_imp {R S : α → β → Prop} {a : Option α} {b : Option β} (hR : Option.Rel R a b)
    (h : ∀ x y, R x y → S x y) : Option.Rel S a b := by
  cases hR with
  | none => exact .none
  | some hab => exact .some (h _ _ hab)

theorem option_rel_bind {δ : Type} {R : α → β → Prop} {S : γ → δ → Prop} {f : α → Option γ} {g : β → Option δ}
    {a : Option α} {b : Option β} (hR : Option.Rel R a b) (h : ∀ x y, R x y → Option.Rel S (f x) (g y)) :
    Option.Rel S (a.bind f) (b.bind g) := by
  cases hR with
  | none => exact .none
  | some hab => exact h _ _ hab

theorem option_rel_some_left_iff {R : α → β → Prop} {a : α} {b : Option β} :
    Option.Rel R (some a) b ↔ ∃ x ∈ b, R a x := by
  constructor
  · rintro ⟨⟩
    exact ⟨_, rfl, ‹_›⟩
  · rintro ⟨x, rfl, hR⟩
    exact .some hR

theorem option_rel_some_right_iff {R : α → β → Prop} {a : Option α} {b : β} :
    Option.Rel R a (some b) ↔ ∃ x ∈ a, R x b := by
  constructor
  · rintro ⟨⟩
    exact ⟨_, rfl, ‹_›⟩
  · rintro ⟨x, rfl, hR⟩
    exact .some hR

/-- Where the second value, if there is one, has an image, the image is related to the first value. -/
theorem option_rel_bind_right {R : α → β → Prop} {T : α → γ → Prop} {f : β → Option γ} {a : Option α} {b : Option β}
    (hR : Option.Rel R a b) (h : ∀ x, ∀ y ∈ b, R x y → ∃ z, f y = some z ∧ T x z) : Option.Rel T a (b.bind f) := by
  cases hR with
  | none => exact .none
  | some hab =>
    obtain ⟨z, hz, hT⟩ := h _ _ rfl hab
    rw [Option.bind_some, hz]
    exact .some hT

/-! ### Filters -/

/-- Images that are kept stand in the same order among the images of more items. -/
theorem filterMap_sublist_of_imp {f g : α → Option β} (h : ∀ a b, f a = some b → g a = some b) (as : List α) :
    (as.filterMap f).Sublist (as.filterMap g) := by
  induction as with
  | nil => exact .slnil
  | cons a as ih =>
    cases hf : f a with
    | some b =>
      rw [List.filterMap_cons_some hf, List.filterMap_cons_some (h a b hf)]
      exact ih.cons_cons b
    | none =>
      rw [List.filterMap_cons_none hf]
      exact ih.trans ((List.sublist_cons_self a as).filterMap g)

/-- A filter that keeps no two items keeps the one that it keeps. -/
theorem filter_eq_singleton {keep : α → Bool} {as : List α} {a : α}
    (hpairwise : as.Pairwise fun b c => keep b = true → keep c = false) (ha : a ∈ as) (hkeep : keep a = true) :
    as.filter keep = [a] := by
  induction hpairwise with
  | nil => cases ha
  | @cons b as hb _ ih =>
    rcases List.mem_cons.mp ha with rfl | ha
    · rw [List.filter_cons_of_pos hkeep, List.filter_eq_nil_iff.mpr fun c hc => by simp [hb c hc hkeep]]
    · have hnot : keep b = false := by
        by_contra hb'
        simp [hb a ha (by simpa using hb')] at hkeep
      rw [List.filter_cons_of_neg (by simp [hnot]), ih ha]

/-- What holds of any two items that are kept, and of each of the others with any item, holds of any two items. -/
theorem pairwise_of_filter {R : α → α → Prop} {keep : α → Bool} {as : List α}
    (h : (as.filter keep).Pairwise R) (hothers : ∀ a ∈ as, ∀ b ∈ as, keep a = false ∨ keep b = false → R a b) :
    as.Pairwise R := by
  induction as with
  | nil => exact .nil
  | cons a as ih =>
    have hrest : ∀ b ∈ as, ∀ c ∈ as, keep b = false ∨ keep c = false → R b c := fun b hb c hc =>
      hothers b (List.mem_cons_of_mem _ hb) c (List.mem_cons_of_mem _ hc)
    have hfirst (b : α) (hb : b ∈ as) (hnot : keep a = false ∨ keep b = false) : R a b :=
      hothers a List.mem_cons_self b (List.mem_cons_of_mem _ hb) hnot
    cases hkeep : keep a with
    | false =>
      rw [List.filter_cons_of_neg (by simp [hkeep])] at h
      exact List.pairwise_cons.mpr ⟨fun b hb => hfirst b hb (.inl hkeep), ih h hrest⟩
    | true =>
      rw [List.filter_cons_of_pos hkeep, List.pairwise_cons] at h
      refine List.pairwise_cons.mpr ⟨fun b hb => ?_, ih h.2 hrest⟩
      cases hkeep' : keep b with
      | false => exact hfirst b hb (.inr hkeep')
      | true => exact h.1 b (List.mem_filter.mpr ⟨hb, hkeep'⟩)

/-! ### Lists of pairs -/

theorem lookup_isSome_iff_mem {κ β : Type} [BEq κ] [LawfulBEq κ] {pairs : List (κ × β)} {key : κ} :
    (pairs.lookup key).isSome ↔ key ∈ pairs.map (·.1) := by
  simp [List.lookup_isSome_iff]

theorem lookup_cons_eq_ite {κ β : Type} [BEq κ] [LawfulBEq κ] [DecidableEq κ] (key key' : κ) (value : β)
    (pairs : List (κ × β)) :
    ((key', value) :: pairs).lookup key = if key = key' then some value else pairs.lookup key := by
  rw [List.lookup_cons]
  by_cases h : key = key'
  · simp [h]
  · rw [beq_false_of_ne h, if_neg h]

end Manifests
