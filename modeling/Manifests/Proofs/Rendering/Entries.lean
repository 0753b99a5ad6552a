import Manifests.Proofs.Lists
import Manifests.Proofs.Value
import Manifests.Rendering.Entries

/-! # Looking rendered entries up

What stands under a key in the entries of a part: nothing under another key than its own, and nothing under its own
if the part is absent or empty. -/

namespace Manifests

namespace Rendering

/-- What stands for a mapping: nothing if it is empty. -/
def shown (entries : List Entry) : Option Value := if entries.isEmpty then none else some (.map entries)

theorem shown_eq_some_iff {entries : List Entry} {v : Value} :
    shown entries = some v ↔ entries ≠ [] ∧ v = .map entries := by
  cases entries <;> simp [shown, eq_comm]

theorem shown_of_ne_nil {entries : List Entry} (h : entries ≠ []) : shown entries = some (.map entries) :=
  shown_eq_some_iff.mpr ⟨h, rfl⟩

/-- What stands for a list: nothing if it is empty. -/
def shownList (items : List Value) : Option Value := if items.isEmpty then none else some (.list items)

theorem shownList_eq_some_iff {items : List Value} {v : Value} :
    shownList items = some v ↔ items ≠ [] ∧ v = .list items := by
  cases items <;> simp [shownList, eq_comm]

@[simp] theorem shown_getD (entries : List Entry) : (shown entries).getD (.map []) = .map entries := by
  cases entries <;> rfl

/-- The items of a list of mappings are those that are not empty. -/
theorem mappings_eq {α : Type} (key : String) (parts : List α) (entries : α → List Entry) :
    mappings key parts entries = list key (parts.filterMap fun a => shown (entries a)) := by
  have hitems : ((parts.map entries).filter (!·.isEmpty)).map Value.map =
      parts.filterMap fun a => shown (entries a) := by
    induction parts with
    | nil => rfl
    | cons a parts ih =>
      cases ha : entries a with
      | nil => simpa [ha, shown] using ih
      | cons => simpa [ha, shown] using ih
  rw [mappings, hitems]

/-- A list of mappings, none of which is empty, is not empty if it has parts. -/
theorem filterMap_shown_ne_nil {α : Type} {parts : List α} {entries : α → List Entry} (hne : parts ≠ [])
    (hentries : ∀ a, entries a ≠ []) : parts.filterMap (fun a => shown (entries a)) ≠ [] := by
  obtain ⟨a, ha⟩ := List.exists_mem_of_ne_nil parts hne
  exact List.ne_nil_of_mem (List.mem_filterMap.mpr ⟨a, ha, shown_of_ne_nil (hentries a)⟩)

theorem mappings_ne_nil {α : Type} {key : String} {parts : List α} {entries : α → List Entry} (hne : parts ≠ [])
    (hentries : ∀ a, entries a ≠ []) : mappings key parts entries ≠ [] := by
  have hitems := filterMap_shown_ne_nil hne hentries
  simpa [mappings_eq, list] using hitems

/-- The mappings of a list are in the order of the parts that are not empty. -/
theorem forall₂_filterMap_shown {α : Type} {R : α → Value → Prop} {parts : List α} {entries : α → List Entry}
    (h : ∀ a ∈ parts, R a (.map (entries a))) :
    List.Forall₂ R (parts.filter fun a => !(entries a).isEmpty) (parts.filterMap fun a => shown (entries a)) := by
  induction parts with
  | nil => exact .nil
  | cons a parts ih =>
    obtain ⟨ha, hparts⟩ := List.forall_mem_cons.mp h
    by_cases hempty : entries a = []
    · simpa [hempty, shown] using ih hparts
    · simpa [hempty, shown_of_ne_nil hempty] using And.intro ha (ih hparts)

/-! ### Parts that give no entries -/

section
variable {key : String}

theorem optionalText_eq_nil_iff {text : Option String} : optionalText key text = [] ↔ text = none := by
  cases text <;> simp [optionalText]

theorem optionalInt_eq_nil_iff {n : Option Int64} : optionalInt key n = [] ↔ n = none := by
  cases n <;> simp [optionalInt]

theorem mapping_eq_nil_iff {entries : List Entry} : mapping key entries = [] ↔ entries = [] := by
  cases entries <;> simp [mapping]

theorem optionalMapping_eq_nil_iff {α : Type} {part : Option α} {entries : α → List Entry} :
    optionalMapping key part entries = [] ↔ ∀ a ∈ part, entries a = [] := by
  cases part <;> simp [optionalMapping, mapping_eq_nil_iff]

end

/-! ### Look-ups -/

section
variable (key own : String)

theorem lookup_singleton (v : Value) : [(own, v)].lookup key = if key = own then some v else none := by
  by_cases h : key = own
  · simp [h]
  · simp [List.lookup_cons, h, beq_false_of_ne h]

@[simp] theorem lookup_textEntry (text : String) :
    (textEntry own text).lookup key = if key = own then some (.text text) else none :=
  lookup_singleton key own _

@[simp] theorem lookup_intEntry (n : Int64) :
    (intEntry own n).lookup key = if key = own then some (.int n) else none :=
  lookup_singleton key own _

@[simp] theorem lookup_optionalText (text : Option String) :
    (optionalText own text).lookup key = if key = own then text.map .text else none := by
  cases text with
  | none => simp [optionalText]
  | some text => exact lookup_singleton key own _

@[simp] theorem lookup_optionalInt (n : Option Int64) :
    (optionalInt own n).lookup key = if key = own then n.map .int else none := by
  cases n with
  | none => simp [optionalInt]
  | some n => exact lookup_singleton key own _

@[simp] theorem lookup_optionalBool (b : Option Bool) :
    (optionalBool own b).lookup key = if key = own then b.map .bool else none := by
  cases b with
  | none => simp [optionalBool]
  | some b => exact lookup_singleton key own _

@[simp] theorem lookup_mapping (entries : List Entry) :
    (mapping own entries).lookup key = if key = own then shown entries else none := by
  cases entries with
  | nil => simp [mapping, shown]
  | cons => exact lookup_singleton key own _

@[simp] theorem lookup_optionalMapping {α : Type} (part : Option α) (entries : α → List Entry) :
    (optionalMapping own part entries).lookup key =
      if key = own then part.bind fun a => shown (entries a) else none := by
  cases part with
  | none => simp [optionalMapping]
  | some a => exact lookup_mapping key own _

@[simp] theorem lookup_list (items : List Value) :
    (list own items).lookup key = if key = own then shownList items else none := by
  cases items with
  | nil => simp [list, shownList]
  | cons => exact lookup_singleton key own _

@[simp] theorem lookup_texts (items : List String) :
    (texts own items).lookup key = if key = own then shownList (items.map .text) else none :=
  lookup_list key own _

@[simp] theorem lookup_mappings {α : Type} (parts : List α) (entries : α → List Entry) :
    (mappings own parts entries).lookup key =
      if key = own then shownList (parts.filterMap fun a => shown (entries a)) else none := by
  rw [mappings_eq, lookup_list]

@[simp] theorem lookup_textMap (m : TextMap String) :
    (textMap own m).lookup key =
      if key = own then shown (m.entries.map fun entry => (entry.1, .text entry.2)) else none :=
  lookup_mapping key own _

end

end Rendering

open Rendering

/-! ### Rules of what is rendered -/

namespace Value

section
variable {α : Type} {v : Value} {key : String}

theorem has_text {text : Option String} (h : v.get? key = text.map .text) (htext : text.isSome) :
    v.Has key (IsText fun _ => True) := by
  obtain ⟨s, rfl⟩ := Option.isSome_iff_exists.mp htext
  exact ⟨_, h, s, rfl, trivial⟩

theorem mayHave_int {n : Option Int64} {P : Int64 → Prop} (h : v.get? key = n.map .int) (hn : ∀ i ∈ n, P i) :
    v.MayHave key (IsInt P) := by
  intro w hw
  obtain ⟨i, hi, rfl⟩ := Option.map_eq_some_iff.mp (h.symm.trans hw)
  exact ⟨i, rfl, hn i hi⟩

theorem mayHave_mapping {part : Option α} {entries : α → List Entry} {P : Value → Prop}
    (h : v.get? key = part.bind fun a => shown (entries a)) (hpart : ∀ a ∈ part, P (.map (entries a))) :
    v.MayHave key P := by
  intro w hw
  obtain ⟨a, ha, hshown⟩ := Option.bind_eq_some_iff.mp (h.symm.trans hw)
  obtain ⟨-, rfl⟩ := shown_eq_some_iff.mp hshown
  exact hpart a ha

/-- The items of a list that is left out if it is empty. -/
theorem itemsAt_eq {items : List Value} (h : v.get? key = shownList items) : v.itemsAt key = items := by
  rw [itemsAt, h]
  cases items <;> rfl

theorem has_texts {texts : List String} (h : v.get? key = shownList (texts.map .text)) (hne : texts ≠ []) :
    v.Has key (IsList (IsText fun _ => True)) := by
  have hne' : texts.map Value.text ≠ [] := by simpa using hne
  refine ⟨_, h.trans (shownList_eq_some_iff.mpr ⟨hne', rfl⟩), _, rfl, hne', fun item hitem => ?_⟩
  obtain ⟨s, -, rfl⟩ := List.mem_map.mp hitem
  exact ⟨s, rfl, trivial⟩

section
variable {parts : List α} {entries : α → List Entry} {P : Value → Prop}

theorem mayHave_mappings (h : v.get? key = shownList (parts.filterMap fun a => shown (entries a)))
    (hparts : ∀ a ∈ parts, P (.map (entries a))) : v.MayHave key (IsList P) := by
  intro w hw
  obtain ⟨hne, rfl⟩ := shownList_eq_some_iff.mp (h.symm.trans hw)
  refine ⟨_, rfl, hne, fun item hitem => ?_⟩
  obtain ⟨a, ha, hshown⟩ := List.mem_filterMap.mp hitem
  obtain ⟨-, rfl⟩ := shown_eq_some_iff.mp hshown
  exact hparts a ha

theorem has_mappings (h : v.get? key = shownList (parts.filterMap fun a => shown (entries a))) (hne : parts ≠ [])
    (hentries : ∀ a, entries a ≠ []) (hparts : ∀ a ∈ parts, P (.map (entries a))) : v.Has key (IsList P) := by
  have hget := h.trans (shownList_eq_some_iff.mpr ⟨filterMap_shown_ne_nil hne hentries, rfl⟩)
  exact ⟨_, hget, mayHave_mappings h hparts _ hget⟩

end

end

end Value

end Manifests
