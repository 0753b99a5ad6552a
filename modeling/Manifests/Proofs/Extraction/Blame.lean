import Manifests.Proofs.Extraction.Faults
import Manifests.Proofs.Extraction.Readers

/-! # Readers that point at faults

A reader of a grammar may fail only because of a fault of its value: the defect that it gives has the fault, and its
path is that of the value and then the path to the fault (`Blames`). Readers of lists, tables and records point at
faults if the readers of their parts do. -/

namespace Manifests.Extraction

open Grammar

/-- Whatever the reader fails for is a fault of the value, under the path on from the value. -/
def Blames {α : Type} (read : Reader α) (g : Grammar) : Prop :=
  ∀ path v defect, read path v = .error defect →
    ∃ rest, defect.path = path ++ rest ∧ g.HasFault v rest defect.fault

theorem Blames.map {α β : Type} {read : Reader α} {g : Grammar} (h : Blames read g) (f : α → β) :
    Blames (fun path v => do return f (← read path v)) g := by
  intro path v defect hread
  rcases bind_eq_error_iff.mp hread with hread | ⟨a, -, hpure⟩
  · exact h path v defect hread
  · exact absurd hpure pure_ne_error

/-! ### Values that do not fit -/

section
variable {α : Type} {g : Grammar} {path : FieldPath} {v : Value} {fault : Fault} {defect : Defect}

theorem exists_rest_of_unfit (h : g.Unfit v fault) :
    ∃ rest, (Defect.mk path fault).path = path ++ rest ∧ g.HasFault v rest (Defect.mk path fault).fault :=
  ⟨[], (List.append_nil path).symm, hasFault_of_unfit h⟩

theorem readText_eq_error (h : readText path v = .error defect) :
    v.scalarText? = none ∧ defect = ⟨path, .expected .scalar v.shape⟩ := by
  unfold readText at h
  split at h
  · cases h
  · exact ⟨‹_›, (Except.error.inj h).symm⟩

theorem readMapping_eq_error (h : readMapping path v = .error defect) :
    v.shape ≠ .mapping ∧ defect = ⟨path, .expected .mapping v.shape⟩ := by
  cases v with
  | map => cases h
  | null | bool | int | float | text | list => exact ⟨nofun, (Except.error.inj h).symm⟩

theorem readList_eq_error (h : readList path v = .error defect) :
    v.shape ≠ .list ∧ defect = ⟨path, .expected .list v.shape⟩ := by
  cases v with
  | list => cases h
  | null | bool | int | float | text | map => exact ⟨nofun, (Except.error.inj h).symm⟩

end

/-! ### Scalars -/

@[simp] theorem readText_blames : Blames readText .text := by
  intro path v defect h
  obtain ⟨hnone, rfl⟩ := readText_eq_error h
  exact exists_rest_of_unfit (.text hnone)

@[simp] theorem readInt_blames : Blames readInt .integer := by
  intro path v defect h
  cases v with
  | int => cases h
  | text s =>
    rw [readInt] at h
    split at h
    · cases h
    · rename_i hread
      obtain rfl := Except.error.inj h
      refine exists_rest_of_unfit (.integerText fun inner hpads hinner => ?_)
      have hsome := Number.readInt64?_trim_isSome_iff.mpr ⟨inner, hpads, hinner⟩
      rw [hread] at hsome
      cases hsome
  | null | bool | float | map | list =>
    obtain rfl := Except.error.inj h
    exact exists_rest_of_unfit (.integer (by simp [Value.shape]) (by simp [Value.shape]))

@[simp] theorem readOptionalInt_blames : Blames readOptionalInt .integer := readInt_blames.map _

@[simp] theorem readBool_blames : Blames readBool .truth := by
  intro path v defect h
  cases v with
  | bool => cases h
  | null | int | float | text | map | list =>
    obtain rfl := Except.error.inj h
    exact exists_rest_of_unfit (.truth (by simp [Value.shape]))

/-- A word is looked up among the names of something, and one that is not found is reported. -/
theorem blames_word {α : Type} {read : Reader α} {all : List α} {name : α → String} {fault : String → Fault}
    (h : ∀ path v defect, read path v = .error defect → readText path v = .error defect ∨
      ∃ text, v.scalarText? = some text ∧ all.find? (name · = text) = none ∧ defect = ⟨path, fault text⟩)
    (hunfit : ∀ {v text}, v.scalarText? = some text → text ∉ all.map name →
      (Grammar.word (all.map name)).Unfit v (fault text)) :
    Blames read (.word (all.map name)) := by
  intro path v defect hread
  rcases h path v defect hread with htext | ⟨text, htext, hfind, rfl⟩
  · obtain ⟨hnone, rfl⟩ := readText_eq_error htext
    exact exists_rest_of_unfit (.noWord hnone)
  · refine exists_rest_of_unfit (hunfit htext fun hmem => ?_)
    obtain ⟨a, ha, rfl⟩ := List.mem_map.mp hmem
    exact List.find?_eq_none.mp hfind a ha (decide_eq_true rfl)

/-! ### Lists -/

section
variable {α : Type} {read : Reader α} {g : Grammar}

/-- The item that cannot be read stands at its index. -/
theorem readItemsFrom_eq_error {path : FieldPath} {start : Nat} {items : List Value} {defect : Defect}
    (h : readItemsFrom read path start items = .error defect) :
    ∃ i item, items[i]? = some item ∧ read (path.item (start + i)) item = .error defect := by
  induction items generalizing start with
  | nil => cases h
  | cons first items ih =>
    rcases bind_eq_error_iff.mp h with h | ⟨a, -, h⟩
    · exact ⟨0, first, rfl, h⟩
    · rcases bind_eq_error_iff.mp h with h | ⟨as, -, h⟩
      · obtain ⟨i, item, hitem, hread⟩ := ih h
        exact ⟨i + 1, item, hitem, by rwa [← Nat.add_assoc, Nat.add_right_comm]⟩
      · exact absurd h pure_ne_error

@[simp] theorem readItems_blames (h : Blames read g) : Blames (readItems read) (.list g) := by
  intro path v defect hread
  rcases bind_eq_error_iff.mp hread with hlist | ⟨items, hitems, hread⟩
  · obtain ⟨hshape, rfl⟩ := readList_eq_error hlist
    exact exists_rest_of_unfit (.list hshape)
  · obtain ⟨i, item, hitem, hread⟩ := readItemsFrom_eq_error hread
    obtain ⟨rest, hpath, hfault⟩ := h _ item defect hread
    cases v with
    | list =>
      obtain rfl := Except.ok.inj hitems
      refine ⟨.index i :: rest, ?_, hfault.index hitem⟩
      rw [hpath, Nat.zero_add, FieldPath.item, List.append_assoc, List.singleton_append]
    | null | bool | int | float | text | map => cases hitems

end

@[simp] theorem readTexts_blames : Blames readTexts (.list .text) := readItems_blames readText_blames

@[simp] theorem readTextSet_blames : Blames readTextSet (.list .text) := readTexts_blames.map _

/-! ### Mappings -/

section
variable {α : Type} {g : Grammar}

/-- What is read entry by entry points at a fault if it fails at an entry, or for a fault of the mapping itself. -/
theorem blames_mapping {next : FieldPath → List Entry → Result α} (hmapping : g.IsMapping)
    (h : ∀ path entries defect, next path entries = .error defect →
      ∃ rest, defect.path = path ++ rest ∧ g.HasFault (.map entries) rest defect.fault) :
    Blames (fun path v => readMapping path v >>= next path) g := by
  intro path v defect hread
  rcases bind_eq_error_iff.mp hread with hmap | ⟨entries, hentries, hread⟩
  · obtain ⟨hshape, rfl⟩ := readMapping_eq_error hmap
    exact exists_rest_of_unfit (.mapping hmapping hshape)
  · rw [readMapping_eq_map hentries]
    exact h path entries defect hread

/-- A value that cannot be read under its key is a fault of the mapping under the key. -/
theorem exists_rest_of_entry {inner : Grammar} {read : Reader α} {path : FieldPath} {key : String} {v : Value}
    {entries : List Entry} {defect : Defect} (hread : read (path.field key) v = .error defect)
    (hblames : Blames read inner) (hinner : g.field? key = some inner) (hentry : (key, v) ∈ entries)
    (hnull : v = .null → ¬ g.TakesNull) :
    ∃ rest, defect.path = path ++ rest ∧ g.HasFault (.map entries) rest defect.fault := by
  obtain ⟨rest, hpath, hfault⟩ := hblames _ v defect hread
  refine ⟨.key key :: rest, ?_, hfault.key hinner hentry hnull⟩
  rw [hpath, FieldPath.field, List.append_assoc, List.singleton_append]

end

theorem readTextEntries_eq_error {path : FieldPath} {entries : List Entry} {m : TextMap String} {defect : Defect}
    (h : readTextEntries path entries m = .error defect) :
    ∃ e ∈ entries, e.2 ≠ .null ∧ readText (path.field e.1) e.2 = .error defect := by
  induction entries generalizing m with
  | nil => cases h
  | cons entry entries ih =>
    obtain ⟨key, value⟩ := entry
    have hrest {m : TextMap String} (h : readTextEntries path entries m = .error defect) :
        ∃ e ∈ (key, value) :: entries, e.2 ≠ .null ∧ readText (path.field e.1) e.2 = .error defect := by
      obtain ⟨e, he, hread⟩ := ih h
      exact ⟨e, List.mem_cons_of_mem _ he, hread⟩
    rw [readTextEntries] at h
    split at h
    · exact hrest h
    · rename_i hnull
      rcases bind_eq_error_iff.mp h with h | ⟨text, -, h⟩
      · exact ⟨(key, value), List.mem_cons_self, fun hv => hnull (Value.isNull_iff.mpr hv), h⟩
      · exact hrest h

@[simp] theorem readTextMap_blames : Blames readTextMap texts := by
  refine blames_mapping trivial fun path entries defect h => ?_
  obtain ⟨⟨key, v⟩, hentry, hne, hread⟩ := readTextEntries_eq_error h
  exact exists_rest_of_entry hread readText_blames rfl hentry fun hv => absurd hv hne

/-! ### Entries with known keys -/

theorem classify_eq_error {φ : Type} {known : String → Option φ} {path : FieldPath} {entries : List Entry}
    {defect : Defect} (h : classify known path entries = .error defect) :
    ∃ e ∈ entries, known e.1 = none ∧ defect = ⟨path ++ [.key e.1], .unrecognized⟩ := by
  induction entries with
  | nil => cases h
  | cons entry entries ih =>
    rw [classify] at h
    split at h
    · exact ⟨entry, List.mem_cons_self, ‹_›, (Except.error.inj h).symm⟩
    · rcases bind_eq_error_iff.mp h with h | ⟨found, -, h⟩
      · obtain ⟨e, he, hdefect⟩ := ih h
        exact ⟨e, List.mem_cons_of_mem _ he, hdefect⟩
      · exact absurd h pure_ne_error

theorem exists_rest_of_unknown {g : Grammar} {path : FieldPath} {entries : List Entry} {e : Entry}
    (hmapping : g.IsMapping) (hkey : g.field? e.1 = none) (hentry : e ∈ entries) :
    ∃ rest, (Defect.mk (path ++ [.key e.1]) .unrecognized).path = path ++ rest ∧
      g.HasFault (.map entries) rest .unrecognized :=
  ⟨_, rfl, .unrecognized .here hmapping hkey hentry⟩

/-! ### Conditions -/

theorem field?_condition_eq_none {key : String} (h : conditionForms.lookup key = none) :
    condition.field? key = none := by
  have hkey : key ∉ ["exact", "prefix", "regex"] := fun hmem => by
    have hsome := conditionForms_isSome_iff.mpr hmem
    rw [h] at hsome
    cases hsome
  rw [condition, field?, if_neg hkey]

@[simp] theorem readStringMatch_blames : Blames readStringMatch condition := by
  refine blames_mapping trivial fun path entries defect h => ?_
  rcases bind_eq_error_iff.mp h with h | ⟨found, hfound, h⟩
  · obtain ⟨e, he, hknown, rfl⟩ := classify_eq_error h
    exact exists_rest_of_unknown trivial (field?_condition_eq_none hknown) he
  · have hrel := classify_eq_ok hfound
    split at h
    · rename_i form fpath value
      -- The one entry that counts has a known key, and its value is no text.
      obtain ⟨⟨key, v⟩, rest, ⟨hknown, heq⟩, -, hpresent⟩ := List.forall₂_cons_right_iff.mp hrel
      obtain ⟨rfl, rfl⟩ := Prod.mk.injEq .. ▸ heq
      have hentry : (key, value) ∈ present entries := by rw [hpresent]; exact List.mem_cons_self
      obtain ⟨hentry, hne⟩ := mem_present_iff.mp hentry
      have hkey : key ∈ ["exact", "prefix", "regex"] :=
        conditionForms_isSome_iff.mp (Option.isSome_of_eq_some hknown)
      rcases bind_eq_error_iff.mp h with h | ⟨text, -, h⟩
      · exact exists_rest_of_entry h readText_blames (by rw [condition, field?, if_pos hkey]) hentry
          fun hv => absurd hv hne
      · exact absurd h pure_ne_error
    · rename_i hnot
      obtain rfl := Except.error.inj h
      refine exists_rest_of_unfit (.choice fun hone => ?_)
      obtain ⟨⟨form, fpath, value⟩, rfl⟩ := List.length_eq_one_iff.mp (hrel.length_eq.symm.trans hone)
      exact hnot form fpath value rfl

/-! ### Records -/

/-- Reading a field into a record points at faults. -/
def Field.Blames {σ : Type} (field : Field σ) (g : Grammar) : Prop :=
  ∀ s, Extraction.Blames (fun path v => field.read path v s) g

@[simp] theorem Field.of_blames {σ α : Type} {key : String} {read : Reader α} {put : α → σ → σ} {g : Grammar}
    (h : Extraction.Blames read g) : (Field.of key read put).Blames g :=
  fun s => h.map fun a => put a s

/-- The fields of a record are those of a grammar, in order, and reading them points at faults. -/
def FieldsBlame {σ : Type} (fields : List (Field σ)) (gs : List (String × Grammar)) : Prop :=
  List.Forall₂ (fun field g => field.key = g.1 ∧ field.Blames g.2) fields gs

section
variable {σ : Type} {fields : List (Field σ)} {gs : List (String × Grammar)} {path : FieldPath}

/-- The field that cannot be read is that of an entry that counts. -/
theorem readEach_eq_error {entries : List Entry} {known : String → Option (Field σ)}
    {found : List (Field σ × FieldPath × Value)} {s : σ} {defect : Defect}
    (hfound : List.Forall₂ (fun e f => known e.1 = some f.1 ∧ f.2 = (path.field e.1, e.2)) entries found)
    (h : readEach found s = .error defect) :
    ∃ e ∈ entries, ∃ field s', known e.1 = some field ∧ field.read (path.field e.1) e.2 s' = .error defect := by
  induction hfound generalizing s with
  | nil => cases h
  | @cons e f entries found hf _ ih =>
    obtain ⟨field, fpath, value⟩ := f
    obtain ⟨hknown, heq⟩ := hf
    obtain ⟨rfl, rfl⟩ := Prod.mk.injEq .. ▸ heq
    rcases bind_eq_error_iff.mp h with h | ⟨s', -, h⟩
    · exact ⟨e, List.mem_cons_self, field, s, hknown, h⟩
    · obtain ⟨e', he', hread⟩ := ih h
      exact ⟨e', List.mem_cons_of_mem _ he', hread⟩

theorem readFields_blames (hfields : FieldsBlame fields gs) {needed : List (List String)} {entries : List Entry}
    {s : σ} {defect : Defect} (h : readFields fields path entries s = .error defect) :
    ∃ rest, defect.path = path ++ rest ∧ (Grammar.record gs needed).HasFault (.map entries) rest defect.fault := by
  rcases bind_eq_error_iff.mp h with h | ⟨found, hfound, h⟩
  · obtain ⟨e, he, hknown, rfl⟩ := classify_eq_error h
    have hrel := find?_rel_lookup hfields e.1
    rw [hknown] at hrel
    have hkey : (Grammar.record gs needed).field? e.1 = none := by
      rw [field?]
      generalize gs.lookup e.1 = g at hrel
      cases hrel with
      | none => rfl
    exact exists_rest_of_unknown trivial hkey he
  · obtain ⟨⟨key, v⟩, he, field, s', hknown, hread⟩ := readEach_eq_error (classify_eq_ok hfound) h
    obtain ⟨hentry, hne⟩ := mem_present_iff.mp he
    have hrel := find?_rel_lookup hfields key
    rw [hknown] at hrel
    obtain ⟨g, hg, hblames⟩ := option_rel_some_left_iff.mp hrel
    exact exists_rest_of_entry hread (hblames s') hg hentry fun hv => absurd hv hne

end

/-! ### What is needed -/

theorem required_eq_error {α : Type} {path : FieldPath} {value : Option α} {defect : Defect}
    (h : required path value = .error defect) : value = none ∧ defect = ⟨path, .missing⟩ := by
  cases value with
  | none => exact ⟨rfl, (Except.error.inj h).symm⟩
  | some a => cases h

section
variable {σ α : Type} {fields : List (Field σ)} {gs : List (String × Grammar)} {init : σ}

/-- A record is read by its fields, and what is made of it fails only for something needed that is missing. -/
theorem blames_record {needed : List (List String)} {finish : FieldPath → σ → Result α}
    (hfields : FieldsBlame fields gs)
    (hfinish : ∀ path entries s defect, readFields fields path entries init = .ok s →
      finish path s = .error defect →
        ∃ keys ∈ needed, ¬ Provides entries keys ∧ defect = ⟨path ++ keys.map .key, .missing⟩) :
    Blames (fun path v => do finish path (← readRecord fields init path v)) (.record gs needed) := by
  simp only [readRecord, bind_assoc]
  refine blames_mapping trivial fun path entries defect h => ?_
  rcases bind_eq_error_iff.mp h with h | ⟨s, hs, h⟩
  · exact readFields_blames hfields h
  · obtain ⟨keys, hkeys, hprovides, rfl⟩ := hfinish path entries s defect hs h
    exact ⟨_, rfl, .missing .here hkeys hprovides⟩

theorem readRecord_blames (hfields : FieldsBlame fields gs) : Blames (readRecord fields init) (.record gs []) := by
  have h := @blames_record σ σ fields gs init [] (fun _ s => pure s) hfields
    fun _ _ _ _ _ h => absurd h pure_ne_error
  simpa only [bind_pure] using h

theorem missing_of_required {β : Type} {part : σ → Option β} {key : String} {keys : List String} {path : FieldPath}
    {entries : List Entry} {s : σ} {defect : Defect} (hinit : part init = none)
    (hfills : ∀ field ∈ fields, field.Fills part key keys) (hs : readFields fields path entries init = .ok s)
    (h : required (path ++ (key :: keys).map .key) (part s) = .error defect) :
    ¬ Provides entries (key :: keys) ∧ defect = ⟨path ++ (key :: keys).map .key, .missing⟩ := by
  obtain ⟨hnone, rfl⟩ := required_eq_error h
  rw [← readFields_provides hs hinit hfills, hnone]
  exact ⟨Bool.false_ne_true, rfl⟩

/-- A record of which one part is needed. -/
theorem blames_record_one {β : Type} {part : σ → Option β} {key : String} {keys : List String}
    {place : FieldPath → FieldPath} {make : σ → β → α} (hfields : FieldsBlame fields gs) (hinit : part init = none)
    (hfills : ∀ field ∈ fields, field.Fills part key keys)
    (hplace : ∀ path, place path = path ++ (key :: keys).map .key) :
    Blames (fun path v => do
      let s ← readRecord fields init path v
      return make s (← required (place path) (part s))) (.record gs [key :: keys]) := by
  refine blames_record hfields fun path entries s defect hs h => ?_
  rcases bind_eq_error_iff.mp h with h | ⟨b, -, h⟩
  · exact ⟨_, List.mem_singleton_self _, missing_of_required hinit hfills hs (hplace path ▸ h)⟩
  · exact absurd h pure_ne_error

/-- A record of which two parts are needed. -/
theorem blames_record_two {β γ : Type} {part : σ → Option β} {part' : σ → Option γ} {key key' : String}
    {make : σ → β → γ → α} (hfields : FieldsBlame fields gs) (hinit : part init = none) (hinit' : part' init = none)
    (hfills : ∀ field ∈ fields, field.Fills part key []) (hfills' : ∀ field ∈ fields, field.Fills part' key' []) :
    Blames (fun path v => do
      let s ← readRecord fields init path v
      let b ← required (path.field key) (part s)
      let c ← required (path.field key') (part' s)
      return make s b c) (.record gs [[key], [key']]) := by
  refine blames_record hfields fun path entries s defect hs h => ?_
  rcases bind_eq_error_iff.mp h with h | ⟨b, -, h⟩
  · exact ⟨_, List.mem_cons_self, missing_of_required hinit hfills hs h⟩
  · rcases bind_eq_error_iff.mp h with h | ⟨c, -, h⟩
    · exact ⟨_, List.mem_cons_of_mem _ List.mem_cons_self, missing_of_required hinit' hfills' hs h⟩
    · exact absurd h pure_ne_error

end

end Manifests.Extraction
