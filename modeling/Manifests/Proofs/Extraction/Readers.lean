import Manifests.Extraction.VirtualService
import Manifests.Proofs.Extraction.Fields
import Manifests.Proofs.Extraction.Grammar

/-! # Readers of a grammar

A reader follows a grammar if it reads exactly the values of the grammar, and the same from a value out of which null
values are left. Readers of lists, tables and records follow a grammar if the readers of their parts do. -/

namespace Manifests.Extraction

open Grammar

/-- A reader reads the values of a grammar and no others, and does not tell null values from absent ones. -/
structure Follows {α : Type} (read : Reader α) (g : Grammar) : Prop where
  accepts : ∀ path v, (∃ a, read path v = .ok a) ↔ g.Conforms v
  skipsNull : ∀ path v v', g.Omits TakesNull v v' → read path v' = read path v

theorem Follows.map {α β : Type} {read : Reader α} {g : Grammar} (h : Follows read g) (f : α → β) :
    Follows (fun path v => do return f (← read path v)) g where
  accepts path v := by
    simp only [isOk_bind, ← h.accepts path v]
    exact exists_congr fun a => and_iff_left ⟨_, rfl⟩
  skipsNull path v v' hv := by simp only [h.skipsNull path v v' hv]

/-! ### Scalars -/

@[simp] theorem readText_follows : Follows readText .text where
  accepts path v := by simp only [readText_eq_ok_iff, conforms_text_iff, Option.isSome_iff_exists]
  skipsNull path v v' h := absurd h (not_omits_of_isScalar trivial)

@[simp] theorem readInt_follows : Follows readInt .integer where
  accepts path v := by
    constructor
    · rintro ⟨n, h⟩
      cases v with
      | int i => exact .integer i
      | text s =>
        rw [readInt] at h
        split at h
        · rename_i hread
          obtain ⟨inner, hpads, hinner⟩ := Number.readInt64?_trim_isSome_iff.mp (Option.isSome_of_eq_some hread)
          exact .integerText hpads hinner
        · cases h
      | null | bool | float | map | list => cases h
    · intro h
      cases h with
      | integer i => exact ⟨i, rfl⟩
      | @integerText s inner hpads hinner =>
        obtain ⟨n, hn⟩ := Option.isSome_iff_exists.mp (Number.readInt64?_trim_isSome_iff.mpr ⟨inner, hpads, hinner⟩)
        exact ⟨n, by rw [readInt, hn]⟩
  skipsNull path v v' h := absurd h (not_omits_of_isScalar trivial)

@[simp] theorem readOptionalInt_follows : Follows readOptionalInt .integer := readInt_follows.map _

@[simp] theorem readBool_follows : Follows readBool .truth where
  accepts path v := by
    constructor
    · rintro ⟨b, h⟩
      cases v with
      | bool b => exact .truth b
      | null | int | float | text | map | list => cases h
    · intro h
      cases h with
      | truth b => exact ⟨b, rfl⟩
  skipsNull path v v' h := absurd h (not_omits_of_isScalar trivial)

/-- A word is looked up among the names of something. -/
theorem follows_word {α : Type} {read : Reader α} {all : List α} {name : α → String}
    (h : ∀ path v a, read path v = .ok a ↔ ∃ text, v.scalarText? = some text ∧ all.find? (name · = text) = some a) :
    Follows read (.word (all.map name)) where
  accepts path v := by
    have hmem (text : String) : (∃ a, all.find? (name · = text) = some a) ↔ text ∈ all.map name := by
      simp [← Option.isSome_iff_exists]
    constructor
    · rintro ⟨a, ha⟩
      obtain ⟨text, htext, hfind⟩ := (h path v a).mp ha
      exact .word htext ((hmem text).mp ⟨a, hfind⟩)
    · intro hv
      cases hv with
      | @word _ _ text htext hwords =>
        obtain ⟨a, hfind⟩ := (hmem text).mpr hwords
        exact ⟨a, (h path v a).mpr ⟨text, htext, hfind⟩⟩
  skipsNull path v v' h := absurd h (not_omits_of_isScalar trivial)

/-! ### Lists -/

section
variable {α : Type} {read : Reader α} {g : Grammar}

theorem readItemsFrom_isOk_iff (h : Follows read g) (path : FieldPath) (i : Nat) (items : List Value) :
    (∃ as, readItemsFrom read path i items = .ok as) ↔ ∀ v ∈ items, g.Conforms v := by
  induction items generalizing i with
  | nil => exact ⟨(fun _ _ hv => by cases hv), fun _ => ⟨[], rfl⟩⟩
  | cons item items ih =>
    simp only [readItemsFrom, isOk_bind, List.forall_mem_cons, ← h.accepts (path.item i) item, ← ih (i + 1)]
    constructor
    · rintro ⟨a, ha, as, has, -⟩
      exact ⟨⟨a, ha⟩, as, has⟩
    · rintro ⟨⟨a, ha⟩, as, has⟩
      exact ⟨a, ha, as, has, _, rfl⟩

theorem readItemsFrom_congr {v v' : Value} (h : ∀ path, read path v' = read path v) (path : FieldPath) (i : Nat)
    (before after : List Value) :
    readItemsFrom read path i (before ++ v' :: after) = readItemsFrom read path i (before ++ v :: after) := by
  induction before generalizing i with
  | nil => simp only [List.nil_append, readItemsFrom, h]
  | cons item before ih => simp only [List.cons_append, readItemsFrom, ih]

@[simp] theorem readItems_follows (h : Follows read g) : Follows (readItems read) (.list g) where
  accepts path v := by
    constructor
    · rintro ⟨as, has⟩
      cases v with
      | list items => exact .list ((readItemsFrom_isOk_iff h path 0 items).mp ⟨as, has⟩)
      | null | bool | int | float | text | map => cases has
    · intro hv
      cases hv with
      | @list _ items hitems => exact (readItemsFrom_isOk_iff h path 0 items).mpr hitems
  skipsNull path v v' hv := by
    cases hv with
    | item hv => exact readItemsFrom_congr (fun path => h.skipsNull path _ _ hv) path 0 _ _
    | entry _ hkey => cases hkey
    | inside hkey _ => cases hkey

end

@[simp] theorem readTexts_follows : Follows readTexts (.list .text) := readItems_follows readText_follows

@[simp] theorem readTextSet_follows : Follows readTextSet (.list .text) := readTexts_follows.map _

/-! ### Tables -/

theorem readTextEntries_isOk_iff (path : FieldPath) (entries : List Entry) (m : TextMap String) :
    (∃ m', readTextEntries path entries m = .ok m') ↔ ∀ e ∈ entries, e.2 ≠ .null → Conforms .text e.2 := by
  induction entries generalizing m with
  | nil => exact ⟨(fun _ _ he => by cases he), fun _ => ⟨m, rfl⟩⟩
  | cons entry entries ih =>
    obtain ⟨key, value⟩ := entry
    rw [List.forall_mem_cons, readTextEntries]
    split
    · rename_i hnull
      rw [ih]
      exact ⟨fun h => ⟨fun hne => absurd (Value.isNull_iff.mp hnull) hne, h⟩, fun h => h.2⟩
    · rename_i hnull
      have hne : value ≠ .null := fun h => hnull (Value.isNull_iff.mpr h)
      simp only [isOk_bind, ih, hne, ne_eq, not_false_eq_true, forall_const,
        ← readText_follows.accepts (path.field key) value, exists_and_right]

theorem readTextEntries_null (path : FieldPath) (key : String) (before after : List Entry) (m : TextMap String) :
    readTextEntries path (before ++ (key, .null) :: after) m = readTextEntries path (before ++ after) m := by
  induction before generalizing m with
  | nil => rfl
  | cons entry before ih => simp only [List.cons_append, readTextEntries, ih]

@[simp] theorem readTextMap_follows : Follows readTextMap texts where
  accepts path v := by
    constructor
    · rintro ⟨m, h⟩
      cases v with
      | map entries => exact .table (fun _ _ _ => rfl) ((readTextEntries_isOk_iff path entries {}).mp ⟨m, h⟩)
      | null | bool | int | float | text | list => cases h
    · intro hv
      cases hv with
      | @table _ _ entries _ hvalues => exact (readTextEntries_isOk_iff path entries {}).mpr hvalues
  skipsNull path v v' hv := by
    cases hv with
    | entry _ _ => exact (readTextEntries_null path _ _ _ {}).symm
    | inside hinner hv =>
      obtain rfl := Option.some.inj hinner
      exact absurd hv (not_omits_of_isScalar trivial)

/-! ### Entries with known keys -/

theorem readMapping_eq_map {path : FieldPath} {v : Value} {entries : List Entry}
    (h : readMapping path v = .ok entries) : v = .map entries := by
  cases v with
  | map => rw [Except.ok.inj h]
  | null | bool | int | float | text | list => cases h

@[simp] theorem readMapping_bind {α : Type} {path : FieldPath} {entries : List Entry} {f : List Entry → Result α} :
    readMapping path (.map entries) >>= f = f entries := rfl

theorem mem_present_iff {e : Entry} {entries : List Entry} : e ∈ present entries ↔ e ∈ entries ∧ e.2 ≠ .null := by
  simp [present, ← Value.isNull_iff]

section
variable {φ : Type} {known : String → Option φ} {path : FieldPath}

theorem classify_isOk_iff {entries : List Entry} :
    (∃ found, classify known path entries = .ok found) ↔ ∀ e ∈ entries, (known e.1).isSome := by
  induction entries with
  | nil => exact ⟨(fun _ _ he => by cases he), fun _ => ⟨[], rfl⟩⟩
  | cons entry entries ih =>
    rw [List.forall_mem_cons, classify]
    cases hknown : known entry.1 with
    | none => exact ⟨(fun ⟨_, h⟩ => by cases h), fun h => by cases h.1⟩
    | some field =>
      simp only [isOk_bind, ← ih, Option.isSome_some, true_and]
      exact exists_congr fun found => and_iff_left ⟨_, rfl⟩

theorem classify_append (before after : List Entry) :
    classify known path (before ++ after) = do
      let found ← classify known path before
      let more ← classify known path after
      return found ++ more := by
  induction before with
  | nil =>
    rw [List.nil_append]
    cases classify known path after <;> rfl
  | cons entry before ih =>
    rw [List.cons_append, classify, classify, ih]
    cases known entry.1 with
    | none => rfl
    | some field =>
      cases classify known path before with
      | error defect => rfl
      | ok found =>
        cases classify known path after with
        | error defect => rfl
        | ok more => cases entry.2.isNull <;> rfl

/-- An entry with a known key and without a value is passed over. -/
theorem classify_null {key : String} (h : (known key).isSome) (before after : List Entry) :
    classify known path (before ++ (key, .null) :: after) = classify known path (before ++ after) := by
  obtain ⟨field, hfield⟩ := Option.isSome_iff_exists.mp h
  have hskip : classify known path ((key, .null) :: after) = classify known path after := by
    rw [classify, hfield]
    cases classify known path after <;> rfl
  rw [classify_append, classify_append, hskip]

end

/-! ### Conditions -/

theorem conditionForms_isSome_iff {key : String} :
    (conditionForms.lookup key).isSome ↔ key ∈ ["exact", "prefix", "regex"] := by
  simp [List.lookup_isSome_iff, conditionForms]

theorem conforms_of_readStringMatch {path : FieldPath} {v : Value} {m : StringMatch}
    (h : readStringMatch path v = .ok m) : condition.Conforms v := by
  obtain ⟨entries, hentries, h⟩ := bind_eq_ok_iff.mp h
  obtain ⟨found, hfound, h⟩ := bind_eq_ok_iff.mp h
  have hkeys : ∀ e ∈ entries, e.1 ∈ ["exact", "prefix", "regex"] := fun e he =>
    conditionForms_isSome_iff.mp (classify_isOk_iff.mp ⟨found, hfound⟩ e he)
  have hrel := classify_eq_ok hfound
  rw [readMapping_eq_map hentries]
  split at h
  · rename_i form fpath value
    obtain ⟨t, ht, -⟩ := bind_eq_ok_iff.mp h
    obtain ⟨chosen, rest, ⟨-, hchosen⟩, hrest, hpresent⟩ := List.forall₂_cons_right_iff.mp hrel
    obtain rfl := List.forall₂_nil_right_iff.mp hrest
    obtain ⟨-, rfl⟩ := Prod.mk.injEq .. ▸ hchosen
    exact .choice hkeys hpresent ((readText_follows.accepts _ _).mp ⟨t, ht⟩)
  · cases h

theorem readStringMatch_of_conforms (path : FieldPath) {v : Value} (h : condition.Conforms v) :
    ∃ m, readStringMatch path v = .ok m := by
  cases h with
  | @choice _ entries chosen hkeys hpresent htext =>
    obtain ⟨found, hfound⟩ : ∃ found, classify (fun key => conditionForms.lookup key) path entries = .ok found :=
      classify_isOk_iff.mpr fun e he => conditionForms_isSome_iff.mpr (hkeys e he)
    have hrel := classify_eq_ok hfound
    rw [present, hpresent] at hrel
    -- The one entry that counts is the one form that is found.
    obtain ⟨⟨form, fpath, value⟩, rest, ⟨-, hchosen⟩, hrest, rfl⟩ := List.forall₂_cons_left_iff.mp hrel
    obtain rfl := List.forall₂_nil_left_iff.mp hrest
    obtain ⟨rfl, rfl⟩ := Prod.mk.injEq .. ▸ hchosen
    obtain ⟨t, ht⟩ := (readText_follows.accepts (path.field chosen.1) chosen.2).mpr htext
    refine ⟨form t, bind_eq_ok_iff.mpr ⟨entries, rfl, bind_eq_ok_iff.mpr ⟨_, hfound, ?_⟩⟩⟩
    exact bind_eq_ok_iff.mpr ⟨t, ht, rfl⟩

@[simp] theorem readStringMatch_follows : Follows readStringMatch condition where
  accepts path v := ⟨fun ⟨_, h⟩ => conforms_of_readStringMatch h, readStringMatch_of_conforms path⟩
  skipsNull path v v' hv := by
    cases hv with
    | @entry _ key before after _ hkey =>
      obtain ⟨g, hg⟩ := Option.isSome_iff_exists.mp hkey
      have hknown := conditionForms_isSome_iff.mpr (field?_choice_eq_some hg).1
      have hsame := @classify_null _ (fun key => conditionForms.lookup key) path _ hknown before after
      simp only [readStringMatch, readMapping_bind, hsame]
    | @inside _ inner key v v' before after hinner hv =>
      obtain ⟨-, rfl⟩ := field?_choice_eq_some hinner
      exact absurd hv (not_omits_of_isScalar trivial)

/-! ### Records -/

/-- Reading a field into a record follows a grammar. -/
def Field.Follows {σ : Type} (field : Field σ) (g : Grammar) : Prop :=
  ∀ s, Extraction.Follows (fun path v => field.read path v s) g

@[simp] theorem Field.of_follows {σ α : Type} {key : String} {read : Reader α} {put : α → σ → σ} {g : Grammar}
    (h : Extraction.Follows read g) : (Field.of key read put).Follows g :=
  fun s => h.map fun a => put a s

/-- The fields of a record are those of a grammar, in order. -/
def FieldsFollow {σ : Type} (fields : List (Field σ)) (gs : List (String × Grammar)) : Prop :=
  List.Forall₂ (fun field g => field.key = g.1 ∧ field.Follows g.2) fields gs

section
variable {σ : Type} {fields : List (Field σ)} {gs : List (String × Grammar)} {path : FieldPath}

/-- The field of a key is related to what the grammar has under the key. -/
theorem find?_rel_lookup {R : Field σ → Grammar → Prop}
    (h : List.Forall₂ (fun field g => field.key = g.1 ∧ R field g.2) fields gs) (key : String) :
    Option.Rel R (fields.find? (·.key = key)) (gs.lookup key) := by
  induction h with
  | nil => exact .none
  | @cons field g fields gs hfield _ ih =>
    obtain ⟨hkey, hrel⟩ := hfield
    by_cases hthis : field.key = key
    · rw [List.find?_cons_of_pos (by simpa using hthis), List.lookup_cons, ← hkey, hthis, beq_self_eq_true]
      exact .some hrel
    · rw [List.find?_cons_of_neg (by simpa using hthis), List.lookup_cons, ← hkey, beq_false_of_ne (Ne.symm hthis)]
      exact ih

theorem FieldsFollow.exists_field (h : FieldsFollow fields gs) {key : String} {g : Grammar}
    (hg : gs.lookup key = some g) : ∃ field, fields.find? (·.key = key) = some field ∧ field.Follows g := by
  have hrel := find?_rel_lookup h key
  rw [hg] at hrel
  generalize fields.find? (·.key = key) = field at hrel
  cases hrel with
  | some hfollows => exact ⟨_, rfl, hfollows⟩

theorem FieldsFollow.exists_grammar (h : FieldsFollow fields gs) {key : String} {field : Field σ}
    (hfield : fields.find? (·.key = key) = some field) : ∃ g, gs.lookup key = some g ∧ field.Follows g := by
  have hrel := find?_rel_lookup h key
  rw [hfield] at hrel
  generalize gs.lookup key = g at hrel
  cases hrel with
  | some hfollows => exact ⟨_, rfl, hfollows⟩

theorem FieldsFollow.find?_isSome_iff (h : FieldsFollow fields gs) (key : String) :
    (fields.find? (·.key = key)).isSome ↔ (gs.lookup key).isSome := by
  simp only [Option.isSome_iff_exists]
  constructor
  · rintro ⟨field, hfield⟩
    obtain ⟨g, hg, -⟩ := h.exists_grammar hfield
    exact ⟨g, hg⟩
  · rintro ⟨g, hg⟩
    obtain ⟨field, hfield, -⟩ := h.exists_field hg
    exact ⟨field, hfield⟩

/-- The entries that count are found with the fields that their grammar has. -/
theorem FieldsFollow.classify (h : FieldsFollow fields gs) {entries : List Entry}
    {found : List (Field σ × FieldPath × Value)}
    (hfound : Extraction.classify (fun key => fields.find? (·.key = key)) path entries = .ok found) :
    List.Forall₂ (fun e f => ∃ g, gs.lookup e.1 = some g ∧ f.1.Follows g ∧ f.2.2 = e.2) (present entries) found := by
  refine (classify_eq_ok hfound).imp fun e f ⟨hknown, heq⟩ => ?_
  obtain ⟨g, hg, hfollows⟩ := h.exists_grammar hknown
  exact ⟨g, hg, hfollows, by rw [heq]⟩

theorem readEach_isOk_iff {entries : List Entry} {found : List (Field σ × FieldPath × Value)}
    (hfound : List.Forall₂ (fun e f => ∃ g, gs.lookup e.1 = some g ∧ f.1.Follows g ∧ f.2.2 = e.2) entries found)
    (s : σ) :
    (∃ s', readEach found s = .ok s') ↔ ∀ e ∈ entries, ∀ g, gs.lookup e.1 = some g → g.Conforms e.2 := by
  -- Whether a value is read does not depend on the record so far, so it is general.
  induction hfound generalizing s with
  | nil => exact ⟨(fun _ _ he => by cases he), fun _ => ⟨s, rfl⟩⟩
  | @cons e f entries found hf _ ih =>
    obtain ⟨g, hg, hfollows, hvalue⟩ := hf
    obtain ⟨field, fpath, value⟩ := f
    obtain rfl : value = e.2 := hvalue
    have hhere : (∃ s₁, field.read fpath e.2 s = .ok s₁) ↔ ∀ g, gs.lookup e.1 = some g → g.Conforms e.2 := by
      rw [(hfollows s).accepts fpath e.2, hg]
      exact ⟨fun h g' hg' => Option.some.inj hg' ▸ h, fun h => h g rfl⟩
    simp only [readEach, isOk_bind, ih, List.forall_mem_cons, exists_and_right, hhere]

theorem readFields_isOk_iff (h : FieldsFollow fields gs) (entries : List Entry) (s : σ) :
    (∃ s', readFields fields path entries s = .ok s') ↔
      (∀ e ∈ entries, e.1 ∈ gs.map (·.1)) ∧
        ∀ e ∈ entries, e.2 ≠ .null → ∀ g, gs.lookup e.1 = some g → g.Conforms e.2 := by
  have hkeys : (∃ found, classify (fun key => fields.find? (·.key = key)) path entries = .ok found) ↔
      ∀ e ∈ entries, e.1 ∈ gs.map (·.1) := by
    rw [classify_isOk_iff]
    exact forall₂_congr fun e _ => (h.find?_isSome_iff e.1).trans lookup_isSome_iff_mem
  have hvalues : (∀ e ∈ present entries, ∀ g, gs.lookup e.1 = some g → g.Conforms e.2) ↔
      ∀ e ∈ entries, e.2 ≠ .null → ∀ g, gs.lookup e.1 = some g → g.Conforms e.2 := by
    simp only [mem_present_iff, and_imp]
  rw [readFields, isOk_bind, ← hkeys, ← hvalues]
  constructor
  · rintro ⟨found, hfound, hread⟩
    exact ⟨⟨found, hfound⟩, (readEach_isOk_iff (h.classify hfound) s).mp hread⟩
  · rintro ⟨⟨found, hfound⟩, hread⟩
    exact ⟨found, hfound, (readEach_isOk_iff (h.classify hfound) s).mpr hread⟩

theorem readEach_append (before after : List (Field σ × FieldPath × Value)) (s : σ) :
    readEach (before ++ after) s = readEach before s >>= readEach after := by
  induction before generalizing s with
  | nil => rfl
  | cons f before ih => simp only [List.cons_append, readEach, ih, bind_assoc]

/-- A field that reads the same from two values can be given either. -/
theorem readFields_congr {field : Field σ} {key : String} {v v' : Value} {before after : List Entry}
    (hfield : fields.find? (·.key = key) = some field) (hv : v ≠ .null) (hv' : v' ≠ .null)
    (hread : ∀ path s, field.read path v' s = field.read path v s) (s : σ) :
    readFields fields path (before ++ (key, v') :: after) s =
      readFields fields path (before ++ (key, v) :: after) s := by
  -- Neither value is skipped, so both are found at the same place.
  have hfound {v : Value} (hv : v ≠ .null) :
      classify (fun key => fields.find? (·.key = key)) path ((key, v) :: after) = do
        let found ← classify (fun key => fields.find? (·.key = key)) path after
        return (field, path.field key, v) :: found := by
    have hnull : v.isNull = false := Bool.eq_false_iff.mpr (mt Value.isNull_iff.mp hv)
    rw [classify, hfield]
    simp only [hnull, Bool.false_eq_true, if_false]
  simp only [readFields, classify_append, hfound hv, hfound hv', bind_assoc, pure_bind, readEach_append, readEach,
    hread]

/-- Leaving a null value out of a record gives the same record. -/
theorem readFields_omits (h : FieldsFollow fields gs) {needed : List (List String)} {entries entries' : List Entry}
    (homits : Omits TakesNull (.record gs needed) (.map entries) (.map entries')) (s : σ) :
    readFields fields path entries' s = readFields fields path entries s := by
  cases homits with
  | @entry _ key before after _ hkey =>
    rw [readFields, readFields, classify_null ((h.find?_isSome_iff key).mpr hkey)]
  | @inside _ inner key v v' before after hinner hv =>
    obtain ⟨field, hfield, hfollows⟩ := h.exists_field hinner
    exact readFields_congr hfield hv.ne_null.1 hv.ne_null.2 (fun path s => (hfollows s).skipsNull path v v' hv) s

end

/-! ### What is needed -/

theorem provides_present {entries : List Entry} {key : String} {keys : List String} :
    Provides (present entries) (key :: keys) ↔ Provides entries (key :: keys) := by
  simp [Provides, mem_present_iff, and_assoc]

theorem provides_concat {entries : List Entry} {e : Entry} {key : String} {keys : List String} (h : e.2 ≠ .null) :
    Provides (entries ++ [e]) (key :: keys) ↔
      Provides entries (key :: keys) ∨ e.1 = key ∧ Provides e.2.entries keys := by
  simp only [Provides, List.mem_append, List.mem_singleton, or_and_right, exists_or]
  refine or_congr_right ⟨?_, ?_⟩
  · rintro ⟨v, rfl, -, hkeys⟩
    exact ⟨rfl, hkeys⟩
  · rintro ⟨rfl, hkeys⟩
    exact ⟨e.2, rfl, h, hkeys⟩

/-- Reading the field gives a part of the record if the field is that of the key and its value has one along the
    keys. -/
def Field.Fills {σ α : Type} (part : σ → Option α) (key : String) (keys : List String) (field : Field σ) : Prop :=
  ∀ path value s s', field.read path value s = .ok s' →
    ((part s').isSome ↔ (part s).isSome ∨ field.key = key ∧ Provides value.entries keys)

@[simp] theorem Field.fills_of {σ α β : Type} {part : σ → Option α} {key own : String} {read : Reader β}
    {put : β → σ → σ} (h : ∀ b s, (part (put b s)).isSome ↔ (part s).isSome ∨ own = key) :
    (Field.of own read put).Fills part key [] := by
  intro path value s s' hread
  obtain ⟨b, -, rfl⟩ := of_read_eq_ok hread
  simpa [Provides] using h b s

section
variable {σ α : Type} {fields : List (Field σ)} {path : FieldPath} {entries : List Entry} {s s' : σ}

/-- A part that each field fills in is there in the end if it was before, or if there is a value along the keys. -/
theorem readFields_fills (part : σ → Option α) (key : String) (keys : List String)
    (h : readFields fields path entries s = .ok s') (hfields : ∀ field ∈ fields, field.Fills part key keys) :
    (part s').isSome ↔ (part s).isSome ∨ Provides entries (key :: keys) := by
  rw [← provides_present]
  refine readFields_induction
    (P := fun es s₁ => (part s₁).isSome ↔ (part s).isSome ∨ Provides es (key :: keys)) h ?_ ?_
  · simp [Provides]
  · intro field hfield path value es s₁ s₂ hnull hread hes
    have hne : value ≠ .null := fun h => by rw [Value.isNull_iff.mpr h] at hnull; cases hnull
    rw [hfields field hfield path value s₁ s₂ hread, hes, provides_concat hne, or_assoc]

theorem readFields_provides {part : σ → Option α} {key : String} {keys : List String}
    (h : readFields fields path entries s = .ok s') (hstart : part s = none)
    (hfields : ∀ field ∈ fields, field.Fills part key keys) :
    (part s').isSome ↔ Provides entries (key :: keys) := by
  rw [readFields_fills part key keys h hfields, hstart, Option.isSome_none, Bool.false_eq_true, false_or]

end

@[simp] theorem required_isOk_iff {α : Type} {path : FieldPath} {value : Option α} :
    (∃ a, required path value = .ok a) ↔ value.isSome := by
  cases value with
  | none => exact ⟨(fun ⟨_, h⟩ => by cases h), fun h => by cases h⟩
  | some a => exact ⟨fun _ => rfl, fun _ => ⟨a, rfl⟩⟩

/-! ### Readers of records -/

section
variable {σ α : Type} {fields : List (Field σ)} {gs : List (String × Grammar)} {init : σ}

/-- A record is read by its fields, and then something is made of it if what is needed is there. -/
theorem follows_record {needed : List (List String)} {finish : FieldPath → σ → Result α}
    (hfields : FieldsFollow fields gs)
    (hfinish : ∀ path entries s, readFields fields path entries init = .ok s →
      ((∃ a, finish path s = .ok a) ↔ ∀ keys ∈ needed, Provides entries keys)) :
    Follows (fun path v => do finish path (← readRecord fields init path v)) (.record gs needed) where
  accepts path v := by
    constructor
    · rintro ⟨a, h⟩
      obtain ⟨s, hs, ha⟩ := bind_eq_ok_iff.mp h
      obtain ⟨entries, hentries, hs⟩ := bind_eq_ok_iff.mp hs
      rw [readMapping_eq_map hentries]
      obtain ⟨hkeys, hvalues⟩ := (readFields_isOk_iff hfields entries init).mp ⟨s, hs⟩
      exact .record hkeys hvalues ((hfinish path entries s hs).mp ⟨a, ha⟩)
    · intro h
      cases h with
      | @record _ _ entries hkeys hvalues hneeded =>
        obtain ⟨s, hs⟩ : ∃ s, readFields fields path entries init = .ok s :=
          (readFields_isOk_iff hfields entries init).mpr ⟨hkeys, hvalues⟩
        obtain ⟨a, ha⟩ := (hfinish path entries s hs).mpr hneeded
        exact ⟨a, bind_eq_ok_iff.mpr ⟨s, hs, ha⟩⟩
  skipsNull path v v' hv := by
    obtain ⟨entries, entries', rfl, rfl⟩ := hv.of_record
    simp only [readRecord, readMapping_bind, readFields_omits hfields hv]

theorem readRecord_follows (hfields : FieldsFollow fields gs) : Follows (readRecord fields init) (.record gs []) := by
  have h := @follows_record σ σ fields gs init [] (fun _ s => pure s) hfields (by simp)
  simpa only [bind_pure] using h

/-- A record of which one part is needed. -/
theorem follows_record_one {β : Type} {part : σ → Option β} {key : String} {keys : List String}
    {place : FieldPath → FieldPath} {make : σ → β → α} (hfields : FieldsFollow fields gs) (hinit : part init = none)
    (hfills : ∀ field ∈ fields, field.Fills part key keys) :
    Follows (fun path v => do
      let s ← readRecord fields init path v
      return make s (← required (place path) (part s))) (.record gs [key :: keys]) := by
  refine follows_record hfields fun path entries s h => ?_
  simp only [isOk_bind, isOk_pure, and_true, required_isOk_iff, readFields_provides h hinit hfills,
    List.mem_singleton, forall_eq]

/-- A record of which two parts are needed. -/
theorem follows_record_two {β γ : Type} {part : σ → Option β} {part' : σ → Option γ} {key key' : String}
    {place place' : FieldPath → FieldPath} {make : σ → β → γ → α} (hfields : FieldsFollow fields gs)
    (hinit : part init = none) (hinit' : part' init = none) (hfills : ∀ field ∈ fields, field.Fills part key [])
    (hfills' : ∀ field ∈ fields, field.Fills part' key' []) :
    Follows (fun path v => do
      let s ← readRecord fields init path v
      let b ← required (place path) (part s)
      let c ← required (place' path) (part' s)
      return make s b c) (.record gs [[key], [key']]) := by
  refine follows_record hfields fun path entries s h => ?_
  simp only [isOk_bind, isOk_pure, and_true, exists_and_right, required_isOk_iff, readFields_provides h hinit hfills,
    readFields_provides h hinit' hfills', List.forall_mem_cons, List.mem_singleton, forall_eq]

end

end Manifests.Extraction
