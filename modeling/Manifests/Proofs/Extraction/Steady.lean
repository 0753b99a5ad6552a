import Manifests.Proofs.Extraction.Readers
import Manifests.Proofs.Shuffles
import Manifests.Proofs.TextMap
import Mathlib.Data.List.Pairwise

/-! # Readers that do not depend on the order of keys

Reading goes through the entries of a mapping in their order. If no key is repeated, what is read does not depend on
that order: each entry is read on its own, and entries with different keys go into different parts of the record, so
two steps for different keys may be exchanged (`Exchange`). A reader is `Steady` if it reads the same after entries
were put in another order. Readers of lists, tables and records are steady if the readers of their parts are. -/

namespace Manifests.Extraction

open Value

/-! ### Steady readers -/

/-- What is read is read again after entries were put in another order, if no key is repeated. -/
def Steady {α : Type} (read : Reader α) : Prop :=
  ∀ path v v' a, v.KeysDistinct → v.Shuffles v' → read path v = .ok a → read path v' = .ok a

section
variable {α β : Type} {read : Reader α}

theorem Steady.bind {next : FieldPath → α → Result β} (h : Steady read) :
    Steady (fun path v => read path v >>= next path) := by
  intro path v v' b hkeys hv hb
  obtain ⟨a, ha, hb⟩ := bind_eq_ok_iff.mp hb
  exact bind_eq_ok_iff.mpr ⟨a, h path v v' a hkeys hv ha, hb⟩

/-- A reader of scalars reads nothing that has entries. -/
theorem Follows.steady {g : Grammar} (h : Follows read g) (hscalar : ∀ v, g.Conforms v → v.scalarText?.isSome) :
    Steady read := by
  intro path v v' a _ hv ha
  have htext := hscalar v ((h.accepts path v).mp ⟨a, ha⟩)
  rw [hv.scalarText?_eq_none] at htext
  cases htext

@[simp] theorem readText_steady : Steady readText := readText_follows.steady fun _ => Grammar.conforms_text_iff.mp

@[simp] theorem readInt_steady : Steady readInt := readInt_follows.steady fun _ h => by cases h <;> rfl

@[simp] theorem readOptionalInt_steady : Steady readOptionalInt := readInt_steady.bind

@[simp] theorem readBool_steady : Steady readBool := readBool_follows.steady fun _ h => by cases h; rfl

/-! ### Lists -/

theorem readItemsFrom_shuffles {v v' : Value} (h : ∀ path a, read path v = .ok a → read path v' = .ok a)
    {path : FieldPath} {i : Nat} {before after : List Value} {as : List α}
    (has : readItemsFrom read path i (before ++ v :: after) = .ok as) :
    readItemsFrom read path i (before ++ v' :: after) = .ok as := by
  induction before generalizing i as with
  | nil =>
    obtain ⟨a, ha, hrest⟩ := bind_eq_ok_iff.mp has
    exact bind_eq_ok_iff.mpr ⟨a, h _ a ha, hrest⟩
  | cons item before ih =>
    obtain ⟨a, ha, has⟩ := bind_eq_ok_iff.mp has
    obtain ⟨as', has', hcons⟩ := bind_eq_ok_iff.mp has
    exact bind_eq_ok_iff.mpr ⟨a, ha, bind_eq_ok_iff.mpr ⟨as', ih has', hcons⟩⟩

@[simp] theorem readItems_steady (h : Steady read) : Steady (readItems read) := by
  intro path v v' as hkeys hv has
  cases hv with
  | entries | inside => cases has
  | @item v v' before after hv =>
    have hitem : v.KeysDistinct := keysDistinct_list_iff.mp hkeys v (by simp)
    exact readItemsFrom_shuffles (fun path a => h path v v' a hitem hv) has

@[simp] theorem readTexts_steady : Steady readTexts := readItems_steady readText_steady

@[simp] theorem readTextSet_steady : Steady readTextSet := readTexts_steady.bind

end

/-! ### Entry by entry -/

/-- A step for each entry may be taken in any order of the keys, and does not depend on the order inside a value. -/
structure SteadyStep {σ : Type} (step : σ → Entry → Result σ) : Prop where
  exchange : ∀ e e', e.1 ≠ e'.1 → Exchange step e e'
  inside : ∀ key v v', v.KeysDistinct → v.Shuffles v' →
    ∀ s s', step s (key, v) = .ok s' → step s (key, v') = .ok s'

section
variable {σ : Type} {step : σ → Entry → Result σ}

theorem SteadyStep.foldlM_eq_ok (hstep : SteadyStep step) {es es' : List Entry} {s s' : σ}
    (hkeys : (Value.map es).KeysDistinct) (h : (Value.map es).Shuffles (.map es')) (hrun : es.foldlM step s = .ok s') :
    es'.foldlM step s = .ok s' := by
  obtain ⟨hnodup, hvalues⟩ := keysDistinct_map_iff.mp hkeys
  cases h with
  | entries hperm =>
    have hdistinct : es.Pairwise fun e e' => e.1 ≠ e'.1 := List.pairwise_map.mp hnodup
    exact foldlM_eq_ok_of_perm hperm (hdistinct.imp fun hne => hstep.exchange _ _ hne) hrun
  | @inside key v v' before after hv =>
    exact foldlM_eq_ok_of_replace (hstep.inside key v v' (hvalues (key, v) (by simp)) hv) hrun

/-- The step, except for entries with a null value. -/
def skippingNulls (step : σ → Entry → Result σ) (s : σ) (e : Entry) : Result σ :=
  if e.2.isNull then .ok s else step s e

theorem exchange_skippingNulls {e e' : Entry} (h : Exchange step e e') : Exchange (skippingNulls step) e e' := by
  intro s s'
  simp only [skippingNulls, bind_eq_ok_iff]
  cases e.2.isNull <;> cases e'.2.isNull
  · simpa [bind_eq_ok_iff] using h s s'
  all_goals simp

theorem SteadyStep.skippingNulls (h : SteadyStep step) : SteadyStep (skippingNulls step) where
  exchange e e' hne := exchange_skippingNulls (h.exchange e e' hne)
  inside key v v' hkeys hv s s' hrun := by
    obtain ⟨hnull, hnull'⟩ := hv.isNull_eq_false
    simp only [Extraction.skippingNulls, hnull, hnull', Bool.false_eq_true, if_false] at hrun ⊢
    exact h.inside key v v' hkeys hv s s' hrun

end

/-- A mapping is read steadily if the entries are. -/
theorem readMapping_steady {α : Type} {next : FieldPath → List Entry → Result α}
    (h : ∀ path es es' a, (Value.map es).KeysDistinct → (Value.map es).Shuffles (.map es') → next path es = .ok a →
      next path es' = .ok a) :
    Steady (fun path v => readMapping path v >>= next path) := by
  intro path v v' a hkeys hv ha
  obtain ⟨es, hes, ha⟩ := bind_eq_ok_iff.mp ha
  obtain rfl := readMapping_eq_map hes
  obtain ⟨es', rfl⟩ := hv.exists_entries
  exact h path es es' a hkeys hv ha

/-! ### Tables -/

section
variable {α : Type} {read : Reader α}

/-- Puts what is read from the value of an entry under its key. -/
def readTableEntry (read : Reader α) (path : FieldPath) (m : TextMap α) (e : Entry) : Result (TextMap α) := do
  return m.insert e.1 (← read (path.field e.1) e.2)

theorem readTableEntry_steady (h : Steady read) (path : FieldPath) : SteadyStep (readTableEntry read path) where
  exchange e e' hne := by
    intro m m'
    simp only [readTableEntry, bind_assoc, pure_bind, bind_eq_ok_iff, pure_eq_ok_iff]
    constructor
    · rintro ⟨a, ha, a', ha', rfl⟩
      exact ⟨a', ha', a, ha, TextMap.insert_comm hne.symm a' a m⟩
    · rintro ⟨a', ha', a, ha, rfl⟩
      exact ⟨a, ha, a', ha', TextMap.insert_comm hne a a' m⟩
  inside key v v' hkeys hv m m' hm := by
    obtain ⟨a, ha, hm⟩ := bind_eq_ok_iff.mp hm
    exact bind_eq_ok_iff.mpr ⟨a, h (path.field key) v v' a hkeys hv ha, hm⟩

theorem readTextEntries_eq_foldlM (path : FieldPath) (entries : List Entry) (m : TextMap String) :
    readTextEntries path entries m = entries.foldlM (skippingNulls (readTableEntry readText path)) m := by
  induction entries generalizing m with
  | nil => rfl
  | cons e entries ih =>
    rw [List.foldlM_cons, readTextEntries, skippingNulls]
    cases e.2.isNull with
    | true => exact ih m
    | false => simp [ih, readTableEntry]

@[simp] theorem readTextMap_steady : Steady readTextMap := by
  refine readMapping_steady fun path es es' m hkeys hes h => ?_
  rw [readTextEntries_eq_foldlM] at h ⊢
  exact (readTableEntry_steady readText_steady path).skippingNulls.foldlM_eq_ok hkeys hes h

end

/-! ### Conditions -/

/-- A condition has one entry that counts, and its form is that of the key. -/
theorem readStringMatch_map_eq_ok_iff {path : FieldPath} {entries : List Entry} {m : StringMatch} :
    readStringMatch path (.map entries) = .ok m ↔
      (∀ e ∈ entries, (conditionForms.lookup e.1).isSome) ∧
        ∃ chosen form text, present entries = [chosen] ∧ conditionForms.lookup chosen.1 = some form ∧
          chosen.2.scalarText? = some text ∧ form text = m := by
  rw [readStringMatch, readMapping_bind, bind_eq_ok_iff]
  constructor
  · rintro ⟨found, hfound, h⟩
    refine ⟨classify_isOk_iff.mp ⟨found, hfound⟩, ?_⟩
    have hrel := classify_eq_ok hfound
    split at h
    · rename_i form fpath value
      obtain ⟨text, htext, hm⟩ := bind_eq_ok_iff.mp h
      obtain ⟨chosen, rest, ⟨hform, hchosen⟩, hrest, hpresent⟩ := List.forall₂_cons_right_iff.mp hrel
      obtain rfl := List.forall₂_nil_right_iff.mp hrest
      obtain ⟨rfl, rfl⟩ := Prod.mk.injEq .. ▸ hchosen
      exact ⟨chosen, form, text, hpresent, hform, readText_eq_ok_iff.mp htext, pure_eq_ok_iff.mp hm⟩
    · cases h
  · rintro ⟨hkeys, chosen, form, text, hpresent, hform, htext, rfl⟩
    obtain ⟨found, hfound⟩ : ∃ found, classify (fun key => conditionForms.lookup key) path entries = .ok found :=
      classify_isOk_iff.mpr hkeys
    have hrel := classify_eq_ok hfound
    rw [hpresent] at hrel
    obtain ⟨⟨form', fpath, value⟩, rest, ⟨hform', hchosen⟩, hrest, rfl⟩ := List.forall₂_cons_left_iff.mp hrel
    obtain rfl := List.forall₂_nil_left_iff.mp hrest
    obtain ⟨rfl, rfl⟩ := Prod.mk.injEq .. ▸ hchosen
    obtain rfl := Option.some.inj (hform'.symm.trans hform)
    exact ⟨_, hfound, bind_eq_ok_iff.mpr ⟨text, readText_eq_ok_iff.mpr htext, rfl⟩⟩

@[simp] theorem readStringMatch_steady : Steady readStringMatch := by
  intro path v v' m _ hv h
  cases hv with
  | @entries es es' hperm =>
    obtain ⟨hkeys, chosen, form, text, hpresent, hm⟩ := readStringMatch_map_eq_ok_iff.mp h
    have hpresent' : present es' = [chosen] := List.perm_singleton.mp (hpresent ▸ (hperm.filter _).symm)
    exact readStringMatch_map_eq_ok_iff.mpr
      ⟨fun e he => hkeys e (hperm.mem_iff.mpr he), chosen, form, text, hpresent', hm⟩
  | @inside key v v' before after hv =>
    -- The value counts, so it is that of the condition, which is a scalar.
    obtain ⟨-, chosen, form, text, hpresent, -, htext, -⟩ := readStringMatch_map_eq_ok_iff.mp h
    have hmem : (key, v) ∈ present (before ++ (key, v) :: after) := by simp [present, hv.isNull_eq_false.1]
    rw [hpresent, List.mem_singleton] at hmem
    rw [← hmem, hv.scalarText?_eq_none] at htext
    cases htext
  | item => cases h

theorem readHeaderEntries_eq_foldlM (path : FieldPath) (entries : List Entry) (m : TextMap StringMatch) :
    readHeaderEntries path entries m = entries.foldlM (readTableEntry readStringMatch path) m := by
  induction entries generalizing m with
  | nil => rfl
  | cons e entries ih => simp [readHeaderEntries, readTableEntry, ih]

theorem readHeaders_steady (m : TextMap StringMatch) : Steady fun path v => readHeaders path v m := by
  refine readMapping_steady fun path es es' m' hkeys hes h => ?_
  rw [readHeaderEntries_eq_foldlM] at h ⊢
  exact (readTableEntry_steady readStringMatch_steady path).foldlM_eq_ok hkeys hes h

/-! ### Records -/

section
variable {σ α : Type}

/-- What reading the field makes of a record is the same after entries were put in another order. -/
def Field.Steady (field : Field σ) : Prop := ∀ s, Extraction.Steady fun path v => field.read path v s

@[simp] theorem Field.of_steady {key : String} {read : Reader α} {put : α → σ → σ} (h : Extraction.Steady read) :
    (Field.of key read put).Steady := fun _ => h.bind

/-- Which of two fields is read first does not matter. -/
def Field.Commutes (field field' : Field σ) : Prop :=
  ∀ path v path' v' s s',
    field.read path v s >>= field'.read path' v' = .ok s' ↔ field'.read path' v' s >>= field.read path v = .ok s'

instance : Std.Symm (@Field.Commutes σ) := ⟨fun _ _ h path v path' v' s s' => (h path' v' path v s s').symm⟩

/-- A field that is read into one part of the record, which another leaves as it is. -/
theorem Field.of_commutes_part {γ δ : Type} (part : σ → δ) (readPart : FieldPath → Value → δ → Result γ)
    (set : γ → σ → σ) {key key' : String} {read : Reader α} {put : α → σ → σ} (hpart : ∀ a s, part (put a s) = part s)
    (hput : ∀ a c s, set c (put a s) = put a (set c s)) :
    (Field.of key read put).Commutes ⟨key', fun path v s => do return set (← readPart path v (part s)) s⟩ := by
  intro path v path' v' s s'
  simp only [Field.of, bind_assoc, pure_bind, bind_eq_ok_iff, pure_eq_ok_iff, hpart]
  constructor
  · rintro ⟨a, ha, c, hc, rfl⟩
    exact ⟨c, hc, a, ha, (hput a c s).symm⟩
  · rintro ⟨c, hc, a, ha, rfl⟩
    exact ⟨a, ha, c, hc, hput a c s⟩

@[simp] theorem Field.of_commutes {β : Type} {key key' : String} {read : Reader α} {read' : Reader β}
    {put : α → σ → σ} {put' : β → σ → σ} (h : ∀ a b s, put' b (put a s) = put a (put' b s)) :
    (Field.of key read put).Commutes (Field.of key' read' put') :=
  -- No part of the record is looked at when the value is read.
  Field.of_commutes_part (fun _ => ()) (fun path v _ => read' path v) put' (fun _ _ => rfl) h

/-- The fields of a record can be read in any order. -/
structure FieldsSteady (fields : List (Field σ)) : Prop where
  steady : ∀ field ∈ fields, field.Steady
  commute : fields.Pairwise Field.Commutes

/-- Reads the field of an entry's key. -/
def readEntry (fields : List (Field σ)) (path : FieldPath) (s : σ) (e : Entry) : Result σ :=
  match fields.find? (·.key = e.1) with
  | none => .error ⟨path.field e.1, .unrecognized⟩
  | some field => skippingNulls (fun s e => field.read (path.field e.1) e.2 s) s e

variable {fields : List (Field σ)} {path : FieldPath}

/-- A record is read entry by entry, except that an unknown key is found before. -/
theorem readFields_eq_ok_iff {entries : List Entry} {s s' : σ} :
    readFields fields path entries s = .ok s' ↔ entries.foldlM (readEntry fields path) s = .ok s' := by
  induction entries generalizing s with
  | nil => rfl
  | cons e entries ih =>
    simp only [readFields, bind_eq_ok_iff] at ih
    simp only [readFields, classify, List.foldlM_cons, readEntry, bind_eq_ok_iff]
    cases fields.find? (·.key = e.1) with
    | none => simp
    | some field =>
      simp only [skippingNulls, bind_eq_ok_iff, pure_eq_ok_iff, ← ih]
      cases e.2.isNull with
      | true => simp
      | false =>
        simp only [Bool.false_eq_true, if_false]
        constructor
        · rintro ⟨_, ⟨found, hfound, rfl⟩, hrun⟩
          obtain ⟨s₁, hs₁, hrun⟩ := bind_eq_ok_iff.mp hrun
          exact ⟨s₁, hs₁, found, hfound, hrun⟩
        · rintro ⟨s₁, hs₁, found, hfound, hrun⟩
          exact ⟨_, ⟨found, hfound, rfl⟩, bind_eq_ok_iff.mpr ⟨s₁, hs₁, hrun⟩⟩

theorem FieldsSteady.readEntry (h : FieldsSteady fields) (path : FieldPath) : SteadyStep (readEntry fields path) where
  exchange e e' hne s s' := by
    cases hfield : fields.find? (·.key = e.1) with
    | none => simp [Extraction.readEntry, hfield, bind_eq_ok_iff]
    | some field =>
      cases hfield' : fields.find? (·.key = e'.1) with
      | none => simp [Extraction.readEntry, hfield', bind_eq_ok_iff]
      | some field' =>
        -- A field has one key, so entries with different keys are read by different fields.
        have hfields : field ≠ field' := by
          rintro rfl
          have hkey : field.key = e.1 := by simpa using List.find?_some hfield
          have hkey' : field.key = e'.1 := by simpa using List.find?_some hfield'
          exact hne (hkey.symm.trans hkey')
        have hcommute : field.Commutes field' :=
          h.commute.forall (List.mem_of_find?_eq_some hfield) (List.mem_of_find?_eq_some hfield') hfields
        simp only [Extraction.readEntry, hfield, hfield', skippingNulls, bind_eq_ok_iff]
        cases e.2.isNull <;> cases e'.2.isNull
        · simpa [bind_eq_ok_iff] using hcommute (path.field e.1) e.2 (path.field e'.1) e'.2 s s'
        all_goals simp
  inside key v v' hkeys hv s s' hrun := by
    obtain ⟨hnull, hnull'⟩ := hv.isNull_eq_false
    cases hfield : fields.find? (·.key = key) with
    | none => simp [Extraction.readEntry, hfield] at hrun
    | some field =>
      simp only [Extraction.readEntry, hfield, skippingNulls, hnull, hnull', Bool.false_eq_true, if_false] at hrun ⊢
      exact h.steady field (List.mem_of_find?_eq_some hfield) s (path.field key) v v' s' hkeys hv hrun

theorem FieldsSteady.readFields (h : FieldsSteady fields) {es es' : List Entry} {s s' : σ}
    (hkeys : (Value.map es).KeysDistinct) (hes : (Value.map es).Shuffles (.map es'))
    (hrun : readFields fields path es s = .ok s') : Extraction.readFields fields path es' s = .ok s' := by
  rw [readFields_eq_ok_iff] at hrun ⊢
  exact (h.readEntry path).foldlM_eq_ok hkeys hes hrun

theorem readEntry_commutes {field' : Field σ} (h : ∀ field ∈ fields, field.Commutes field') (e : Entry)
    (path' : FieldPath) (v' : Value) (s s' : σ) :
    readEntry fields path s e >>= field'.read path' v' = .ok s' ↔
      (field'.read path' v' s >>= fun s₁ => readEntry fields path s₁ e) = .ok s' := by
  cases hfield : fields.find? (·.key = e.1) with
  | none => simp [readEntry, hfield, bind_eq_ok_iff]
  | some field =>
    have hcommute := h field (List.mem_of_find?_eq_some hfield) (path.field e.1) e.2 path' v' s s'
    simp only [readEntry, hfield, skippingNulls, bind_eq_ok_iff]
    cases e.2.isNull with
    | true => simp
    | false => simpa [bind_eq_ok_iff] using hcommute

/-- The fields of a mapping that go into the same record can be read after another field of it. -/
theorem Field.commutes_of_fields {field' : Field σ} (h : ∀ field ∈ fields, field.Commutes field') (key : String) :
    Field.Commutes ⟨key, fun path v s => readRecord fields s path v⟩ field' := by
  intro path v path' v' s s'
  cases v with
  | map es =>
    have hrun (s s' : σ) : readRecord fields s path (.map es) = .ok s' ↔
        es.foldlM (readEntry fields path) s = .ok s' := readFields_eq_ok_iff
    have hexchange : es.foldlM (readEntry fields path) s >>= field'.read path' v' = .ok s' ↔
        (field'.read path' v' s >>= fun s₁ => es.foldlM (readEntry fields path) s₁) = .ok s' :=
      foldlM_bind_eq_ok_iff fun e _ s s' => readEntry_commutes h e path' v' s s'
    simpa only [bind_eq_ok_iff, hrun] using hexchange
  | null | bool | int | float | text | list => simp [readRecord, readMapping, mismatch, bind_eq_ok_iff]

theorem readRecord_steady (h : FieldsSteady fields) (s : σ) : Steady (readRecord fields s) :=
  readMapping_steady fun _ _ _ _ hkeys hes hrun => h.readFields hkeys hes hrun

end

end Manifests.Extraction
