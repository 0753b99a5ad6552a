import Manifests.Proofs.Extraction.Steady

/-! # Readers that do not tell quoted integers from others

An integer may be declared as it is or in quotes, as the text of its digits (`Value.Quotes`). A text is read from the
text of any scalar, and an integer from a text that writes it, so a reader of either is `Indifferent`: it reads the same
from both. Readers of lists, tables and records are indifferent if the readers of their parts are. -/

namespace Manifests

/-- One integer, at any depth, is put into quotes. -/
inductive Value.Quotes : Value → Value → Prop
  | integer (i : Int64) : Quotes (.int i) (.text (Number.decimal i.toInt))
  | entry {key : String} {v v' : Value} {before after : List Entry} : Quotes v v' →
      Quotes (.map (before ++ (key, v) :: after)) (.map (before ++ (key, v') :: after))
  | item {v v' : Value} {before after : List Value} : Quotes v v' →
      Quotes (.list (before ++ v :: after)) (.list (before ++ v' :: after))

namespace Value

theorem Quotes.scalarText?_eq {v v' : Value} (h : v.Quotes v') : v.scalarText? = v'.scalarText? := by
  cases h <;> rfl

theorem Quotes.isNull_eq_false {v v' : Value} (h : v.Quotes v') : v.isNull = false ∧ v'.isNull = false := by
  cases h <;> exact ⟨rfl, rfl⟩

end Value

namespace Extraction

/-! ### Readers -/

section
variable {α β : Type} {read : Reader α} {v v' : Value}

/-- What is read from the one value is read from the other. -/
def ReadsAlike (read : Reader α) (v v' : Value) : Prop := ∀ path a, read path v = .ok a ↔ read path v' = .ok a

/-- The same is read after integers were put into quotes as before. -/
def Indifferent (read : Reader α) : Prop := ∀ v v', v.Quotes v' → ReadsAlike read v v'

theorem ReadsAlike.bind {next : FieldPath → α → Result β} (h : ReadsAlike read v v') :
    ReadsAlike (fun path v => read path v >>= next path) v v' := by
  intro path b
  simp only [bind_eq_ok_iff, h path]

theorem Indifferent.bind {next : FieldPath → α → Result β} (h : Indifferent read) :
    Indifferent (fun path v => read path v >>= next path) := fun v v' hv => (h v v' hv).bind

@[simp] theorem readText_indifferent : Indifferent readText := by
  intro v v' hv path text
  rw [readText_eq_ok_iff, readText_eq_ok_iff, hv.scalarText?_eq]

@[simp] theorem readInt_indifferent : Indifferent readInt := by
  intro v v' hv path n
  cases hv with
  | integer i => simp only [readInt, Number.readInt64?_trim_decimal]
  | entry | item => simp [readInt, mismatch]

@[simp] theorem readOptionalInt_indifferent : Indifferent readOptionalInt := readInt_indifferent.bind

@[simp] theorem readBool_indifferent : Indifferent readBool := by
  intro v v' hv path b
  cases hv <;> exact ⟨nofun, nofun⟩

/-! ### Lists -/

theorem readItemsFrom_readsAlike (h : ReadsAlike read v v') {path : FieldPath} {i : Nat} {before after : List Value}
    {as : List α} : readItemsFrom read path i (before ++ v :: after) = .ok as ↔
      readItemsFrom read path i (before ++ v' :: after) = .ok as :=
  ⟨readItemsFrom_shuffles fun path a => (h path a).mp, readItemsFrom_shuffles fun path a => (h path a).mpr⟩

@[simp] theorem readItems_indifferent (h : Indifferent read) : Indifferent (readItems read) := by
  intro v v' hv path as
  cases hv with
  | integer | entry => exact ⟨nofun, nofun⟩
  | item hv => exact readItemsFrom_readsAlike (h _ _ hv)

@[simp] theorem readTexts_indifferent : Indifferent readTexts := readItems_indifferent readText_indifferent

@[simp] theorem readTextSet_indifferent : Indifferent readTextSet := readTexts_indifferent.bind

end

/-! ### Entry by entry -/

/-- A mapping is read indifferently if its entries are. -/
theorem readMapping_indifferent {α : Type} {next : FieldPath → List Entry → Result α}
    (h : ∀ path key v v' before after a, v.Quotes v' →
      (next path (before ++ (key, v) :: after) = .ok a ↔ next path (before ++ (key, v') :: after) = .ok a)) :
    Indifferent (fun path v => readMapping path v >>= next path) := by
  intro v v' hv path a
  cases hv with
  | entry hv => exact h path _ _ _ _ _ a hv
  | integer | item => exact ⟨nofun, nofun⟩

theorem skippingNulls_of_isNull {σ : Type} {step : σ → Entry → Result σ} {key : String} {v : Value}
    (h : v.isNull = false) (s : σ) : skippingNulls step s (key, v) = step s (key, v) :=
  if_neg (by simp [h])

/-! ### Tables -/

section
variable {α : Type} {read : Reader α}

theorem readTableEntry_readsAlike {v v' : Value} (h : ReadsAlike read v v') (path : FieldPath) (key : String)
    (m m' : TextMap α) :
    readTableEntry read path m (key, v) = .ok m' ↔ readTableEntry read path m (key, v') = .ok m' := by
  simp only [readTableEntry, bind_eq_ok_iff, h (path.field key)]

@[simp] theorem readTextMap_indifferent : Indifferent readTextMap := by
  refine readMapping_indifferent fun path key v v' before after m hv => ?_
  obtain ⟨hnull, hnull'⟩ := hv.isNull_eq_false
  rw [readTextEntries_eq_foldlM, readTextEntries_eq_foldlM]
  refine foldlM_replace_eq_ok_iff fun m m' => ?_
  rw [skippingNulls_of_isNull hnull, skippingNulls_of_isNull hnull']
  exact readTableEntry_readsAlike (readText_indifferent v v' hv) path key m m'

end

/-! ### Conditions -/

/-- A condition is read from the text of its scalar alone. -/
theorem readStringMatch_eq_ok_of_replace {path : FieldPath} {key : String} {v v' : Value} {before after : List Entry}
    {m : StringMatch} (hnull : v.isNull = false) (hnull' : v'.isNull = false)
    (htexts : v.scalarText? = v'.scalarText?) (h : readStringMatch path (.map (before ++ (key, v) :: after)) = .ok m) :
    readStringMatch path (.map (before ++ (key, v') :: after)) = .ok m := by
  obtain ⟨hkeys, chosen, form, text, hpresent, hform, htext, hm⟩ := readStringMatch_map_eq_ok_iff.mp h
  have hpresents {w : Value} (hw : w.isNull = false) :
      present (before ++ (key, w) :: after) = present before ++ (key, w) :: present after := by
    simp [present, hw]
  -- The entry counts, so no other one does.
  obtain ⟨hbefore, rfl, hafter⟩ : present before = [] ∧ (key, v) = chosen ∧ present after = [] := by
    simpa [hpresents hnull, List.append_eq_singleton_iff] using hpresent
  refine readStringMatch_map_eq_ok_iff.mpr
    ⟨by simpa only [List.forall_mem_append, List.forall_mem_cons] using hkeys, (key, v'), form, text, ?_, hform,
      htexts.symm.trans htext, hm⟩
  rw [hpresents hnull', hbefore, hafter]
  rfl

@[simp] theorem readStringMatch_indifferent : Indifferent readStringMatch := by
  intro v v' hv path m
  cases hv with
  | integer | item => exact ⟨nofun, nofun⟩
  | entry hv =>
    obtain ⟨hnull, hnull'⟩ := hv.isNull_eq_false
    exact ⟨readStringMatch_eq_ok_of_replace hnull hnull' hv.scalarText?_eq,
      readStringMatch_eq_ok_of_replace hnull' hnull hv.scalarText?_eq.symm⟩

theorem readHeaders_indifferent (m : TextMap StringMatch) : Indifferent fun path v => readHeaders path v m := by
  refine readMapping_indifferent fun path key v v' before after m' hv => ?_
  rw [readHeaderEntries_eq_foldlM, readHeaderEntries_eq_foldlM]
  exact foldlM_replace_eq_ok_iff (readTableEntry_readsAlike (readStringMatch_indifferent v v' hv) path key)

/-! ### Records -/

section
variable {σ α : Type} {fields : List (Field σ)} {path : FieldPath} {key : String} {v v' : Value}

/-- What reading the field makes of a record is the same after integers were put into quotes. -/
def Field.Indifferent (field : Field σ) : Prop := ∀ s, Extraction.Indifferent fun path v => field.read path v s

@[simp] theorem Field.of_indifferent {read : Reader α} {put : α → σ → σ} (h : Extraction.Indifferent read) :
    (Field.of key read put).Indifferent := fun _ => h.bind

/-- The values of an entry are exchanged for each other if the fields of its key read the same from them. -/
theorem readFields_readsAlike (hv : v.Quotes v')
    (h : ∀ field ∈ fields, field.key = key → ∀ s, ReadsAlike (fun path v => field.read path v s) v v')
    {before after : List Entry} {s s' : σ} :
    readFields fields path (before ++ (key, v) :: after) s = .ok s' ↔
      readFields fields path (before ++ (key, v') :: after) s = .ok s' := by
  obtain ⟨hnull, hnull'⟩ := hv.isNull_eq_false
  rw [readFields_eq_ok_iff, readFields_eq_ok_iff]
  refine foldlM_replace_eq_ok_iff fun s s' => ?_
  unfold readEntry
  cases hfield : fields.find? (·.key = key) with
  | none => rfl
  | some field =>
    have hkey : field.key = key := by simpa using List.find?_some hfield
    simp only [skippingNulls_of_isNull hnull, skippingNulls_of_isNull hnull']
    exact h field (List.mem_of_find?_eq_some hfield) hkey s _ s'

theorem readRecord_indifferent (h : ∀ field ∈ fields, field.Indifferent) (s : σ) :
    Indifferent (readRecord fields s) :=
  readMapping_indifferent fun _ _ v v' _ _ _ hv =>
    readFields_readsAlike hv fun field hfield _ s => h field hfield s v v' hv

end

end Extraction

end Manifests
