import Manifests.Extraction.Fields
import Manifests.Proofs.Except
import Manifests.Proofs.Value

/-! # Which declared values a record is read from

The fields of a record are read one entry after the other, and null values are skipped. So what a part of the record
is read from depends on the values declared under its key: the last one if reading sets the part
(`readFields_sets`), and the items of all of them if reading adds to it (`readFields_adds`). The fields with other
keys keep the part as it is. -/

namespace Manifests.Extraction

/-! ### Declared values -/

/-- The entries that count. A null value counts as no value. -/
def present (entries : List Entry) : List Entry := entries.filter (!·.2.isNull)

/-- The values declared under a key. -/
def declared (key : String) (entries : List Entry) : List Value :=
  ((present entries).filter (·.1 = key)).map (·.2)

/-- The value declared under a key, which is the last one if there are several. -/
def declared? (key : String) (entries : List Entry) : Option Value := (declared key entries).getLast?

/-- The text of the scalar declared under a key. -/
def declaredText? (key : String) (entries : List Entry) : Option String :=
  (declared? key entries).bind Value.scalarText?

/-- The items of the lists declared under a key. -/
def declaredItems (key : String) (entries : List Entry) : List Value := (declared key entries).flatMap Value.items

theorem declared_present (key : String) (entries : List Entry) :
    declared key (present entries) = declared key entries := by
  simp [declared, present]

/-- One more entry adds its value to those under its key. -/
theorem declared_snoc {entry : Entry} (h : entry.2.isNull = false) (key : String) (entries : List Entry) :
    declared key (entries ++ [entry]) =
      if entry.1 = key then declared key entries ++ [entry.2] else declared key entries := by
  by_cases hkey : entry.1 = key <;> simp [declared, present, h, hkey]

/-- Leaving out entries with other keys leaves the values under a key. -/
theorem declared_filter {key : String} {keep : Entry → Bool} (h : ∀ value, keep (key, value) = true)
    (entries : List Entry) : declared key (entries.filter keep) = declared key entries := by
  have hsame : ((present (entries.filter keep)).filter (·.1 = key)) = (present entries).filter (·.1 = key) := by
    simp only [present, List.filter_filter]
    refine List.filter_congr fun ⟨own, value⟩ _ => ?_
    by_cases hkey : own = key
    · subst hkey
      simp [h value]
    · simp [hkey]
  rw [declared, hsame, declared]

/-! ### Values -/

/-- A value is read as `a`, at some path. -/
def Reads {α : Type} (read : Reader α) (value : Value) (a : α) : Prop := ∃ path, read path value = .ok a

theorem readText_eq_ok_iff {path : FieldPath} {value : Value} {text : String} :
    readText path value = .ok text ↔ value.scalarText? = some text := by
  unfold readText
  cases value.scalarText? <;> simp [mismatch]

theorem readMapping_eq_ok {path : FieldPath} {value : Value} {entries : List Entry}
    (h : readMapping path value = .ok entries) : value.entries = entries := by
  cases value with
  | map => exact Except.ok.inj h
  | null | bool | int | float | text | list => cases h

theorem readList_eq_ok {path : FieldPath} {value : Value} {items : List Value} (h : readList path value = .ok items) :
    value.items = items := by
  cases value with
  | list => exact Except.ok.inj h
  | null | bool | int | float | text | map => cases h

theorem readItemsFrom_eq_ok {α : Type} {read : Reader α} {path : FieldPath} {i : Nat} {items : List Value}
    {as : List α} (h : readItemsFrom read path i items = .ok as) : List.Forall₂ (Reads read) items as := by
  induction items generalizing i as with
  | nil =>
    obtain rfl := Except.ok.inj h
    exact .nil
  | cons item items ih =>
    obtain ⟨a, ha, h⟩ := bind_eq_ok_iff.mp h
    obtain ⟨as', has, h⟩ := bind_eq_ok_iff.mp h
    obtain rfl := pure_eq_ok_iff.mp h
    exact .cons ⟨_, ha⟩ (ih has)

/-- The items of a list are read one by one. -/
theorem readItems_eq_ok {α : Type} {read : Reader α} {path : FieldPath} {value : Value} {as : List α}
    (h : readItems read path value = .ok as) : List.Forall₂ (Reads read) value.items as := by
  obtain ⟨items, hitems, h⟩ := bind_eq_ok_iff.mp h
  rw [readList_eq_ok hitems]
  exact readItemsFrom_eq_ok h

/-! ### Fields -/

/-- Looking the keys up keeps the entries that count, with the fields of their keys. -/
theorem classify_eq_ok {φ : Type} {known : String → Option φ} {path : FieldPath} {entries : List Entry}
    {found : List (φ × FieldPath × Value)} (h : classify known path entries = .ok found) :
    List.Forall₂ (fun entry f => known entry.1 = some f.1 ∧ f.2 = (path.field entry.1, entry.2)) (present entries)
      found := by
  induction entries generalizing found with
  | nil =>
    obtain rfl := Except.ok.inj h
    exact .nil
  | cons entry entries ih =>
    unfold classify at h
    split at h
    · cases h
    · rename_i field hknown
      obtain ⟨rest, hrest, h⟩ := bind_eq_ok_iff.mp h
      have htail := ih hrest
      obtain rfl := pure_eq_ok_iff.mp h
      cases hnull : entry.2.isNull
      · simpa [present, hnull] using ⟨hknown, htail⟩
      · simpa [present, hnull] using htail

theorem readRecord_eq_ok {σ : Type} {fields : List (Field σ)} {path : FieldPath} {value : Value} {s s' : σ}
    (h : readRecord fields s path value = .ok s') : readFields fields path value.entries s = .ok s' := by
  obtain ⟨entries, hentries, h⟩ := bind_eq_ok_iff.mp h
  rwa [readMapping_eq_ok hentries]

theorem required_eq_ok {α : Type} {path : FieldPath} {value : Option α} {a : α} (h : required path value = .ok a) :
    value = some a := by
  cases value with
  | none => cases h
  | some b => rw [Except.ok.inj h]

/-- What holds before the fields of a record are read, and is kept by reading one more entry, holds of the record. -/
theorem readFields_induction {σ : Type} {fields : List (Field σ)} {path : FieldPath} {entries : List Entry} {s s' : σ}
    {P : List Entry → σ → Prop} (h : readFields fields path entries s = .ok s') (start : P [] s)
    (step : ∀ field ∈ fields, ∀ path value es s s', value.isNull = false → field.read path value s = .ok s' →
      P es s → P (es ++ [(field.key, value)]) s') : P (present entries) s' := by
  obtain ⟨found, hfound, h⟩ := bind_eq_ok_iff.mp h
  have hrel := classify_eq_ok hfound
  have hcount : ∀ entry ∈ present entries, entry.2.isNull = false := fun entry hentry => by
    simpa using (List.mem_filter.mp hentry).2
  -- The entries that were read before are put in front.
  have hrun : ∀ done s, P done s → readEach found s = .ok s' → P (done ++ present entries) s' := by
    clear h hfound start
    generalize present entries = es at hrel hcount
    induction hrel with
    | nil =>
      intro done s hdone h
      obtain rfl := Except.ok.inj h
      rwa [List.append_nil]
    | @cons entry f es found hentry hrest ih =>
      intro done s hdone h
      obtain ⟨field, fpath, value⟩ := f
      obtain ⟨hknown, heq⟩ := hentry
      obtain ⟨rfl, rfl⟩ := Prod.mk.injEq .. ▸ heq
      obtain ⟨hnull, hcount⟩ := List.forall_mem_cons.mp hcount
      obtain ⟨s₁, hread, h⟩ := bind_eq_ok_iff.mp h
      have hkey : field.key = entry.1 := by simpa using List.find?_some hknown
      have hnext := step field (List.mem_of_find?_eq_some hknown) _ _ done s s₁ hnull hread hdone
      rw [hkey] at hnext
      rw [List.append_cons]
      exact ih hcount _ s₁ hnext h
  exact hrun [] s start h

namespace Field

variable {σ α β : Type}

/-- Reading the field leaves a part of the record as it is. -/
def Keeps (part : σ → β) (field : Field σ) : Prop :=
  ∀ path value s s', field.read path value s = .ok s' → part s' = part s

/-- Reading the field sets a part of the record. -/
def Sets (read : Reader α) (part : σ → Option α) (field : Field σ) : Prop :=
  ∀ path value s s', field.read path value s = .ok s' → ∃ a, read path value = .ok a ∧ part s' = some a

/-- Reading the field adds to a list of the record. -/
def Adds (read : Reader α) (part : σ → List α) (field : Field σ) : Prop :=
  ∀ path value s s', field.read path value s = .ok s' →
    ∃ as, readItems read path value = .ok as ∧ part s' = part s ++ as

@[simp] theorem of_key (key : String) (read : Reader α) (put : α → σ → σ) : (Field.of key read put).key = key := rfl

theorem of_read_eq_ok {key : String} {read : Reader α} {put : α → σ → σ} {path : FieldPath} {value : Value} {s s' : σ}
    (h : (Field.of key read put).read path value s = .ok s') : ∃ a, read path value = .ok a ∧ s' = put a s := by
  obtain ⟨a, ha, h⟩ := bind_eq_ok_iff.mp h
  exact ⟨a, ha, (pure_eq_ok_iff.mp h).symm⟩

@[simp] theorem keeps_of {part : σ → β} {key : String} {read : Reader α} {put : α → σ → σ}
    (h : ∀ a s, part (put a s) = part s) : (Field.of key read put).Keeps part := by
  intro path value s s' hread
  obtain ⟨a, -, rfl⟩ := of_read_eq_ok hread
  exact h a s

@[simp] theorem sets_of {part : σ → Option α} {key : String} {read : Reader α} {put : α → σ → σ}
    (h : ∀ a s, part (put a s) = some a) : (Field.of key read put).Sets read part := by
  intro path value s s' hread
  obtain ⟨a, ha, rfl⟩ := of_read_eq_ok hread
  exact ⟨a, ha, h a s⟩

@[simp] theorem adds_of {part : σ → List α} {key : String} {read : Reader α} {put : List α → σ → σ}
    (h : ∀ as s, part (put as s) = part s ++ as) : (Field.of key (readItems read) put).Adds read part := by
  intro path value s s' hread
  obtain ⟨as, has, rfl⟩ := of_read_eq_ok hread
  exact ⟨as, has, h as s⟩

end Field

section
variable {σ α : Type} {fields : List (Field σ)} {path : FieldPath} {entries : List Entry} {s s' : σ}

/-- A part that is set is read from the last value under its key. -/
theorem readFields_sets (key : String) (read : Reader α) (part : σ → Option α)
    (h : readFields fields path entries s = .ok s')
    (hstart : part s = none)
    (hfields : ∀ field ∈ fields, if field.key = key then field.Sets read part else field.Keeps part) :
    Option.Rel (Reads read) (declared? key entries) (part s') := by
  have hpresent : Option.Rel (Reads read) (declared? key (present entries)) (part s') := by
    refine readFields_induction (P := fun es s => Option.Rel (Reads read) (declared? key es) (part s)) h ?_ ?_
    · rw [hstart]
      exact .none
    · intro field hfield path value es s s' hnull hread hes
      have hthis := hfields field hfield
      rw [declared?, declared_snoc hnull]
      split at hthis
      · obtain ⟨a, ha, hpart⟩ := hthis path value s s' hread
        rw [if_pos ‹_›, List.getLast?_concat, hpart]
        exact .some ⟨path, ha⟩
      · rw [if_neg ‹_›, hthis path value s s' hread]
        exact hes
  rwa [declared?, declared_present] at hpresent

/-- A list that is added to is read from the items of all values under its key. -/
theorem readFields_adds (key : String) (read : Reader α) (part : σ → List α)
    (h : readFields fields path entries s = .ok s')
    (hstart : part s = [])
    (hfields : ∀ field ∈ fields, if field.key = key then field.Adds read part else field.Keeps part) :
    List.Forall₂ (Reads read) (declaredItems key entries) (part s') := by
  have hpresent : List.Forall₂ (Reads read) (declaredItems key (present entries)) (part s') := by
    refine readFields_induction (P := fun es s => List.Forall₂ (Reads read) (declaredItems key es) (part s)) h ?_ ?_
    · rw [hstart]
      exact .nil
    · intro field hfield path value es s s' hnull hread hes
      have hthis := hfields field hfield
      rw [declaredItems, declared_snoc hnull]
      split at hthis
      · obtain ⟨as, has, hpart⟩ := hthis path value s s' hread
        rw [if_pos ‹_›, List.flatMap_append, List.flatMap_singleton, hpart]
        exact List.rel_append hes (readItems_eq_ok has)
      · rw [if_neg ‹_›, hthis path value s s' hread]
        exact hes
  rwa [declaredItems, declared_present] at hpresent

/-- A text that is set is the text of the last value under its key. -/
theorem readFields_text (key : String) (part : σ → Option String) (h : readFields fields path entries s = .ok s')
    (hstart : part s = none)
    (hfields : ∀ field ∈ fields, if field.key = key then field.Sets readText part else field.Keeps part) :
    part s' = declaredText? key entries := by
  have hrel := readFields_sets key readText part h hstart hfields
  unfold declaredText?
  generalize declared? key entries = value at hrel
  generalize part s' = text at hrel
  cases hrel with
  | none => rfl
  | some hread =>
    obtain ⟨path, hread⟩ := hread
    exact (readText_eq_ok_iff.mp hread).symm

end

end Manifests.Extraction
