import Manifests.Proofs.Value
import Mathlib.Data.List.Nodup

/-! # Entries in another order

A mapping keeps its entries in the order in which they were declared. `Value.Shuffles` puts the entries of one mapping,
at any depth, in another order, and `Value.KeysDistinct` says that no mapping repeats a key, so that an entry is told
by its key wherever it stands. -/

namespace Manifests

/-- No mapping in the value, at any depth, repeats a key. -/
inductive Value.KeysDistinct : Value → Prop
  | null : KeysDistinct .null
  | bool (b : Bool) : KeysDistinct (.bool b)
  | int (i : Int64) : KeysDistinct (.int i)
  | float (x : Binary64) : KeysDistinct (.float x)
  | text (s : String) : KeysDistinct (.text s)
  | map {entries : List Entry} : (entries.map (·.1)).Nodup → (∀ e ∈ entries, KeysDistinct e.2) →
      KeysDistinct (.map entries)
  | list {items : List Value} : (∀ v ∈ items, KeysDistinct v) → KeysDistinct (.list items)

/-- The entries of one mapping, at any depth, are put in another order. Lists keep theirs. -/
inductive Value.Shuffles : Value → Value → Prop
  | entries {es es' : List Entry} : es.Perm es' → Shuffles (.map es) (.map es')
  | inside {key : String} {v v' : Value} {before after : List Entry} : Shuffles v v' →
      Shuffles (.map (before ++ (key, v) :: after)) (.map (before ++ (key, v') :: after))
  | item {v v' : Value} {before after : List Value} : Shuffles v v' →
      Shuffles (.list (before ++ v :: after)) (.list (before ++ v' :: after))

namespace Value

/-- What has entries to put in another order is no scalar. -/
theorem Shuffles.scalarText?_eq_none {v v' : Value} (h : v.Shuffles v') : v.scalarText? = none := by
  cases h <;> rfl

theorem Shuffles.isNull_eq_false {v v' : Value} (h : v.Shuffles v') : v.isNull = false ∧ v'.isNull = false := by
  cases h <;> exact ⟨rfl, rfl⟩

theorem Shuffles.exists_entries {entries : List Entry} {v' : Value} (h : (Value.map entries).Shuffles v') :
    ∃ entries', v' = .map entries' := by
  cases h with
  | entries | inside => exact ⟨_, rfl⟩

theorem keysDistinct_map_iff {es : List Entry} :
    (Value.map es).KeysDistinct ↔ (es.map (·.1)).Nodup ∧ ∀ e ∈ es, e.2.KeysDistinct := by
  constructor
  · intro h
    cases h with
    | map hkeys hvalues => exact ⟨hkeys, hvalues⟩
  · rintro ⟨hkeys, hvalues⟩
    exact .map hkeys hvalues

theorem keysDistinct_list_iff {items : List Value} :
    (Value.list items).KeysDistinct ↔ ∀ v ∈ items, v.KeysDistinct := by
  constructor
  · intro h
    cases h with
    | list hitems => exact hitems
  · exact .list

/-- Putting entries in another order repeats no key. -/
theorem KeysDistinct.shuffles {v v' : Value} (hv : v.KeysDistinct) (h : v.Shuffles v') : v'.KeysDistinct := by
  induction h with
  | entries hperm =>
    obtain ⟨hkeys, hvalues⟩ := keysDistinct_map_iff.mp hv
    exact .map ((hperm.map _).nodup_iff.mp hkeys) fun e he => hvalues e (hperm.mem_iff.mpr he)
  | inside _ ih =>
    obtain ⟨hkeys, hvalues⟩ := keysDistinct_map_iff.mp hv
    simp only [List.forall_mem_append, List.forall_mem_cons] at hvalues
    refine .map (by simpa using hkeys) ?_
    simp only [List.forall_mem_append, List.forall_mem_cons]
    exact ⟨hvalues.1, ih hvalues.2.1, hvalues.2.2⟩
  | item _ ih =>
    have hitems := keysDistinct_list_iff.mp hv
    simp only [List.forall_mem_append, List.forall_mem_cons] at hitems
    refine .list ?_
    simp only [List.forall_mem_append, List.forall_mem_cons]
    exact ⟨hitems.1, ih hitems.2.1, hitems.2.2⟩

theorem KeysDistinct.filter {es : List Entry} (h : (Value.map es).KeysDistinct) (keep : Entry → Bool) :
    (Value.map (es.filter keep)).KeysDistinct := by
  obtain ⟨hkeys, hvalues⟩ := keysDistinct_map_iff.mp h
  exact .map (hkeys.sublist (List.filter_sublist.map _)) fun e he => hvalues e (List.mem_of_mem_filter he)

/-- Of the entries with some of the keys, some are put in another order, or none are. -/
theorem Shuffles.filter {es es' : List Entry} (h : (Value.map es).Shuffles (.map es')) (keep : Entry → Bool)
    (hkeep : ∀ key v v', keep (key, v) = keep (key, v')) :
    es'.filter keep = es.filter keep ∨ (Value.map (es.filter keep)).Shuffles (.map (es'.filter keep)) := by
  cases h with
  | entries hperm => exact .inr (.entries (hperm.filter keep))
  | @inside key v v' before after hv =>
    -- The entry with the other value is kept or dropped together with its key.
    cases hthis : keep (key, v) with
    | true =>
      right
      simp only [List.filter_append, List.filter_cons, hkeep key v' v, hthis, if_true]
      exact .inside hv
    | false =>
      left
      simp only [List.filter_append, List.filter_cons, hkeep key v' v, hthis, Bool.false_eq_true, if_false]

end Value

end Manifests
