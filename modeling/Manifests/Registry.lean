import Manifests.Record

/-! # The registry

The records of one run by kind and key. No kind has two records under one key, and a record may stand under the
key of a record of another kind. -/

namespace Manifests

/-- Records under keys. The key of an entry counts together with the kind of its record. -/
structure Registry where
  entries : List (String × Record)
  distinct : entries.Pairwise fun a b => (a.2.kind, a.1) ≠ (b.2.kind, b.1)

namespace Registry

/-- The registry without records. -/
def empty : Registry := ⟨[], .nil⟩

instance : EmptyCollection Registry := ⟨empty⟩

/-- An entry stands under the kind and the key. -/
def stands (kind : Kind) (key : String) (entry : String × Record) : Bool := entry.2.kind = kind && entry.1 = key

/-- The record of the kind under the key. -/
def lookup? (r : Registry) (kind : Kind) (key : String) : Option Record :=
  (r.entries.find? (stands kind key)).map (·.2)

/-- How many records there are. -/
def size (r : Registry) : Nat := r.entries.length

/-- Puts a record under a key, in place of one of its kind. -/
def register (r : Registry) (key : String) (record : Record) : Registry where
  entries := r.entries.filter (fun entry => !stands record.kind key entry) ++ [(key, record)]
  distinct := by
    refine List.pairwise_append.mpr ⟨r.distinct.filter _, List.pairwise_singleton _ _, fun a ha b hb => ?_⟩
    obtain rfl := List.mem_singleton.mp hb
    have h := (List.mem_filter.mp ha).2
    simp only [stands, Bool.not_eq_true', Bool.and_eq_false_iff, decide_eq_false_iff_not] at h
    intro heq
    cases h with
    | inl h => exact h (congrArg Prod.fst heq)
    | inr h => exact h (congrArg Prod.snd heq)

/-- What diagnostics say of a key that no record of the kind stands under. -/
def notFoundMessage (kind : Kind) (key : String) : String := "no " ++ kind.name ++ " registered under '" ++ key ++ "'"

end Registry

end Manifests
