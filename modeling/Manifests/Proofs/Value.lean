import Manifests.Value

/-! # Look-ups in values

What stands under a key, or under a path of keys, and the items of a list that does. A value that is no mapping has
no entries, and one that is no list has no items. -/

namespace Manifests.Value

/-- The entries of a mapping. -/
def entries : Value → List Entry
  | .map entries => entries
  | _ => []

/-- The items of a list. -/
def items : Value → List Value
  | .list items => items
  | _ => []

/-- The value under a key. -/
def get? (v : Value) (key : String) : Option Value := v.entries.lookup key

/-- The value under a path of keys. -/
def at? (v : Value) (keys : List String) : Option Value := keys.foldlM get? v

/-- The items of the list under a key. -/
def itemsAt (v : Value) (key : String) : List Value := ((v.get? key).map items).getD []

/-! ### What values are like -/

/-- A value is a number like this. -/
def IsInt (P : Int64 → Prop) (v : Value) : Prop := ∃ n, v = .int n ∧ P n

/-- A value is a text like this. -/
def IsText (P : String → Prop) (v : Value) : Prop := ∃ s, v = .text s ∧ P s

/-- A value is a list that is not empty, and its items are like this. -/
def IsList (P : Value → Prop) (v : Value) : Prop := ∃ items, v = .list items ∧ items ≠ [] ∧ ∀ item ∈ items, P item

/-- A value like this stands under the key. -/
def Has (v : Value) (key : String) (P : Value → Prop) : Prop := ∃ w, v.get? key = some w ∧ P w

/-- What stands under the key, if anything, is like this. -/
def MayHave (v : Value) (key : String) (P : Value → Prop) : Prop := ∀ w, v.get? key = some w → P w

theorem isNull_iff {v : Value} : v.isNull = true ↔ v = .null := by
  cases v <;> simp [isNull]

/-! ### Look-ups -/

@[simp] theorem entries_map (es : List Entry) : (Value.map es).entries = es := rfl

@[simp] theorem get?_map (es : List Entry) (key : String) : (Value.map es).get? key = es.lookup key := rfl

@[simp] theorem at?_cons (v : Value) (key : String) (keys : List String) :
    v.at? (key :: keys) = (v.get? key).bind (·.at? keys) := rfl

theorem ne_nil_of_get? {es : List Entry} {key : String} {v : Value} (h : (Value.map es).get? key = some v) :
    es ≠ [] := by
  rintro rfl
  cases h

end Manifests.Value
