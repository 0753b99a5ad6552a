import Manifests.TextMap

/-! # Entries put into a map

What stands under a key after an entry was put in. A map keeps its entries in the order of their keys, so it does not
show in which order entries with different keys were put into it. -/

namespace Manifests.TextMap

variable {α : Type}

/-! ### Look-ups -/

theorem lookup_insertEntry_self (key : String) (value : α) (entries : List (String × α)) :
    (insertEntry key value entries).lookup key = some value := by
  induction entries with
  | nil => simp [insertEntry]
  | cons entry rest ih =>
    unfold insertEntry
    split
    · exact List.lookup_cons_self
    · split
      · exact List.lookup_cons_self
      · rename_i hne
        rw [List.lookup_cons, beq_false_of_ne hne]
        exact ih

theorem lookup_insertEntry_of_ne {key key' : String} (h : key' ≠ key) (value : α) (entries : List (String × α)) :
    (insertEntry key value entries).lookup key' = entries.lookup key' := by
  induction entries with
  | nil => simp [insertEntry, List.lookup_cons, beq_false_of_ne h]
  | cons entry rest ih =>
    unfold insertEntry
    split
    · rw [List.lookup_cons, beq_false_of_ne h]
    · split
      · rename_i heq
        subst heq
        rw [List.lookup_cons, List.lookup_cons, beq_false_of_ne h]
      · rw [List.lookup_cons, List.lookup_cons, ih]

theorem get?_insert_self (m : TextMap α) (key : String) (value : α) :
    (m.insert key value).get? key = some value :=
  lookup_insertEntry_self key value m.entries

theorem get?_insert_of_ne {key key' : String} (h : key' ≠ key) (value : α) (m : TextMap α) :
    (m.insert key value).get? key' = m.get? key' :=
  lookup_insertEntry_of_ne h value m.entries

/-! ### Entries in another order -/

theorem insertEntry_comm_of_lt {key key' : String} (h : key < key') (value value' : α)
    (entries : List (String × α)) :
    insertEntry key value (insertEntry key' value' entries) =
      insertEntry key' value' (insertEntry key value entries) := by
  have hne : key' ≠ key := fun heq => String.lt_irrefl key (heq ▸ h)
  have hnot : ¬ key' < key := String.lt_asymm h
  induction entries with
  | nil => simp [insertEntry, h, hne, hnot]
  | cons entry rest ih =>
    -- Where the greater key is not passed by, the smaller one stands before it.
    have hlt : key' < entry.1 → key < entry.1 := String.lt_trans h
    have heq : key' = entry.1 → key < entry.1 := fun heq => heq ▸ h
    have hself : ¬ entry.1 < entry.1 := String.lt_irrefl entry.1
    grind [insertEntry]

theorem insert_comm {key key' : String} (h : key ≠ key') (value value' : α) (m : TextMap α) :
    (m.insert key value).insert key' value' = (m.insert key' value').insert key value := by
  have hentries : insertEntry key' value' (insertEntry key value m.entries) =
      insertEntry key value (insertEntry key' value' m.entries) := by
    by_cases hlt : key < key'
    · exact (insertEntry_comm_of_lt hlt value value' m.entries).symm
    · have hgt : key' < key := Std.lt_of_le_of_ne (String.not_lt.mp hlt) h.symm
      exact insertEntry_comm_of_lt hgt value' value m.entries
  simp only [insert, hentries]

end Manifests.TextMap
