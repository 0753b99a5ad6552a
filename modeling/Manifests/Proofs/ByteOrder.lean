import Manifests.TextMap

/-! # The order of texts by their bytes

Texts are compared character by character. In UTF-8 this is the order of their bytes: of two characters, the one with
the greater code has the greater byte where their encodings first differ, and they do differ before either ends. So a
map has its keys in increasing order of their bytes. -/

namespace Manifests

open String

/-- The bytes of a text in UTF-8. -/
def utf8Bytes (s : String) : List UInt8 := s.toUTF8.data.toList

theorem utf8Bytes_eq (s : String) : utf8Bytes s = s.toList.flatMap utf8EncodeChar := by
  rw [utf8Bytes, toUTF8, ← utf8Encode_toList, List.utf8Encode, List.toList_data_toByteArray]

/-! ### Bytes -/

section
variable {m n : Nat}

theorem ofNat_lt_ofNat_iff (hm : m < 256) (hn : n < 256) : UInt8.ofNat m < UInt8.ofNat n ↔ m < n := by
  rw [UInt8.lt_iff_toNat_lt, UInt8.toNat_ofNat', UInt8.toNat_ofNat', Nat.mod_eq_of_lt hm, Nat.mod_eq_of_lt hn]

theorem ofNat_eq_ofNat_iff (hm : m < 256) (hn : n < 256) : UInt8.ofNat m = UInt8.ofNat n ↔ m = n := by
  rw [← UInt8.toNat_inj, UInt8.toNat_ofNat', UInt8.toNat_ofNat', Nat.mod_eq_of_lt hm, Nat.mod_eq_of_lt hn]

end

/-- The bytes of a smaller character are smaller, whatever bytes follow. -/
theorem utf8EncodeChar_append_lt {c d : Char} (h : c < d) (bytes bytes' : List UInt8) :
    utf8EncodeChar c ++ bytes < utf8EncodeChar d ++ bytes' := by
  have hcode : c.val.toNat < d.val.toNat := h
  have hmax : d.val.toNat < 1114112 := by
    have hvalid := d.valid
    rw [UInt32.isValidChar, Nat.isValidChar] at hvalid
    omega
  unfold utf8EncodeChar
  generalize c.val.toNat = v at *
  generalize d.val.toNat = w at *
  -- The bytes carry the digits of the code to the base 64.
  have hv : v / 64 / 64 = v / 4096 ∧ v / 4096 / 64 = v / 262144 := by simp [Nat.div_div_eq_div_mul]
  have hw : w / 64 / 64 = w / 4096 ∧ w / 4096 / 64 = w / 262144 := by simp [Nat.div_div_eq_div_mul]
  have hhead : v / 262144 % 8 = v / 262144 ∧ w / 262144 % 8 = w / 262144 := by omega
  dsimp only
  -- There is one case for each pair of lengths.
  repeat' split
  all_goals
    simp (disch := omega) only [List.cons_append, List.nil_append, List.cons_lt_cons_iff, ofNat_lt_ofNat_iff,
      ofNat_eq_ofNat_iff]
    omega

/-! ### Texts -/

theorem flatMap_utf8EncodeChar_lt {cs ds : List Char} (h : cs < ds) :
    cs.flatMap utf8EncodeChar < ds.flatMap utf8EncodeChar := by
  induction cs generalizing ds with
  | nil =>
    cases ds with
    | nil => exact absurd h (List.lt_irrefl [])
    | cons d ds =>
      have hne : utf8EncodeChar d ++ ds.flatMap utf8EncodeChar ≠ [] := by simp
      obtain ⟨byte, bytes, hbytes⟩ := List.exists_cons_of_ne_nil hne
      rw [List.flatMap_nil, List.flatMap_cons, hbytes]
      exact List.nil_lt_cons byte bytes
  | cons c cs ih =>
    cases ds with
    | nil => exact absurd h (List.not_lt_nil _)
    | cons d ds =>
      rw [List.flatMap_cons, List.flatMap_cons]
      rcases List.cons_lt_cons_iff.mp h with hlt | ⟨rfl, htail⟩
      · exact utf8EncodeChar_append_lt hlt _ _
      · exact List.append_left_lt (ih htail)

/-- The order of texts is that of their bytes. -/
theorem lt_iff_utf8Bytes_lt {s t : String} : s < t ↔ utf8Bytes s < utf8Bytes t := by
  have hmono {s t : String} (h : s < t) : utf8Bytes s < utf8Bytes t := by
    rw [utf8Bytes_eq, utf8Bytes_eq]
    exact flatMap_utf8EncodeChar_lt h
  refine ⟨hmono, fun h => Decidable.byContradiction fun hnot => ?_⟩
  by_cases heq : t = s
  · exact List.lt_irrefl _ (heq ▸ h)
  · exact List.lt_asymm h (hmono (Std.lt_of_le_of_ne (String.not_lt.mp hnot) heq))

/-- Keys are in increasing order of their bytes. -/
def InByteOrder (keys : List String) : Prop := keys.Pairwise fun key key' => utf8Bytes key < utf8Bytes key'

theorem TextMap.inByteOrder {α : Type} (m : TextMap α) : InByteOrder (m.entries.map (·.1)) :=
  List.pairwise_map.mpr (m.sorted.imp lt_iff_utf8Bytes_lt.mp)

end Manifests
