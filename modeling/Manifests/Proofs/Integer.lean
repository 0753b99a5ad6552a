import Manifests.Number.Digits
import Manifests.Text.Blank
import Mathlib.Algebra.Ring.Int.Defs
import Mathlib.Algebra.Ring.Nat
import Mathlib.Data.List.TakeWhile

/-! # Integers as written

Which texts write a signed 64-bit number: decimal digits, with a sign in front or not, whose number fits into
64 bits (`IsInt64`). Reading succeeds for exactly these, and with trimming for those that have blanks put to their
ends (`readInt64?_trim_isSome_iff`). -/

namespace Manifests

namespace Number

/-- One decimal digit or more. -/
structure IsDecimal (digits : List Char) : Prop where
  nonempty : digits ≠ []
  digits : ∀ c ∈ digits, isDigit c = true

/-- The number that decimal digits write, read on from `n`. -/
def decimalValueFrom (n : Nat) (digits : List Char) : Nat :=
  digits.foldl (fun n c => n * 10 + (c.toNat - '0'.toNat)) n

/-- The number that decimal digits write. -/
def decimalValue (digits : List Char) : Nat := decimalValueFrom 0 digits

/-- A text writes a signed 64-bit number. -/
inductive IsInt64 : List Char → Prop
  | unsigned {digits} : IsDecimal digits → decimalValue digits < 2 ^ 63 → IsInt64 digits
  | plus {digits} : IsDecimal digits → decimalValue digits < 2 ^ 63 → IsInt64 ('+' :: digits)
  | minus {digits} : IsDecimal digits → decimalValue digits ≤ 2 ^ 63 → IsInt64 ('-' :: digits)

/-! ### Reading -/

/-- Below ten the values of digits are those of the decimal digits. -/
theorem digitValue?_lt_ten_iff {c : Char} {value : Nat} :
    digitValue? c = some value ∧ value < 10 ↔ isDigit c = true ∧ c.toNat - '0'.toNat = value := by
  unfold digitValue?
  simp only [isDigit, Char.le_def, UInt32.le_iff_toNat_le, Bool.and_eq_true, decide_eq_true_eq]
  have hnat : c.toNat = c.val.toNat := rfl
  have hzero : '0'.val.toNat = 48 := rfl
  have hnine : '9'.val.toNat = 57 := rfl
  have hzero' : '0'.toNat = 48 := rfl
  rw [hnat, hzero, hnine, hzero']
  split
  · rw [Option.some.injEq]
    omega
  · split
    · rw [Option.some.injEq]
      omega
    · split
      · rw [Option.some.injEq]
        omega
      · simp
        omega

theorem readOn?_eq_some_iff {acc n : Nat} {cs : List Char} :
    readOn? 10 acc cs = some n ↔ (∀ c ∈ cs, isDigit c = true) ∧ decimalValueFrom acc cs = n := by
  induction cs generalizing acc with
  | nil => simp [readOn?, decimalValueFrom]
  | cons c cs ih =>
    rw [readOn?, List.forall_mem_cons, decimalValueFrom, List.foldl_cons]
    cases hvalue : digitValue? c with
    | none =>
      have hdigit : isDigit c ≠ true := fun h => by
        have hnone := (digitValue?_lt_ten_iff.mpr ⟨h, rfl⟩).1
        rw [hvalue] at hnone
        cases hnone
      simp [hdigit]
    | some value =>
      by_cases hlt : value < 10
      · obtain ⟨hdigit, rfl⟩ := digitValue?_lt_ten_iff.mp ⟨hvalue, hlt⟩
        simp only [if_pos hlt, ih, hdigit, true_and]
        rfl
      · have hdigit : isDigit c ≠ true := fun h => by
          obtain ⟨hsome, hlt'⟩ := digitValue?_lt_ten_iff.mpr ⟨h, rfl⟩
          obtain rfl := Option.some.inj (hvalue.symm.trans hsome)
          exact hlt hlt'
        simp [if_neg hlt, hdigit]

theorem readNat?_eq_some_iff {n : Nat} {cs : List Char} :
    readNat? 10 cs = some n ↔ IsDecimal cs ∧ decimalValue cs = n := by
  cases cs with
  | nil => exact ⟨(fun h => by cases h), fun h => absurd rfl h.1.nonempty⟩
  | cons c cs =>
    rw [readNat?, readOn?_eq_some_iff]
    · exact ⟨fun h => ⟨⟨List.cons_ne_nil c cs, h.1⟩, h.2⟩, fun h => ⟨h.1.digits, h.2⟩⟩
    · exact List.cons_ne_nil c cs

/-- Digits begin with no sign, so they are read as they stand. -/
theorem IsDecimal.readInt?_eq {cs : List Char} (h : IsDecimal cs) : readInt? 10 cs = some (decimalValue cs : Int) := by
  have hunsigned : readInt? 10 cs = (readNat? 10 cs).map Int.ofNat := by
    unfold readInt?
    split
    · exact absurd (h.digits '+' List.mem_cons_self) (by decide)
    · exact absurd (h.digits '-' List.mem_cons_self) (by decide)
    · rfl
  rw [hunsigned, readNat?_eq_some_iff.mpr ⟨h, rfl⟩]
  rfl

theorem toInt64?_isSome_iff {i : Int} : (toInt64? i).isSome ↔ -2 ^ 63 ≤ i ∧ i < 2 ^ 63 := by
  have hmin : Int64.minValue.toInt = -2 ^ 63 := by decide
  have hmax : Int64.maxValue.toInt = 2 ^ 63 - 1 := by decide
  rw [toInt64?, hmin, hmax]
  split
  · simp
    omega
  · simp
    omega

theorem toInt64?_eq_none_iff {i : Int} : toInt64? i = none ↔ i < -2 ^ 63 ∨ 2 ^ 63 ≤ i := by
  rw [← Option.not_isSome_iff_eq_none, toInt64?_isSome_iff]
  omega

theorem toInt64?_eq_some_iff {i : Int} {n : Int64} : toInt64? i = some n ↔ n.toInt = i := by
  constructor
  · intro h
    obtain ⟨hlow, hhigh⟩ := toInt64?_isSome_iff.mp (Option.isSome_of_eq_some h)
    unfold toInt64? at h
    split at h
    · rw [← Option.some.inj h]
      exact Int64.toInt_ofInt_of_le hlow hhigh
    · cases h
  · rintro rfl
    rw [toInt64?, if_pos ⟨n.minValue_le_toInt, n.toInt_le⟩, Int64.ofInt_toInt]

theorem readInt64?_isSome_iff {cs : List Char} : (readInt64? cs).isSome ↔ IsInt64 cs := by
  have hread {i : Option Int} : (i.bind toInt64?).isSome ↔ ∃ n, i = some n ∧ -2 ^ 63 ≤ n ∧ n < 2 ^ 63 := by
    cases i <;> simp [toInt64?_isSome_iff]
  constructor
  · intro h
    obtain ⟨i, hi, hlow, hhigh⟩ := hread.mp h
    unfold readInt? at hi
    split at hi
    · obtain ⟨n, hn, rfl⟩ := Option.map_eq_some_iff.mp hi
      obtain ⟨hdecimal, rfl⟩ := readNat?_eq_some_iff.mp hn
      rw [Int.ofNat_eq_natCast] at hhigh
      exact .plus hdecimal (by omega)
    · obtain ⟨n, hn, rfl⟩ := Option.map_eq_some_iff.mp hi
      obtain ⟨hdecimal, rfl⟩ := readNat?_eq_some_iff.mp hn
      rw [Int.ofNat_eq_natCast] at hlow
      exact .minus hdecimal (by omega)
    · obtain ⟨n, hn, rfl⟩ := Option.map_eq_some_iff.mp hi
      obtain ⟨hdecimal, rfl⟩ := readNat?_eq_some_iff.mp hn
      rw [Int.ofNat_eq_natCast] at hhigh
      exact .unsigned hdecimal (by omega)
  · intro h
    refine hread.mpr ?_
    cases h with
    | plus hdecimal hlt =>
      refine ⟨_, by rw [readInt?, readNat?_eq_some_iff.mpr ⟨hdecimal, rfl⟩, Option.map_some], ?_⟩
      rw [Int.ofNat_eq_natCast]
      omega
    | minus hdecimal hle =>
      refine ⟨_, by rw [readInt?, readNat?_eq_some_iff.mpr ⟨hdecimal, rfl⟩, Option.map_some], ?_⟩
      rw [Int.ofNat_eq_natCast]
      omega
    | unsigned hdecimal hlt => exact ⟨decimalValue cs, hdecimal.readInt?_eq, by omega, by omega⟩

theorem isBlank_of_isDigit {c : Char} (h : isDigit c = true) : Text.isBlank c = false := by
  simp only [isDigit, Char.le_def, UInt32.le_iff_toNat_le, Bool.and_eq_true, decide_eq_true_eq] at h
  have hnat : c.val.toNat = c.toNat := rfl
  have hzero : '0'.val.toNat = 48 := rfl
  have hnine : '9'.val.toNat = 57 := rfl
  rw [hnat, hzero, hnine] at h
  simp [Text.isBlank, Text.blankRanges]
  omega

theorem IsInt64.not_blank {cs : List Char} (h : IsInt64 cs) : ∀ c ∈ cs, Text.isBlank c = false := by
  cases h with
  | unsigned hdecimal => exact fun c hc => isBlank_of_isDigit (hdecimal.digits c hc)
  | plus hdecimal => exact List.forall_mem_cons.mpr ⟨by decide, fun c hc => isBlank_of_isDigit (hdecimal.digits c hc)⟩
  | minus hdecimal => exact List.forall_mem_cons.mpr ⟨by decide, fun c hc => isBlank_of_isDigit (hdecimal.digits c hc)⟩

theorem IsInt64.ne_nil {cs : List Char} (h : IsInt64 cs) : cs ≠ [] := by
  cases h with
  | unsigned hdecimal => exact hdecimal.nonempty
  | plus | minus => exact List.cons_ne_nil _ _

end Number

/-! ### Trimming -/

namespace Text

/-- A text is another one with blanks put to its ends. -/
def Pads (cs inner : List Char) : Prop :=
  ∃ before after, cs = before ++ inner ++ after ∧ (∀ c ∈ before, isBlank c = true) ∧ ∀ c ∈ after, isBlank c = true

theorem pads_self (cs : List Char) : Pads cs cs := ⟨[], [], by simp, nofun, nofun⟩

theorem pads_trim (cs : List Char) : Pads cs (trim cs) := by
  let rest := cs.dropWhile isBlank
  refine ⟨cs.takeWhile isBlank, (rest.reverse.takeWhile isBlank).reverse, ?_, ?_, ?_⟩
  · have hrest : trim cs ++ (rest.reverse.takeWhile isBlank).reverse = rest := by
      rw [trim, ← List.reverse_append, List.takeWhile_append_dropWhile, List.reverse_reverse]
    rw [List.append_assoc, hrest, List.takeWhile_append_dropWhile]
  · exact fun c hc => List.mem_takeWhile_imp hc
  · exact fun c hc => List.mem_takeWhile_imp (List.mem_reverse.mp hc)

theorem dropWhile_append_of_not_blank {cs : List Char} (h : ∀ c ∈ cs, isBlank c = false) (hne : cs ≠ [])
    (after : List Char) : (cs ++ after).dropWhile isBlank = cs ++ after := by
  obtain ⟨c, cs, rfl⟩ := List.exists_cons_of_ne_nil hne
  rw [List.cons_append, List.dropWhile_cons_of_neg (by simp [h c List.mem_cons_self])]

theorem trim_of_pads {cs inner : List Char} (h : Pads cs inner) (hinner : ∀ c ∈ inner, isBlank c = false)
    (hne : inner ≠ []) : trim cs = inner := by
  obtain ⟨before, after, rfl, hbefore, hafter⟩ := h
  have hreverse := dropWhile_append_of_not_blank (fun c hc => hinner c (List.mem_reverse.mp hc))
    (List.reverse_ne_nil_iff.mpr hne) []
  rw [List.append_nil] at hreverse
  rw [trim, List.append_assoc, List.dropWhile_append_of_pos hbefore, dropWhile_append_of_not_blank hinner hne,
    List.reverse_append, List.dropWhile_append_of_pos fun c hc => hafter c (List.mem_reverse.mp hc), hreverse,
    List.reverse_reverse]

end Text

namespace Number

/-! ### Writing -/

theorem isDecimal_decimalDigits (n : Nat) : IsDecimal (decimalDigits n) where
  nonempty := Nat.toDigits_ne_nil
  digits _ hc := Nat.isDigit_of_mem_toDigits (by decide) (by decide) hc

theorem decimalValue_decimalDigits (n : Nat) : decimalValue (decimalDigits n) = n := by
  have hvalue : Nat.ofDigitChars 10 (decimalDigits n) 0 = n := Nat.ofDigitChars_ten_toDigits
  simpa only [decimalValue, decimalValueFrom, Nat.ofDigitChars_eq_foldl, Nat.mul_comm 10] using hvalue

/-- An integer is read from its decimal text. -/
theorem readInt?_decimal (i : Int) : readInt? 10 (decimal i).toList = some i := by
  cases i with
  | ofNat n =>
    rw [decimal, String.toList_ofList, (isDecimal_decimalDigits n).readInt?_eq, decimalValue_decimalDigits]
    rfl
  | negSucc n =>
    have hread := readNat?_eq_some_iff.mpr ⟨isDecimal_decimalDigits (n + 1), decimalValue_decimalDigits (n + 1)⟩
    rw [decimal, String.toList_ofList, readInt?, hread]
    rfl

theorem decimal_injective {i j : Int} (h : decimal i = decimal j) : i = j := by
  have hread := readInt?_decimal i
  rw [h, readInt?_decimal] at hread
  exact (Option.some.inj hread).symm

theorem readInt64?_decimal (i : Int64) : readInt64? (decimal i.toInt).toList = some i := by
  rw [readInt64?, readInt?_decimal, Option.bind_some, toInt64?_eq_some_iff]

theorem isInt64_decimal (i : Int64) : IsInt64 (decimal i.toInt).toList :=
  readInt64?_isSome_iff.mp (Option.isSome_of_eq_some (readInt64?_decimal i))

/-- A text writes a signed 64-bit number between blanks exactly if one is read from it when it is trimmed. -/
theorem readInt64?_trim_isSome_iff {cs : List Char} :
    (readInt64? (Text.trim cs)).isSome ↔ ∃ inner, Text.Pads cs inner ∧ IsInt64 inner := by
  rw [readInt64?_isSome_iff]
  constructor
  · exact fun h => ⟨_, Text.pads_trim cs, h⟩
  · rintro ⟨inner, hpads, h⟩
    rwa [Text.trim_of_pads hpads h.not_blank h.ne_nil]

/-- A decimal text has no blanks to trim. -/
theorem readInt64?_trim_decimal (i : Int64) : readInt64? (Text.trim (decimal i.toInt).toList) = some i := by
  have h := isInt64_decimal i
  rw [Text.trim_of_pads (Text.pads_self _) h.not_blank h.ne_nil, readInt64?_decimal]

end Number

end Manifests
