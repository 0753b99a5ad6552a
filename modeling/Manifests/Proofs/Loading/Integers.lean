import Manifests.DeclarationFile
import Manifests.Proofs.Number.RoundTrip

/-! # The texts of whole numbers

A whole number of a document keeps its digits if it is a signed 64-bit number. One that fits an unsigned word only is
rounded to a double, and its text is that of another number that the same double stands for, with at most seventeen
digits in front of zeros (`Value.ofInt_text`). -/

namespace Manifests

namespace Binary64

theorem ofInt_natCast (n : Nat) : ofInt n = ofRatio false n 1 := by
  rw [ofInt, Int.natAbs_natCast, decide_eq_false (not_lt.mpr (Int.natCast_nonneg n))]

/-- A whole number with sixty-four bits is rounded to a double that has as many. -/
theorem ofInt_large {n : Nat} (hlow : 2 ^ 63 ≤ n) (hhigh : n < 2 ^ 64) :
    ∃ mantissa exponent, ofInt n = .finite false mantissa exponent ∧ 0 < mantissa ∧
      (2 : ℚ) ^ 63 ≤ mantissa * 2 ^ exponent := by
  have hpos : 0 < n := (Nat.pow_pos (by decide)).trans_le hlow
  have hlow' : (2 : ℚ) ^ 63 ≤ n := by exact_mod_cast hlow
  have hhigh' : (n : ℚ) < 2 ^ 64 := by exact_mod_cast hhigh
  have hunits := ratioLog2_lt_iff hpos Nat.one_pos 11
  have habove : ratioLog2 n 1 < 11 + 53 := (hunits 53).mpr (by norm_num; linarith)
  have hbelow : ¬ratioLog2 n 1 < 11 + 52 := mt (hunits 52).mp (not_lt.mpr (by norm_num; linarith))
  rcases hscaled : scaled n 1 (-11) with ⟨num, den⟩
  obtain ⟨hden, hratio⟩ := scaled_eq hscaled Nat.one_pos
  have hunit : (num : ℚ) / den = n / 2 ^ 11 := by
    rw [hratio]
    norm_num
    ring
  have hfull : 2 ^ 52 ≤ roundHalfEven num den := by
    refine le_roundHalfEven hden ?_
    rw [hunit]
    push_cast
    linarith
  have hcarry : roundHalfEven num den ≤ 2 ^ 53 := by
    refine roundHalfEven_le hden ?_
    rw [hunit]
    push_cast
    linarith
  rw [ofInt_natCast, ofRatio_of_round hpos (by unfold leastExponent; omega) hscaled]
  rcases hcarry.lt_or_eq with hlt | heq
  · refine ⟨_, 11, assemble_eq hlt (by decide), (Nat.pow_pos (by decide)).trans_le hfull, ?_⟩
    have : (2 : ℚ) ^ 52 ≤ roundHalfEven num den := by exact_mod_cast hfull
    have hpow : (2 : ℚ) ^ (11 : Int) = 2 ^ 11 := by norm_num
    rw [hpow]
    linarith
  · rw [heq]
    have hexponent : (11 : Int) + 1 ≤ greatestExponent := by decide
    exact ⟨2 ^ 52, 12, assemble_carry hexponent, Nat.pow_pos (by decide), by norm_num⟩

/-- The text of a large double is that of a whole number that is rounded to it. -/
theorem text_of_large {mantissa : Nat} {exponent : Int} (hnormal : Normalized mantissa exponent) (hpos : 0 < mantissa)
    (h : (10 : ℚ) ^ 18 ≤ mantissa * 2 ^ exponent) :
    ∃ m : Nat, (finite false mantissa exponent).text = Number.decimal m ∧ 100 ∣ m ∧
      ofInt m = .finite false mantissa exponent := by
  rcases hshortest : (interval mantissa exponent).shortest with ⟨c, g⟩
  have hhas := shortest_has hnormal hpos
  have hzeros := le_shortest_exponent (k := 2) hnormal hpos h
  rw [hshortest] at hhas hzeros
  obtain ⟨zeros, rfl⟩ := Int.eq_ofNat_of_zero_le (by omega : 0 ≤ g)
  have hc := pos_of_has hnormal hpos hhas
  refine ⟨c * 10 ^ zeros, ?_, ?_, ?_⟩
  · obtain ⟨k, rfl⟩ := Nat.exists_eq_succ_of_ne_zero hpos.ne'
    have htext : (finite false (k + 1) exponent).text =
        String.ofList (positional (interval (k + 1) exponent).shortest.1 (interval (k + 1) exponent).shortest.2) := rfl
    rw [htext, hshortest]
    exact congrArg String.ofList (positional_whole hc zeros)
  · exact Dvd.dvd.mul_left (pow_dvd_pow 10 (by omega : 2 ≤ zeros)) c
  · rw [ofInt_natCast]
    refine ofRatio_eq hnormal hpos (Nat.mul_pos hc (Nat.pow_pos (by decide))) Nat.one_pos ?_
    rw [Nat.cast_one, div_one]
    push_cast
    simpa using hhas

end Binary64

namespace Value

/-- The digits of a whole number are kept below `2 ^ 63`. From there on they are those of a multiple of a hundred that
    is rounded to the same double. -/
theorem ofInt_text {n : Int} (hlow : -2 ^ 63 ≤ n) (hhigh : n < 2 ^ 64) :
    (n < 2 ^ 63 → (ofInt n).scalarText? = some (Number.decimal n)) ∧
    (2 ^ 63 ≤ n → ∃ m : Int, (ofInt n).scalarText? = some (Number.decimal m) ∧ 100 ∣ m ∧
      Binary64.ofInt m = Binary64.ofInt n) ∧
    (2 ^ 63 ≤ n → ¬100 ∣ n → (ofInt n).scalarText? ≠ some (Number.decimal n)) := by
  have hlarge (h : 2 ^ 63 ≤ n) : ∃ m : Int, (ofInt n).scalarText? = some (Number.decimal m) ∧ 100 ∣ m ∧
      Binary64.ofInt m = Binary64.ofInt n := by
    have hnone : Number.toInt64? n = none := Number.toInt64?_eq_none_iff.mpr (.inr h)
    obtain ⟨k, rfl⟩ := Int.eq_ofNat_of_zero_le (by omega : 0 ≤ n)
    obtain ⟨mantissa, exponent, hdouble, hpos, hsize⟩ := Binary64.ofInt_large (by omega) (by omega : k < 2 ^ 64)
    have hnormal : Binary64.Normalized mantissa exponent := by
      have hcanonical : (Binary64.ofRatio false k 1).Canonical := Binary64.ofRatio_canonical Nat.one_pos
      rwa [← Binary64.ofInt_natCast, hdouble] at hcanonical
    obtain ⟨m, htext, hdvd, hround⟩ := Binary64.text_of_large hnormal hpos (by linarith)
    refine ⟨m, ?_, by exact_mod_cast hdvd, hround.trans hdouble.symm⟩
    rw [ofInt, hnone, hdouble]
    exact congrArg some htext
  refine ⟨fun h => ?_, hlarge, fun h hdvd htext => ?_⟩
  · obtain ⟨i, hi⟩ := Option.isSome_iff_exists.mp (Number.toInt64?_isSome_iff.mpr ⟨hlow, h⟩)
    rw [ofInt, hi, ← Number.toInt64?_eq_some_iff.mp hi]
    rfl
  · obtain ⟨m, hm, hdvd', -⟩ := hlarge h
    rw [hm, Option.some.injEq] at htext
    exact hdvd (Number.decimal_injective htext ▸ hdvd')

/-- The largest signed number keeps its digits, and the largest unsigned one is read as a multiple of a hundred. -/
theorem ofInt_text_largest :
    (ofInt (2 ^ 63 - 1)).scalarText? = some (Number.decimal (2 ^ 63 - 1)) ∧
      ∃ m : Int, (ofInt (2 ^ 64 - 1)).scalarText? = some (Number.decimal m) ∧ 100 ∣ m ∧
        Binary64.ofInt m = Binary64.ofInt (2 ^ 64 - 1) :=
  ⟨(ofInt_text (by decide) (by decide)).1 (by decide), (ofInt_text (by decide) (by decide)).2.1 (by decide)⟩

/-- The last digits of the largest unsigned number are lost. -/
theorem largest_digits_lost :
    (ofInt 18446744073709551615).scalarText? = some "18446744073709552000" ∧
      (ofInt 18446744073709551615).scalarText? ≠ some (Number.decimal 18446744073709551615) := by
  decide +kernel

end Value

end Manifests
