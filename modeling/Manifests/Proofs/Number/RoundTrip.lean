import Manifests.Number.Reading
import Manifests.Proofs.Number.Shortest
import Manifests.Proofs.NumberTexts

/-! # Reading back the text of a double

The text of a double is read as that double (`read?_text`), so that different doubles have different texts
(`text_injective`). -/

namespace Manifests

/-! ### Digits -/

namespace Number

theorem decimalDigits_append_zeros {n : Nat} (hn : 0 < n) (k : Nat) :
    decimalDigits n ++ List.replicate k '0' = decimalDigits (n * 10 ^ k) := by
  induction k with
  | zero => simp
  | succ k ih =>
    rw [List.replicate_succ', ← List.append_assoc, ih]
    have hpos : 0 < n * 10 ^ k := Nat.mul_pos hn (Nat.pow_pos (by decide))
    have happend := Nat.toDigits_append_toDigits (b := 10) (d := 0) (by decide) hpos (by decide)
    rw [Nat.toDigits_zero] at happend
    rw [decimalDigits, happend, decimalDigits, pow_succ, add_zero]
    congr 1
    ring

theorem decimalValue_zeros_append (k : Nat) (cs : List Char) :
    decimalValue (List.replicate k '0' ++ cs) = decimalValue cs := by
  induction k with
  | zero => rfl
  | succ k ih => exact ih

end Number

namespace Binary64

/-! ### Positional texts -/

/-- The zeros that are taken off are powers of ten. -/
theorem trimZeros_spec {fuel c c' : Nat} {g g' : Int} (h : trimZeros fuel c g = (c', g')) :
    ∃ k : Nat, c = c' * 10 ^ k ∧ g' = g + k := by
  induction fuel generalizing c g with
  | zero =>
    obtain ⟨rfl, rfl⟩ := Prod.mk.inj h
    exact ⟨0, by simp, by simp⟩
  | succ fuel ih =>
    unfold trimZeros at h
    split at h
    · rename_i hc
      obtain ⟨k, hk, rfl⟩ := ih h
      refine ⟨k + 1, ?_, by push_cast; ring⟩
      rw [pow_succ, ← mul_assoc, ← hk]
      omega
    · obtain ⟨rfl, rfl⟩ := Prod.mk.inj h
      exact ⟨0, by simp, by simp⟩

/-- Digits with no point. -/
theorem readUnsigned?_whole {digits : List Char} (h : Number.IsDecimal digits) :
    readUnsigned? digits = some (Number.decimalValue digits, 0) := by
  have htake : digits.takeWhile Number.isDigit = digits := List.takeWhile_eq_self_iff.mpr h.digits
  have hdrop : digits.dropWhile Number.isDigit = [] := List.dropWhile_eq_nil_iff.mpr h.digits
  have hread := Number.readNat?_eq_some_iff.mpr ⟨h, rfl⟩
  simp [readUnsigned?, htake, hdrop, hread, readExponent?]

/-- Digits on both sides of a point. -/
theorem readUnsigned?_point {whole places : List Char} (h : Number.IsDecimal (whole ++ places)) :
    readUnsigned? (whole ++ '.' :: places) = some (Number.decimalValue (whole ++ places), -(places.length : Int)) := by
  obtain ⟨hwhole, hplaces⟩ := List.forall_mem_append.mp h.digits
  have htake : (whole ++ '.' :: places).takeWhile Number.isDigit = whole := by
    rw [List.takeWhile_append_of_pos hwhole, List.takeWhile_cons_of_neg (by decide), List.append_nil]
  have hdrop : (whole ++ '.' :: places).dropWhile Number.isDigit = '.' :: places := by
    rw [List.dropWhile_append_of_pos hwhole, List.dropWhile_cons_of_neg (by decide)]
  have htake' : places.takeWhile Number.isDigit = places := List.takeWhile_eq_self_iff.mpr hplaces
  have hdrop' : places.dropWhile Number.isDigit = [] := List.dropWhile_eq_nil_iff.mpr hplaces
  have hread := Number.readNat?_eq_some_iff.mpr ⟨h, rfl⟩
  simp [readUnsigned?, htake, hdrop, htake', hdrop', hread, readExponent?]

/-- Without places the digits are those of a whole number. -/
theorem positional_whole {c : Nat} (hc : 0 < c) (g : Nat) : positional c g = Number.decimalDigits (c * 10 ^ g) := by
  rcases htrim : trimZeros 17 c g with ⟨c', g'⟩
  obtain ⟨k, rfl, rfl⟩ := trimZeros_spec htrim
  have hexponent : ((g : Int) + k).toNat = k + g := by omega
  unfold positional
  rw [htrim]
  dsimp only
  rw [if_pos (by omega), hexponent, Number.decimalDigits_append_zeros (Nat.pos_of_mul_pos_right hc), pow_add, mul_assoc]

/-- The number that a positional text writes is read from it. -/
theorem readUnsigned?_positional {c : Nat} (hc : 0 < c) (g : Int) :
    ∃ digits exponent, readUnsigned? (positional c g) = some (digits, exponent) ∧
      (digits : ℚ) * 10 ^ exponent = c * 10 ^ g := by
  rcases htrim : trimZeros 17 c g with ⟨c', g'⟩
  obtain ⟨k, rfl, hg'⟩ := trimZeros_spec htrim
  have hvalue : ((c' * 10 ^ k : Nat) : ℚ) * 10 ^ g = c' * 10 ^ g' := by
    rw [hg', add_comm, zpow_add₀ (by norm_num), zpow_natCast]
    push_cast
    ring
  rw [hvalue]
  unfold positional
  rw [htrim]
  dsimp only
  split
  · rename_i hwhole
    obtain ⟨n, rfl⟩ := Int.eq_ofNat_of_zero_le hwhole
    rw [Int.toNat_natCast, Number.decimalDigits_append_zeros (Nat.pos_of_mul_pos_right hc)]
    refine ⟨_, _, readUnsigned?_whole (Number.isDecimal_decimalDigits _), ?_⟩
    rw [Number.decimalValue_decimalDigits, zpow_zero, mul_one, zpow_natCast]
    push_cast
    ring
  · let places := (-g').toNat
    let padded := List.replicate (places + 1 - (Number.decimalDigits c').length) '0' ++ Number.decimalDigits c'
    have hlength : places ≤ padded.length := by
      simp only [padded, List.length_append, List.length_replicate]
      omega
    have hsplit : padded.take (padded.length - places) ++ padded.drop (padded.length - places) = padded :=
      List.take_append_drop _ _
    have hdecimal : Number.IsDecimal padded := by
      have hdigits := Number.isDecimal_decimalDigits c'
      refine ⟨List.append_ne_nil_of_right_ne_nil _ hdigits.nonempty, List.forall_mem_append.mpr ⟨fun d hd => ?_,
        hdigits.digits⟩⟩
      rw [List.eq_of_mem_replicate hd]
      rfl
    refine ⟨_, _, readUnsigned?_point (hsplit.symm ▸ hdecimal), ?_⟩
    have hplaces : -((padded.drop (padded.length - places)).length : Int) = g' := by
      rw [List.length_drop]
      omega
    rw [hsplit, hplaces, Number.decimalValue_zeros_append, Number.decimalValue_decimalDigits]

/-! ### Texts with a sign -/

theorem toLower_of_isDigit {c : Char} (h : c.isDigit = true) : c.toLower = c := by
  simp only [Char.isDigit, Bool.and_eq_true, decide_eq_true_eq, ge_iff_le] at h
  unfold Char.toLower
  split
  · rename_i hupper
    have hnine := UInt32.le_iff_toNat_le.mp h.2
    have hletter := UInt32.le_iff_toNat_le.mp hupper.1
    simp at hnine hletter
    omega
  · rfl

section
variable {negative : Bool} {cs : List Char}

/-- Digits and points are no word, so they are read as a number. -/
theorem readMagnitude?_of_digits (h : ∀ c ∈ cs, c.isDigit = true ∨ c = '.') :
    readMagnitude? negative cs =
      (readUnsigned? cs).map fun (digits, exponent) => ofDecimal negative digits exponent := by
  have hlower : cs.map Char.toLower = cs := by
    refine (List.map_congr_left fun c hc => ?_).trans (List.map_id cs)
    rcases h c hc with hdigit | rfl
    · exact toLower_of_isDigit hdigit
    · rfl
  have hword {word : String} (hn : 'n' ∈ word.toList) : String.ofList cs ≠ word := by
    rintro rfl
    rw [String.toList_ofList] at hn
    exact absurd (h 'n' hn) (by decide)
  unfold readMagnitude?
  rw [hlower, if_neg (hword (by decide)), if_neg (not_or.mpr ⟨hword (by decide), hword (by decide)⟩)]

theorem read?_signed (h : ∀ c ∈ cs, c.isDigit = true ∨ c = '.') :
    read? (signText negative ++ cs) =
      (readUnsigned? cs).map fun (digits, exponent) => ofDecimal negative digits exponent := by
  rw [← readMagnitude?_of_digits h]
  cases negative with
  | true => rfl
  | false =>
    rw [signText, if_neg Bool.false_ne_true, List.nil_append]
    unfold read?
    split
    · exact absurd (h '-' List.mem_cons_self) (by decide)
    · exact absurd (h '+' List.mem_cons_self) (by decide)
    · rfl

end

/-! ### Doubles -/

section
variable {negative : Bool} {mantissa : Nat} {exponent : Int}

theorem two_pow_lt_ten_pow : 2 ^ 1024 < 10 ^ 309 := by decide +kernel

theorem two_pow_lt_ten_pow' : 2 ^ 1075 < 10 ^ 330 := by decide +kernel

/-- The numbers in the interval of a double are neither too large nor too small to be read. -/
theorem Interval.Has.bounds (hnormal : Normalized mantissa exponent) (hpos : 0 < mantissa) {r : ℚ}
    (h : (interval mantissa exponent).Has r) : (10 : ℚ) ^ (-330 : Int) < r ∧ r < 10 ^ (309 : Int) := by
  have hgap := gap_le mantissa exponent
  obtain ⟨hlow, hhigh⟩ := ((interval_has_iff hpos).mp h).le
  have hr : r = r * 2 ^ (-exponent) * 2 ^ exponent := by
    rw [mul_assoc, ← two_zpow_add, neg_add_cancel, zpow_zero, mul_one]
  have hone : (1 : ℚ) ≤ mantissa := by exact_mod_cast hpos
  have hbounded : (mantissa : ℚ) + 1 ≤ 2 ^ 53 := by exact_mod_cast hnormal.bounded
  constructor
  · calc (10 : ℚ) ^ (-330 : Int)
      _ < 2 ^ (-1075 : Int) := by
          rw [zpow_neg, zpow_neg, inv_lt_inv₀ (ten_zpow_pos _) (two_zpow_pos _)]
          exact_mod_cast two_pow_lt_ten_pow'
      _ = 2 ^ (-1 : Int) * 2 ^ (-1074 : Int) := by rw [← two_zpow_add]; rfl
      _ ≤ r * 2 ^ (-exponent) * 2 ^ exponent := by
          have hleast : (2 : ℚ) ^ (-1074 : Int) ≤ 2 ^ exponent := zpow_le_zpow_right₀ (by norm_num) hnormal.least
          have hunit : (2 : ℚ) ^ (-1 : Int) = 1 / 2 := by norm_num
          have hhalf : (2 : ℚ) ^ (-1 : Int) ≤ r * 2 ^ (-exponent) := by
            rw [hunit]
            linarith
          exact mul_le_mul hhalf hleast (two_zpow_pos _).le ((two_zpow_pos _).le.trans hhalf)
      _ = r := hr.symm
  · calc r
      _ = r * 2 ^ (-exponent) * 2 ^ exponent := hr
      _ ≤ 2 ^ (53 : Int) * 2 ^ (971 : Int) := by
          have hgreatest : (2 : ℚ) ^ exponent ≤ 2 ^ (971 : Int) :=
            zpow_le_zpow_right₀ (by norm_num) hnormal.greatest
          have hpow : (2 : ℚ) ^ (53 : Int) = 2 ^ 53 := by norm_num
          have hbelow : r * 2 ^ (-exponent) ≤ 2 ^ (53 : Int) := by linarith
          exact mul_le_mul hbelow hgreatest (two_zpow_pos _).le (two_zpow_pos _).le
      _ = 2 ^ (1024 : Int) := by rw [← two_zpow_add]; rfl
      _ < 10 ^ (309 : Int) := by exact_mod_cast two_pow_lt_ten_pow

theorem pos_of_has (hnormal : Normalized mantissa exponent) (hpos : 0 < mantissa) {digits : Nat} {e : Int}
    (h : (interval mantissa exponent).Has (digits * 10 ^ e)) : 0 < digits := by
  rw [Nat.pos_iff_ne_zero]
  rintro rfl
  have hlow := (h.bounds hnormal hpos).1
  rw [Nat.cast_zero, zero_mul] at hlow
  exact lt_asymm hlow (ten_zpow_pos _)

/-- A number in the interval of a double is read as it. -/
theorem ofDecimal_eq (hnormal : Normalized mantissa exponent) (hpos : 0 < mantissa) {digits : Nat} {e : Int}
    (h : (interval mantissa exponent).Has (digits * 10 ^ e)) :
    ofDecimal negative digits e = .finite negative mantissa exponent := by
  obtain ⟨hlow, hhigh⟩ := h.bounds hnormal hpos
  have hdigits := pos_of_has hnormal hpos h
  -- The digits and the exponent give the size of the number.
  let size : Int := (Nat.toDigits 10 digits).length + e
  have hlength : 0 < (Nat.toDigits 10 digits).length := List.length_pos_of_ne_nil Nat.toDigits_ne_nil
  have hsize : size - 1 < 309 := by
    have hpow : (10 : ℚ) ^ (size - 1) ≤ digits * 10 ^ e := by
      have hexponent : size - 1 = ((Nat.toDigits 10 digits).length - 1 : Nat) + e := by omega
      have hle : (10 : ℚ) ^ ((Nat.toDigits 10 digits).length - 1) ≤ digits := by
        exact_mod_cast Number.pow_le_of_pos hdigits
      rw [hexponent, zpow_add₀ (by norm_num), zpow_natCast]
      exact mul_le_mul_of_nonneg_right hle (ten_zpow_pos e).le
    exact (zpow_lt_zpow_iff_right₀ (by norm_num : (1 : ℚ) < 10)).mp (hpow.trans_lt hhigh)
  have hsize' : -330 < size := by
    have hpow : digits * 10 ^ e < (10 : ℚ) ^ size := by
      have hlt : (digits : ℚ) < 10 ^ (Nat.toDigits 10 digits).length := by
        exact_mod_cast Number.lt_pow_length digits
      simp only [size]
      rw [zpow_add₀ (by norm_num), zpow_natCast]
      exact mul_lt_mul_of_pos_right hlt (ten_zpow_pos e)
    exact (zpow_lt_zpow_iff_right₀ (by norm_num : (1 : ℚ) < 10)).mp (hlow.trans hpow)
  have hratio : ((digits * tenTo e : Nat) : ℚ) / tenTo (-e) = digits * 10 ^ e := by
    rw [← tenTo_div]
    push_cast
    ring
  unfold ofDecimal
  rw [if_neg hdigits.ne']
  dsimp only
  rw [if_neg (by omega), if_neg (by omega)]
  exact ofRatio_eq hnormal hpos (Nat.mul_pos hdigits (tenTo_pos _)) (tenTo_pos _) (hratio ▸ h)

/-- The text of a double is read as that double. -/
theorem read?_text {x : Binary64} (h : x.Canonical) : read? x.text.toList = some x := by
  cases x with
  | nan => rfl
  | infinity negative => cases negative <;> rfl
  | finite negative mantissa exponent =>
    cases mantissa with
    | zero =>
      obtain rfl : exponent = leastExponent := h.full.resolve_left (by decide)
      cases negative <;> rfl
    | succ mantissa =>
      let shortest := (interval (mantissa + 1) exponent).shortest
      have htext : (finite negative (mantissa + 1) exponent).text =
          String.ofList (signText negative ++ positional shortest.1 shortest.2) := rfl
      have hhas := shortest_has h (Nat.succ_pos mantissa)
      have hpos := pos_of_has h (Nat.succ_pos mantissa) hhas
      obtain ⟨digits, e, hread, hvalue⟩ := readUnsigned?_positional hpos shortest.2
      rw [htext, String.toList_ofList, read?_signed fun c => digit_or_point_of_mem_positional, hread, Option.map_some]
      exact congrArg some (ofDecimal_eq h (Nat.succ_pos mantissa) (hvalue ▸ hhas))

end

theorem text_injective {x y : Binary64} (hx : x.Canonical) (hy : y.Canonical) (h : x.text = y.text) : x = y := by
  have hread := read?_text hx
  rw [h, read?_text hy] at hread
  exact (Option.some.inj hread).symm

/-! ### What is read -/

theorem ofDecimal_canonical (negative : Bool) (digits : Nat) (exponent : Int) :
    (ofDecimal negative digits exponent).Canonical := by
  unfold ofDecimal
  split
  · exact zero_canonical negative
  · dsimp only
    split
    · trivial
    · split
      · exact zero_canonical negative
      · exact ofRatio_canonical (tenTo_pos _)

theorem readMagnitude?_canonical {negative : Bool} {cs : List Char} {x : Binary64}
    (h : readMagnitude? negative cs = some x) : x.Canonical := by
  unfold readMagnitude? at h
  dsimp only at h
  split at h
  · cases h
    trivial
  · split at h
    · cases h
      trivial
    · obtain ⟨⟨digits, exponent⟩, -, rfl⟩ := Option.map_eq_some_iff.mp h
      exact ofDecimal_canonical negative digits exponent

/-- A double that is read is canonical. -/
theorem read?_canonical {cs : List Char} {x : Binary64} (h : read? cs = some x) : x.Canonical := by
  unfold read? at h
  split at h <;> exact readMagnitude?_canonical h

end Binary64

end Manifests
