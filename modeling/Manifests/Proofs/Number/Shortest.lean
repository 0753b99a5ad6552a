import Manifests.Proofs.Integer
import Manifests.Proofs.Number.Rounding
import Mathlib.Data.Nat.Digits.Defs
import Mathlib.Tactic.GCongr

/-! # The shortest text of a double

The digits that a double is written with lie in its interval (`shortest_has`): seventeen are always enough, for one
of two neighbours with seventeen digits is nearer than the ends of the interval. -/

namespace Manifests

/-! ### Counts of digits -/

namespace Number

theorem pow_le_of_pos {n : Nat} (hn : 0 < n) : 10 ^ ((decimalDigits n).length - 1) ≤ n := by
  by_contra hlt
  rcases Nat.eq_zero_or_pos ((decimalDigits n).length - 1) with hzero | hpos
  · rw [hzero, pow_zero] at hlt
    omega
  · have := Nat.toDigits_length 10 n _ hpos (not_le.mp hlt)
    unfold decimalDigits at this hpos
    omega

theorem decimalValueFrom_lt {cs : List Char} (hdigits : ∀ c ∈ cs, isDigit c = true) (n : Nat) :
    decimalValueFrom n cs < (n + 1) * 10 ^ cs.length := by
  induction cs generalizing n with
  | nil => simp [decimalValueFrom]
  | cons c cs ih =>
    obtain ⟨hc, hcs⟩ := List.forall_mem_cons.mp hdigits
    have hdigit : c.toNat - '0'.toNat < 10 := (digitValue?_lt_ten_iff.mpr ⟨hc, rfl⟩).2
    calc decimalValueFrom n (c :: cs)
      _ = decimalValueFrom (n * 10 + (c.toNat - '0'.toNat)) cs := rfl
      _ < (n * 10 + (c.toNat - '0'.toNat) + 1) * 10 ^ cs.length := ih hcs _
      _ ≤ (n + 1) * 10 * 10 ^ cs.length := Nat.mul_le_mul_right _ (by omega)
      _ = (n + 1) * 10 ^ (c :: cs).length := by rw [List.length_cons, pow_succ, mul_assoc, mul_comm 10]

theorem lt_pow_length (n : Nat) : n < 10 ^ (decimalDigits n).length := by
  have h := decimalValueFrom_lt (isDecimal_decimalDigits n).digits 0
  rw [← decimalValue, decimalValue_decimalDigits] at h
  omega

end Number

namespace Binary64

theorem twoTo_eq (k : Int) : (twoTo k : ℚ) = 2 ^ k * twoTo (-k) :=
  (div_eq_iff (by exact_mod_cast (twoTo_pos _).ne')).mp (twoTo_div k)

theorem tenTo_eq (k : Int) : (tenTo k : ℚ) = 10 ^ k * tenTo (-k) :=
  (div_eq_iff (by exact_mod_cast (tenTo_pos _).ne')).mp (tenTo_div k)

namespace Interval

variable {I : Interval} {c : Nat} {g : Int}

/-! ### Comparisons -/

/-- A decimal number and a count of quarters are compared as rational numbers. -/
theorem onScale_eq {quarters x y : Nat} (h : I.onScale c g quarters = (x, y)) :
    ∃ s : ℚ, 0 < s ∧ (x : ℚ) = c * 10 ^ g * s ∧ (y : ℚ) = quarters * 2 ^ I.exponent * s := by
  obtain ⟨rfl, rfl⟩ := Prod.mk.inj h
  refine ⟨twoTo (-I.exponent) * tenTo (-g), ?_, ?_, ?_⟩
  · exact mul_pos (by exact_mod_cast twoTo_pos _) (by exact_mod_cast tenTo_pos _)
  · push_cast
    rw [tenTo_eq g]
    ring
  · push_cast
    rw [twoTo_eq I.exponent]
    ring

theorem contains_iff : I.contains c g = true ↔ I.Has (c * 10 ^ g) := by
  rcases hlow : I.onScale c g I.low with ⟨x, low⟩
  rcases hhigh : I.onScale c g I.high with ⟨y, high⟩
  obtain ⟨s, hs, hx, hl⟩ := onScale_eq hlow
  obtain ⟨s', hs', hy, hh⟩ := onScale_eq hhigh
  have hle : low ≤ x ↔ (I.low : ℚ) * 2 ^ I.exponent ≤ c * 10 ^ g := by
    rw [← Nat.cast_le (α := ℚ), hx, hl, mul_le_mul_iff_of_pos_right hs]
  have hlt : low < x ↔ (I.low : ℚ) * 2 ^ I.exponent < c * 10 ^ g := by
    rw [← Nat.cast_lt (α := ℚ), hx, hl, mul_lt_mul_iff_of_pos_right hs]
  have hle' : y ≤ high ↔ (c : ℚ) * 10 ^ g ≤ I.high * 2 ^ I.exponent := by
    rw [← Nat.cast_le (α := ℚ), hy, hh, mul_le_mul_iff_of_pos_right hs']
  have hlt' : y < high ↔ (c : ℚ) * 10 ^ g < I.high * 2 ^ I.exponent := by
    rw [← Nat.cast_lt (α := ℚ), hy, hh, mul_lt_mul_iff_of_pos_right hs']
  unfold contains Has Between
  rw [hlow, hhigh]
  cases I.closed <;> simp [hle, hle', hlt, hlt']

/-! ### The grids -/

/-- The value of an interval's double. -/
def center (I : Interval) : ℚ := I.value * 2 ^ I.exponent

theorem center_mul (I : Interval) : I.center * twoTo (-I.exponent) = (I.value * twoTo I.exponent : Nat) := by
  push_cast
  rw [center, twoTo_eq I.exponent]
  ring

/-- The quotient is the neighbour below on a grid. -/
theorem quotient_spec (I : Interval) (g : Int) :
    (I.quotient g : ℚ) * 10 ^ g ≤ I.center ∧ I.center < (I.quotient g + 1) * 10 ^ g := by
  let num := I.value * twoTo I.exponent * tenTo (-g)
  let den := twoTo (-I.exponent) * tenTo g
  have hden : 0 < den := Nat.mul_pos (twoTo_pos _) (tenTo_pos _)
  let s : ℚ := twoTo (-I.exponent) * tenTo (-g)
  have hs : 0 < s := mul_pos (by exact_mod_cast twoTo_pos _) (by exact_mod_cast tenTo_pos _)
  have hnum : (num : ℚ) = I.center * s := by
    simp only [num, s]
    rw [Nat.cast_mul, ← I.center_mul]
    ring
  have hden' : (den : ℚ) = 10 ^ g * s := by
    simp only [den, s]
    push_cast
    rw [tenTo_eq g]
    ring
  have hquotient : I.quotient g = num / den := rfl
  have hbelow : (I.quotient g : ℚ) * den ≤ num := by exact_mod_cast hquotient ▸ Nat.div_mul_le_self num den
  have habove : (num : ℚ) < I.quotient g * den + den := by
    exact_mod_cast hquotient ▸ Nat.lt_div_mul_add (a := num) hden
  rw [hnum, hden'] at hbelow habove
  constructor
  · exact le_of_mul_le_mul_right (by linarith : (I.quotient g : ℚ) * 10 ^ g * s ≤ I.center * s) hs
  · exact lt_of_mul_lt_mul_right (by linarith : I.center * s < (I.quotient g + 1) * 10 ^ g * s) hs.le

theorem pow_leadingPower_le (hvalue : 0 < I.value) : (10 : ℚ) ^ I.leadingPower ≤ I.center := by
  let num := I.value * twoTo I.exponent
  let den := twoTo (-I.exponent)
  have hnum : 0 < num := Nat.mul_pos hvalue (twoTo_pos _)
  have hden : (0 : ℚ) < den := by exact_mod_cast twoTo_pos (-I.exponent)
  have hcenter : I.center * den = num := I.center_mul
  refine le_of_mul_le_mul_right ?_ hden
  rw [hcenter]
  unfold leadingPower
  dsimp only
  split
  · -- The whole part of the value has as many digits as the value has in front of its point.
    let digits := (Number.decimalDigits (num / den)).length
    have hpos : 0 < digits := List.length_pos_of_ne_nil (Number.isDecimal_decimalDigits _).nonempty
    have hpow : 10 ^ (digits - 1) * den ≤ num :=
      (Nat.mul_le_mul_right _ (Number.pow_le_of_pos (Nat.div_pos ‹den ≤ num› (twoTo_pos _)))).trans
        (Nat.div_mul_le_self num den)
    have hexponent : ((digits : Nat) : Int) - 1 = (digits - 1 : Nat) := by omega
    rw [hexponent, zpow_natCast]
    exact_mod_cast hpow
  · -- The value is at least one over a whole number, and that number's digits are counted.
    let ceiling := (den + num - 1) / num
    have hceiling : den ≤ ceiling * num := by
      have := Nat.lt_div_mul_add (a := den + num - 1) hnum
      simp only [ceiling]
      omega
    have hpow := Number.lt_pow_length (ceiling - 1)
    have hle : den ≤ 10 ^ (Number.decimalDigits (ceiling - 1)).length * num :=
      hceiling.trans (Nat.mul_le_mul_right _ (by omega))
    rw [zpow_neg, zpow_natCast, inv_mul_le_iff₀ (by positivity)]
    exact_mod_cast hle

/-- A value with many digits in front of its point starts there. -/
theorem le_leadingPower {k : Nat} (h : (10 : ℚ) ^ k ≤ I.center) : (k : Int) ≤ I.leadingPower := by
  let num := I.value * twoTo I.exponent
  let den := twoTo (-I.exponent)
  have hden : 0 < den := twoTo_pos _
  have hcenter : I.center * den = num := I.center_mul
  have hpow : 10 ^ k * den ≤ num := by
    have hle := mul_le_mul_of_nonneg_right h (Nat.cast_nonneg (α := ℚ) den)
    rw [hcenter] at hle
    exact_mod_cast hle
  have hquotient : 10 ^ k ≤ num / den := (Nat.le_div_iff_mul_le hden).mpr hpow
  have hlength := (Nat.pow_lt_pow_iff_right (by decide)).mp (hquotient.trans_lt (Number.lt_pow_length (num / den)))
  unfold leadingPower
  dsimp only
  rw [if_pos ((Nat.le_mul_of_pos_left den (Nat.pow_pos (by decide))).trans hpow)]
  simp only [num, den] at hlength ⊢
  omega

theorem contains_of_onGrid (h : I.onGrid g = some c) : I.contains c g = true := by
  unfold onGrid at h
  dsimp only at h
  split at h
  · obtain rfl := Option.some.inj h
    split <;> assumption
  · obtain rfl := Option.some.inj h
    assumption
  · obtain rfl := Option.some.inj h
    assumption
  · cases h

/-- A grid is used unless both neighbours lie outside the interval. -/
theorem onGrid_isSome (h : I.contains (I.quotient g) g = true ∨ I.contains (I.quotient g + 1) g = true) :
    (I.onGrid g).isSome := by
  unfold onGrid
  dsimp only
  split
  · rfl
  · rfl
  · rfl
  · rename_i hbelow habove
    rw [hbelow, habove] at h
    rcases h with h | h <;> cases h

/-- The digits are taken from the first grid that is used. -/
theorem shortest_spec (h : (I.onGrid (I.leadingPower - 16)).isSome) :
    I.Has (I.shortest.1 * 10 ^ I.shortest.2) ∧ I.leadingPower - 16 ≤ I.shortest.2 := by
  let find (k : Nat) : Option (Nat × Int) := (I.onGrid (I.leadingPower - k)).map (·, I.leadingPower - k)
  have hfound : ((List.range 17).findSome? find).isSome := by
    rw [List.findSome?_isSome_iff]
    exact ⟨16, by decide, by simpa [find] using h⟩
  obtain ⟨hit, hhit⟩ := Option.isSome_iff_exists.mp hfound
  have hshortest : I.shortest = hit := by
    unfold shortest
    dsimp only
    rw [hhit, Option.getD_some]
  obtain ⟨k, hk, hgrid⟩ := List.exists_of_findSome?_eq_some hhit
  obtain ⟨c, hc, rfl⟩ := Option.map_eq_some_iff.mp hgrid
  rw [hshortest]
  have hk' := List.mem_range.mp hk
  exact ⟨contains_iff.mp (contains_of_onGrid hc), by dsimp only; omega⟩

end Interval

/-! ### Digits of a double -/

section
variable {mantissa : Nat} {exponent : Int}

theorem interval_center : (interval mantissa exponent).center = mantissa * 2 ^ exponent := by
  rw [Interval.center, interval, sub_eq_add_neg, two_zpow_add]
  push_cast
  ring

/-- Seventeen digits are enough. -/
theorem onGrid_seventeen (hnormal : Normalized mantissa exponent) (hpos : 0 < mantissa) :
    let I := interval mantissa exponent
    (I.onGrid (I.leadingPower - 16)).isSome := by
  intro I
  let g := I.leadingPower - 16
  -- One step of the grid in units of the exponent.
  let step : ℚ := 10 ^ g * 2 ^ (-exponent)
  have hcenter : I.center * 2 ^ (-exponent) = mantissa := by
    rw [interval_center, mul_assoc, ← two_zpow_add, add_neg_cancel, zpow_zero, mul_one]
  have hstep : step * 10 ^ 16 ≤ mantissa := by
    have hpow : (10 : ℚ) ^ I.leadingPower = 10 ^ g * 10 ^ 16 := by
      rw [← zpow_natCast, ← zpow_add₀ (by norm_num)]
      congr 1
      omega
    have hle := Interval.pow_leadingPower_le (I := I) (Nat.mul_pos (by decide) hpos)
    rw [hpow] at hle
    calc step * 10 ^ 16
      _ = 10 ^ g * 10 ^ 16 * 2 ^ (-exponent) := by ring
      _ ≤ I.center * 2 ^ (-exponent) := by gcongr
      _ = mantissa := hcenter
  have hshort : step < 1 / 2 + gap mantissa exponent := by
    unfold gap
    split
    · rename_i hboundary
      rw [hboundary.1] at hstep
      push_cast at hstep
      linarith
    · have : (mantissa : ℚ) < 2 ^ 53 := by exact_mod_cast hnormal.bounded
      linarith
  -- A neighbour that is too low is followed by one that is not too high.
  obtain ⟨hbelow, habove⟩ := Interval.quotient_spec I g
  have hbelow' : (I.quotient g : ℚ) * step ≤ mantissa := by
    rw [← hcenter, ← mul_assoc]
    gcongr
  have habove' : (mantissa : ℚ) < (I.quotient g + 1) * step := by
    rw [← hcenter, ← mul_assoc]
    gcongr
  have hgap := gap_pos mantissa exponent
  refine Interval.onGrid_isSome ?_
  rw [Interval.contains_iff, Interval.contains_iff, interval_has_iff hpos, interval_has_iff hpos, mul_assoc, mul_assoc]
  push_cast
  by_cases hhigh : (I.quotient g + 1) * step < mantissa + 1 / 2
  · exact .inr (between_of_lt (by linarith) hhigh)
  · exact .inl (between_of_lt (by linarith) (by linarith))

/-- The shortest digits of a double lie in its interval. -/
theorem shortest_has (hnormal : Normalized mantissa exponent) (hpos : 0 < mantissa) :
    let digits := (interval mantissa exponent).shortest
    (interval mantissa exponent).Has (digits.1 * 10 ^ digits.2) :=
  (Interval.shortest_spec (onGrid_seventeen hnormal hpos)).1

/-- The shortest digits of a large double have zeros after them. -/
theorem le_shortest_exponent (hnormal : Normalized mantissa exponent) (hpos : 0 < mantissa) {k : Nat}
    (h : (10 : ℚ) ^ (k + 16) ≤ mantissa * 2 ^ exponent) : (k : Int) ≤ (interval mantissa exponent).shortest.2 := by
  have hleading := Interval.le_leadingPower (I := interval mantissa exponent) (h.trans_eq interval_center.symm)
  have hgrid := (Interval.shortest_spec (onGrid_seventeen hnormal hpos)).2
  push_cast at hleading
  omega

end

end Binary64

end Manifests
