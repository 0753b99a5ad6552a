import Manifests.Number.Shortest
import Mathlib.Algebra.Order.Field.Power
import Mathlib.Data.Rat.Cast.Order
import Mathlib.Tactic.FieldSimp
import Mathlib.Tactic.Linarith
import Mathlib.Tactic.NormNum
import Mathlib.Tactic.Positivity
import Mathlib.Tactic.Ring

/-! # Rounding to doubles

A ratio goes to a double exactly if it lies in the interval of that double (`ofRatio_eq`), and what it goes to is
canonical (`ofRatio_canonical`). Powers and comparisons of whole numbers are read as powers and comparisons of
rational numbers, where an exponent may have either sign. -/

namespace Manifests.Binary64

/-- A mantissa and an exponent stand for themselves only: the mantissa fills its bits unless the exponent is the
    least one. -/
structure Normalized (mantissa : Nat) (exponent : Int) : Prop where
  bounded : mantissa < 2 ^ 53
  least : leastExponent ≤ exponent
  greatest : exponent ≤ greatestExponent
  full : 2 ^ 52 ≤ mantissa ∨ exponent = leastExponent

/-- A double is represented as rounding represents it. -/
def Canonical : Binary64 → Prop
  | .finite _ mantissa exponent => Normalized mantissa exponent
  | _ => True

theorem zero_canonical (negative : Bool) : (zero negative).Canonical := ⟨by decide, le_refl _, by decide, .inr rfl⟩

/-- A number lies between two others, and may be one of them if the interval is closed. -/
def Between (closed : Bool) (low r high : ℚ) : Prop := if closed then low ≤ r ∧ r ≤ high else low < r ∧ r < high

theorem Between.le {closed : Bool} {low r high : ℚ} (h : Between closed low r high) : low ≤ r ∧ r ≤ high := by
  cases closed with
  | true => exact h
  | false => exact ⟨h.1.le, h.2.le⟩

theorem between_of_lt {closed : Bool} {low r high : ℚ} (hlow : low < r) (hhigh : r < high) :
    Between closed low r high := by
  cases closed with
  | true => exact ⟨hlow.le, hhigh.le⟩
  | false => exact ⟨hlow, hhigh⟩

theorem between_mul_iff {closed : Bool} {low r high s : ℚ} (hs : 0 < s) :
    Between closed (low * s) (r * s) (high * s) ↔ Between closed low r high := by
  unfold Between
  simp only [mul_le_mul_iff_of_pos_right hs, mul_lt_mul_iff_of_pos_right hs]

theorem Between.mono_left {closed : Bool} {low low' r high : ℚ} (h : Between closed low r high) (hlow : low' ≤ low) :
    Between closed low' r high := by
  cases closed with
  | true => exact ⟨hlow.trans h.1, h.2⟩
  | false => exact ⟨lt_of_le_of_lt hlow h.1, h.2⟩

/-! ### Powers -/

theorem pow_toNat_div {b : Nat} (hb : 0 < b) (k : Int) :
    ((b ^ k.toNat : Nat) : ℚ) / (b ^ (-k).toNat : Nat) = (b : ℚ) ^ k := by
  have hb' : (b : ℚ) ≠ 0 := by exact_mod_cast hb.ne'
  push_cast
  rw [← zpow_natCast, ← zpow_natCast, ← zpow_sub₀ hb']
  congr 1
  omega

theorem twoTo_pos (k : Int) : 0 < twoTo k := Nat.pow_pos Nat.two_pos

theorem tenTo_pos (k : Int) : 0 < tenTo k := Nat.pow_pos (by decide)

theorem twoTo_div (k : Int) : (twoTo k : ℚ) / twoTo (-k) = 2 ^ k := by
  exact_mod_cast pow_toNat_div Nat.two_pos k

theorem tenTo_div (k : Int) : (tenTo k : ℚ) / tenTo (-k) = 10 ^ k := by
  exact_mod_cast pow_toNat_div (b := 10) (by decide) k

theorem two_zpow_pos (k : Int) : (0 : ℚ) < 2 ^ k := zpow_pos (by norm_num) k

theorem ten_zpow_pos (k : Int) : (0 : ℚ) < 10 ^ k := zpow_pos (by norm_num) k

theorem two_zpow_add (k l : Int) : (2 : ℚ) ^ (k + l) = 2 ^ k * 2 ^ l := zpow_add₀ (by norm_num) k l

theorem two_zpow_lt_iff {k l : Int} : (2 : ℚ) ^ k < 2 ^ l ↔ k < l := zpow_lt_zpow_iff_right₀ (by norm_num)

/-! ### Parts of rounding -/

/-- The numerator and denominator of a scaled ratio. -/
theorem scaled_eq {num den n d : Nat} {k : Int} (h : scaled num den k = (n, d)) (hden : 0 < den) :
    0 < d ∧ (n : ℚ) / d = num / den * 2 ^ k := by
  obtain ⟨rfl, rfl⟩ := Prod.mk.inj h
  refine ⟨Nat.mul_pos hden (twoTo_pos _), ?_⟩
  rw [← twoTo_div]
  push_cast
  rw [mul_div_mul_comm]

theorem ratioLog2_spec {num den : Nat} (hnum : 0 < num) (hden : 0 < den) :
    (2 : ℚ) ^ ratioLog2 num den ≤ (num : ℚ) / den ∧ (num : ℚ) / den < 2 ^ (ratioLog2 num den + 1) := by
  let t : Int := (num.log2 : Int) - den.log2
  have hden' : (0 : ℚ) < den := by exact_mod_cast hden
  -- The logarithms of the parts leave two candidates for that of the ratio.
  have hlow : (2 : ℚ) ^ (t - 1) < num / den := by
    rw [lt_div_iff₀ hden']
    calc (2 : ℚ) ^ (t - 1) * den
      _ < 2 ^ (t - 1) * 2 ^ (den.log2 + 1) := by
          have : (den : ℚ) < 2 ^ (den.log2 + 1) := by exact_mod_cast Nat.lt_log2_self
          gcongr
      _ = 2 ^ num.log2 := by
          rw [← zpow_natCast, ← zpow_natCast, ← two_zpow_add]
          congr 1
          omega
      _ ≤ num := by exact_mod_cast Nat.log2_self_le hnum.ne'
  have hhigh : (num : ℚ) / den < 2 ^ (t + 1) := by
    rw [div_lt_iff₀ hden']
    calc (num : ℚ)
      _ < 2 ^ (num.log2 + 1) := by exact_mod_cast Nat.lt_log2_self
      _ = 2 ^ (t + 1) * 2 ^ den.log2 := by
          rw [← zpow_natCast, ← zpow_natCast, ← two_zpow_add]
          congr 1
          omega
      _ ≤ 2 ^ (t + 1) * den := by
          have : (2 : ℚ) ^ den.log2 ≤ den := by exact_mod_cast Nat.log2_self_le hden.ne'
          gcongr
  rcases hscaled : scaled num den (-t) with ⟨n, d⟩
  obtain ⟨hd, hratio⟩ := scaled_eq hscaled hden
  have hd' : (0 : ℚ) < d := by exact_mod_cast hd
  have hcompare : d ≤ n ↔ (2 : ℚ) ^ t ≤ num / den := by
    have hone : (2 : ℚ) ^ t * 2 ^ (-t) = 1 := by rw [← two_zpow_add, add_neg_cancel, zpow_zero]
    rw [← mul_le_mul_iff_of_pos_right (two_zpow_pos (-t)), hone, ← hratio, one_le_div hd', Nat.cast_le]
  have hunfold : ratioLog2 num den = if d ≤ n then t else t - 1 := by
    rw [ratioLog2]
    simp only [hscaled, t]
  rw [hunfold]
  split
  · exact ⟨hcompare.mp ‹_›, hhigh⟩
  · rw [sub_add_cancel]
    exact ⟨hlow.le, not_le.mp (mt hcompare.mpr ‹_›)⟩

theorem roundHalfEven_between {n d : Nat} (hd : 0 < d) :
    Between (roundHalfEven n d % 2 = 0) (roundHalfEven n d - 1 / 2) (n / d) (roundHalfEven n d + 1 / 2) := by
  have hd' : (0 : ℚ) < d := by exact_mod_cast hd
  have hsplit : (n : ℚ) / d = (n / d : Nat) + ((n % d : Nat) : ℚ) / d := by
    field_simp
    exact_mod_cast (Nat.div_add_mod n d).symm
  have hpart : ((n % d : Nat) : ℚ) / d < 1 := (div_lt_one hd').mpr (by exact_mod_cast Nat.mod_lt n hd)
  have hpart' : 0 ≤ ((n % d : Nat) : ℚ) / d := by positivity
  have hhalf : ((n % d : Nat) : ℚ) / d < 1 / 2 ↔ 2 * (n % d) < d := by
    rw [div_lt_div_iff₀ hd' (by norm_num), mul_comm, one_mul]
    exact_mod_cast Iff.rfl
  have hhalf' : 1 / 2 < ((n % d : Nat) : ℚ) / d ↔ d < 2 * (n % d) := by
    rw [div_lt_div_iff₀ (by norm_num) hd', one_mul, mul_comm]
    exact_mod_cast Iff.rfl
  rw [hsplit]
  unfold roundHalfEven
  dsimp only
  split
  · have := hhalf.mpr ‹_›
    exact between_of_lt (by linarith) (by linarith)
  · split
    · have := hhalf'.mpr ‹_›
      push_cast
      exact between_of_lt (by linarith) (by linarith)
    · -- The half goes to the even neighbour, which may be an end of its interval.
      have heq : ((n % d : Nat) : ℚ) / d = 1 / 2 :=
        le_antisymm (not_lt.mp (mt hhalf'.mp ‹_›)) (not_lt.mp (mt hhalf.mp ‹_›))
      have heven : (n / d + n / d % 2) % 2 = 0 := by omega
      rw [heq, Between, if_pos (decide_eq_true heven)]
      rcases Nat.mod_two_eq_zero_or_one (n / d) with h | h <;> rw [h] <;> push_cast <;> constructor <;> linarith

theorem roundHalfEven_le {n d k : Nat} (hd : 0 < d) (h : (n : ℚ) / d ≤ k) : roundHalfEven n d ≤ k := by
  have hround := (roundHalfEven_between (n := n) hd).le.1
  have hlt : (roundHalfEven n d : ℚ) < k + 1 := by linarith
  exact Nat.lt_succ_iff.mp (by exact_mod_cast hlt)

theorem le_roundHalfEven {n d k : Nat} (hd : 0 < d) (h : (k : ℚ) ≤ n / d) : k ≤ roundHalfEven n d := by
  have hround := (roundHalfEven_between (n := n) hd).le.2
  have hlt : (k : ℚ) < roundHalfEven n d + 1 := by linarith
  exact Nat.lt_succ_iff.mp (by exact_mod_cast hlt)

/-- At most one whole number is a half away at most, for of two neighbours one is odd. -/
theorem between_half_unique {q q' : Nat} {r : ℚ} (h : Between (q % 2 = 0) (q - 1 / 2) r (q + 1 / 2))
    (h' : Between (q' % 2 = 0) (q' - 1 / 2) r (q' + 1 / 2)) : q = q' := by
  wlog hlt : q < q' generalizing q q'
  · rcases Nat.lt_or_eq_of_le (not_lt.mp hlt) with hgt | heq
    · exact (this h' h hgt).symm
    · exact heq.symm
  have hnext : (q : ℚ) + 1 ≤ q' := by exact_mod_cast hlt
  have hle := h.le
  have hle' := h'.le
  have heq : (q' : ℚ) = q + 1 := by linarith
  have hr : r = q + 1 / 2 := by linarith
  have hsucc : q' = q + 1 := by exact_mod_cast heq
  rcases Nat.mod_two_eq_zero_or_one q with heven | hodd
  · have hodd' : ¬q' % 2 = 0 := by omega
    rw [Between, if_neg (by simpa using hodd')] at h'
    linarith [h'.1]
  · rw [Between, if_neg (by simp [hodd])] at h
    linarith [h.2]

/-- A ratio goes to the whole number that is at most a half away, and for a half to the even one. -/
theorem roundHalfEven_eq_iff {n d q : Nat} (hd : 0 < d) :
    roundHalfEven n d = q ↔ Between (q % 2 = 0) (q - 1 / 2) (n / d) (q + 1 / 2) := by
  refine ⟨?_, between_half_unique (roundHalfEven_between hd)⟩
  rintro rfl
  exact roundHalfEven_between hd

/-! ### Intervals of doubles -/

/-- A number lies in an interval. -/
def Interval.Has (I : Interval) (r : ℚ) : Prop :=
  Between I.closed (I.low * 2 ^ I.exponent) r (I.high * 2 ^ I.exponent)

/-- How far an interval reaches below its double, in units of the exponent: the neighbour below a power of two is
    nearer than the one above. -/
def gap (mantissa : Nat) (exponent : Int) : ℚ := if mantissa = 2 ^ 52 ∧ leastExponent < exponent then 1 / 4 else 1 / 2

theorem gap_pos (mantissa : Nat) (exponent : Int) : 0 < gap mantissa exponent := by
  unfold gap
  split <;> norm_num

theorem gap_le (mantissa : Nat) (exponent : Int) : gap mantissa exponent ≤ 1 / 2 := by
  unfold gap
  split <;> norm_num

section
variable {mantissa : Nat} {exponent : Int}

theorem interval_has_iff (hpos : 0 < mantissa) {r : ℚ} :
    (interval mantissa exponent).Has r ↔
      Between (mantissa % 2 = 0) (mantissa - gap mantissa exponent) (r * 2 ^ (-exponent)) (mantissa + 1 / 2) := by
  have hunit : (2 : ℚ) ^ (exponent - 2) = 2 ^ exponent / 4 := by
    rw [sub_eq_add_neg, two_zpow_add]
    norm_num
    ring
  have hlow : ((interval mantissa exponent).low : ℚ) * 2 ^ (exponent - 2) =
      (mantissa - gap mantissa exponent) * 2 ^ exponent := by
    have htwoTo : twoTo 52 = 2 ^ 52 := rfl
    rw [interval, hunit, gap, htwoTo]
    dsimp only [gt_iff_lt]
    split <;> rw [Nat.cast_sub (by omega)] <;> push_cast <;> ring
  have hhigh : ((interval mantissa exponent).high : ℚ) * 2 ^ (exponent - 2) =
      (mantissa + 1 / 2) * 2 ^ exponent := by
    rw [interval, hunit]
    push_cast
    ring
  have hr : r = r * 2 ^ (-exponent) * 2 ^ exponent := by
    rw [mul_assoc, ← two_zpow_add, neg_add_cancel, zpow_zero, mul_one]
  rw [← between_mul_iff (two_zpow_pos exponent), ← hlow, ← hhigh, ← hr]
  rfl

variable {num den : Nat} {negative : Bool}

/-- What rounding takes a ratio for. -/
theorem ofRatio_of_round {n d : Nat} {e : Int} (hnum : 0 < num)
    (hexponent : max leastExponent (ratioLog2 num den - 52) = e) (hscaled : scaled num den (-e) = (n, d)) :
    ofRatio negative num den = assemble negative (roundHalfEven n d) e := by
  unfold ofRatio
  rw [if_neg hnum.ne']
  simp only [hexponent, hscaled]

/-- A mantissa and an exponent are put together as they are. -/
theorem assemble_eq (hbounded : mantissa < 2 ^ 53) (hgreatest : exponent ≤ greatestExponent) :
    assemble negative mantissa exponent = .finite negative mantissa exponent := by
  have htwoTo : twoTo 53 = 2 ^ 53 := rfl
  simp only [assemble, htwoTo, if_neg hbounded.ne, gt_iff_lt, if_neg (not_lt.mpr hgreatest)]

/-- A mantissa that rounding carried to the next power of two is halved. -/
theorem assemble_carry (hgreatest : exponent ≤ greatestExponent) :
    assemble negative (2 ^ 53) (exponent - 1) = .finite negative (2 ^ 52) exponent := by
  have htwoTo : twoTo 53 = 2 ^ 53 := rfl
  have htwoTo' : twoTo 52 = 2 ^ 52 := rfl
  simp only [assemble, htwoTo, htwoTo', if_true, sub_add_cancel, gt_iff_lt, if_neg (not_lt.mpr hgreatest)]

theorem assemble_canonical (habove : mantissa ≤ 2 ^ 53) (hleast : leastExponent ≤ exponent)
    (hfull : 2 ^ 52 ≤ mantissa ∨ exponent = leastExponent) : (assemble negative mantissa exponent).Canonical := by
  have htwoTo : twoTo 53 = 2 ^ 53 := rfl
  have htwoTo' : twoTo 52 = 2 ^ 52 := rfl
  simp only [assemble, htwoTo, htwoTo']
  by_cases hcarry : mantissa = 2 ^ 53
  · rw [if_pos hcarry]
    split
    · trivial
    · exact ⟨Nat.pow_lt_pow_right (by decide) (by decide), by omega, not_lt.mp ‹_›, .inl (le_refl _)⟩
  · rw [if_neg hcarry]
    split
    · trivial
    · exact ⟨lt_of_le_of_ne habove hcarry, hleast, not_lt.mp ‹_›, hfull⟩

/-- The logarithm of a ratio against a power of two, both in units of an exponent. -/
theorem ratioLog2_lt_iff (hnum : 0 < num) (hden : 0 < den) (e : Int) (k : Nat) :
    ratioLog2 num den < e + k ↔ (num : ℚ) / den * 2 ^ (-e) < 2 ^ k := by
  obtain ⟨hlow, hhigh⟩ := ratioLog2_spec hnum hden
  have hlog : ratioLog2 num den < e + k ↔ (num : ℚ) / den < 2 ^ (e + k) :=
    ⟨fun h => hhigh.trans_le (zpow_le_zpow_right₀ (by norm_num) h), fun h => two_zpow_lt_iff.mp (hlow.trans_lt h)⟩
  rw [hlog, two_zpow_add, zpow_neg, ← div_eq_mul_inv, div_lt_iff₀ (two_zpow_pos _), mul_comm, zpow_natCast]

/-- A ratio in the interval of a double is rounded to it. -/
theorem ofRatio_eq (hnormal : Normalized mantissa exponent) (hpos : 0 < mantissa) (hnum : 0 < num) (hden : 0 < den)
    (h : (interval mantissa exponent).Has (num / den)) :
    ofRatio negative num den = .finite negative mantissa exponent := by
  rw [interval_has_iff hpos] at h
  obtain ⟨hlow, hhigh⟩ := h.le
  have hgap := gap_le mantissa exponent
  have hunits := ratioLog2_lt_iff hnum hden exponent
  have habove : ratioLog2 num den < exponent + 53 := by
    have hbounded : (mantissa : ℚ) + 1 ≤ 2 ^ 53 := by exact_mod_cast hnormal.bounded
    exact (hunits 53).mpr (by linarith)
  by_cases hbelow : ratioLog2 num den < exponent + 52 ∧ leastExponent < exponent
  · -- Below a power of two the unit is half as large, and rounding carries to the power.
    obtain ⟨hbelow, hleast⟩ := hbelow
    have hbelow' := (hunits 52).mp hbelow
    obtain rfl : mantissa = 2 ^ 52 := by
      have : (mantissa : ℚ) < 2 ^ 52 + 1 := by linarith
      exact le_antisymm (Nat.lt_succ_iff.mp (by exact_mod_cast this)) (hnormal.full.resolve_right hleast.ne')
    have hquarter : gap (2 ^ 52) exponent = 1 / 4 := if_pos ⟨rfl, hleast⟩
    rw [hquarter] at hlow
    push_cast at hlow
    have hlog : ¬ratioLog2 num den < exponent + 51 := fun hlog => by
      have := (hunits 51).mp hlog
      norm_num at this hlow
      linarith
    rcases hscaled : scaled num den (-(exponent - 1)) with ⟨n, d⟩
    obtain ⟨hd, hratio⟩ := scaled_eq hscaled hden
    rw [ofRatio_of_round hnum (by omega) hscaled, (roundHalfEven_eq_iff hd).mpr, assemble_carry hnormal.greatest]
    have hdouble : (n : ℚ) / d = num / den * 2 ^ (-exponent) * 2 := by
      rw [hratio, neg_sub, sub_eq_add_neg, add_comm, two_zpow_add, zpow_one, mul_assoc]
    rw [hdouble, Between, if_pos (by decide)]
    push_cast
    constructor <;> linarith
  · have hexponent : max leastExponent (ratioLog2 num den - 52) = exponent := by
      have := hnormal.least
      omega
    rcases hscaled : scaled num den (-exponent) with ⟨n, d⟩
    obtain ⟨hd, hratio⟩ := scaled_eq hscaled hden
    rw [ofRatio_of_round hnum hexponent hscaled, (roundHalfEven_eq_iff hd).mpr,
      assemble_eq hnormal.bounded hnormal.greatest]
    rw [hratio]
    exact h.mono_left (by linarith)

/-- What a ratio is rounded to is canonical. -/
theorem ofRatio_canonical (hden : 0 < den) : (ofRatio negative num den).Canonical := by
  rcases Nat.eq_zero_or_pos num with rfl | hnum
  · exact zero_canonical negative
  · let e : Int := max leastExponent (ratioLog2 num den - 52)
    have hleast : leastExponent ≤ e := le_max_left _ _
    have hunits := ratioLog2_lt_iff hnum hden e
    rcases hscaled : scaled num den (-e) with ⟨n, d⟩
    obtain ⟨hd, hratio⟩ := scaled_eq hscaled hden
    rw [← hratio] at hunits
    have habove : roundHalfEven n d ≤ 2 ^ 53 := by
      refine roundHalfEven_le hd ?_
      exact_mod_cast ((hunits 53).mp (by omega)).le
    have hfull : 2 ^ 52 ≤ roundHalfEven n d ∨ e = leastExponent := by
      rcases eq_or_ne e leastExponent with he | he
      · exact .inr he
      · refine .inl (le_roundHalfEven hd ?_)
        exact_mod_cast not_lt.mp (mt (hunits 52).mpr (by omega))
    rw [ofRatio_of_round hnum rfl hscaled]
    exact assemble_canonical habove hleast hfull

end

end Manifests.Binary64
