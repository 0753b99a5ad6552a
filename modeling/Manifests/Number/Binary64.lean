/-! # Double-precision numbers

A double is an infinity, not a number, or `± mantissa * 2 ^ exponent` with a mantissa below `2 ^ 53`. The
exponent is at least `-1074`, and the mantissa is at least `2 ^ 52` unless the exponent is the least one, so
that equal representations are equal numbers, and a zero keeps its sign. Everything here is exact arithmetic
on natural numbers: a ratio goes to the nearest double, and a tie to the even mantissa. -/

namespace Manifests

/-- A double-precision number. -/
inductive Binary64 where
  | nan
  | infinity (negative : Bool)
  | finite (negative : Bool) (mantissa : Nat) (exponent : Int)
  deriving DecidableEq

namespace Binary64

/-- The exponent of the subnormal numbers. -/
def leastExponent : Int := -1074

/-- The largest exponent of a finite number. -/
def greatestExponent : Int := 971

/-- The zero with the given sign. -/
def zero (negative : Bool) : Binary64 := .finite negative 0 leastExponent

/-- An infinity or not a number. -/
def isFinite : Binary64 → Bool
  | .finite .. => true
  | _ => false

/-- The same number by comparison: the zeros are equal, and not a number equals itself. -/
def same (x y : Binary64) : Bool :=
  match x, y with
  | .finite _ 0 _, .finite _ 0 _ => true
  | x, y => x == y

/-! ### Powers -/

/-- The power of two with the exponent `k`, or one if that is negative. -/
def twoTo (k : Int) : Nat := Nat.pow 2 k.toNat

/-- The power of ten with the exponent `k`, or one if that is negative. -/
def tenTo (k : Int) : Nat := Nat.pow 10 k.toNat

/-! ### Rounding -/

/-- `num / den` to the nearest whole number, a half to the even one. -/
def roundHalfEven (num den : Nat) : Nat :=
  let q := num / den
  let r := num % den
  if 2 * r < den then q else if 2 * r > den then q + 1 else q + q % 2

/-- `num * 2 ^ k / den` as a numerator and a denominator, for either sign of `k`. -/
def scaled (num den : Nat) (k : Int) : Nat × Nat :=
  (num * twoTo k, den * twoTo (-k))

/-- The largest `t` with `2 ^ t ≤ num / den`. -/
def ratioLog2 (num den : Nat) : Int :=
  let t : Int := (num.log2 : Int) - den.log2
  let (n, d) := scaled num den (-t)
  if d ≤ n then t else t - 1

/-- The number of the given mantissa and exponent; a mantissa that rounding carried to `2 ^ 53` is halved, and
    an exponent out of range is an infinity. -/
def assemble (negative : Bool) (mantissa : Nat) (exponent : Int) : Binary64 :=
  let (m, e) := if mantissa = twoTo 53 then (twoTo 52, exponent + 1) else (mantissa, exponent)
  if e > greatestExponent then .infinity negative else .finite negative m e

/-- The double nearest to `± num / den`. -/
def ofRatio (negative : Bool) (num den : Nat) : Binary64 :=
  if num = 0 then zero negative
  else
    let e := max leastExponent (ratioLog2 num den - 52)
    let (n, d) := scaled num den (-e)
    assemble negative (roundHalfEven n d) e

/-- The double nearest to a whole number. -/
def ofInt (i : Int) : Binary64 := ofRatio (i < 0) i.natAbs 1

/-- The double nearest to `± digits * 10 ^ exponent`. Magnitudes beyond `10 ^ 310` are infinite and those below
    `10 ^ (-330)` are zero without the power being formed. -/
def ofDecimal (negative : Bool) (digits : Nat) (exponent : Int) : Binary64 :=
  if digits = 0 then zero negative
  else
    let size : Int := (Nat.toDigits 10 digits).length + exponent
    if size > 310 then .infinity negative
    else if size < -330 then zero negative
    else ofRatio negative (digits * tenTo exponent) (tenTo (-exponent))

end Binary64

end Manifests
