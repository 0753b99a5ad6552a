import Manifests.Number.Binary64
import Manifests.Number.Digits

/-! # The shortest decimal text of a double

The text has the fewest digits that read back as the same double, and of two such texts of one length the
nearer one, a tie going up. It is always positional: no exponent is written, and no point without a digit
after it. -/

namespace Manifests.Binary64

/-! ### The interval that rounds to a double -/

/-- The reals that round to a positive double: from `low` to `high` quarters of the unit `2 ^ exponent`, the
    ends included if the mantissa is even. -/
structure Interval where
  low : Nat
  value : Nat
  high : Nat
  closed : Bool
  exponent : Int

/-- The interval of `mantissa * 2 ^ exponent`: half a unit each way, but a quarter downwards from a power of two
    whose neighbour below has a smaller unit. -/
def interval (mantissa : Nat) (exponent : Int) : Interval :=
  let low := if mantissa = twoTo 52 ∧ exponent > leastExponent then 4 * mantissa - 1 else 4 * mantissa - 2
  ⟨low, 4 * mantissa, 4 * mantissa + 2, mantissa % 2 = 0, exponent - 2⟩

namespace Interval

/-- How many quarters `c * 10 ^ g` are worth, against a count of quarters, on one scale. -/
def onScale (I : Interval) (c : Nat) (g : Int) (quarters : Nat) : Nat × Nat :=
  (c * tenTo g * twoTo (-I.exponent), quarters * twoTo I.exponent * tenTo (-g))

/-- `c * 10 ^ g` lies in the interval. -/
def contains (I : Interval) (c : Nat) (g : Int) : Bool :=
  let (x, low) := I.onScale c g I.low
  let (y, high) := I.onScale c g I.high
  if I.closed then low ≤ x && y ≤ high else low < x && y < high

/-- The value is at least as near to `(c + 1) * 10 ^ g` as to `c * 10 ^ g`. -/
def nearerAbove (I : Interval) (c : Nat) (g : Int) : Bool :=
  let (below, v) := I.onScale c g I.value
  let (above, _) := I.onScale (c + 1) g I.value
  above - v ≤ v - below

/-- The value over `10 ^ g`, rounded down. -/
def quotient (I : Interval) (g : Int) : Nat :=
  (I.value * twoTo I.exponent * tenTo (-g)) / (twoTo (-I.exponent) * tenTo g)

/-- The decimal exponent of the value's first digit. -/
def leadingPower (I : Interval) : Int :=
  let num := I.value * twoTo I.exponent
  let den := twoTo (-I.exponent)
  if den ≤ num then (Number.decimalDigits (num / den)).length - 1
  else -((Number.decimalDigits ((den + num - 1) / num - 1)).length : Int)

/-- The better of the value's two neighbours on the grid `10 ^ g`, if one lies in the interval. -/
def onGrid (I : Interval) (g : Int) : Option Nat :=
  let c := I.quotient g
  match I.contains c g, I.contains (c + 1) g with
  | true, true => some (if I.nearerAbove c g then c + 1 else c)
  | true, false => some c
  | false, true => some (c + 1)
  | false, false => none

/-- The coarsest grid with a neighbour in the interval, of one to seventeen digits, with that neighbour. -/
def shortest (I : Interval) : Nat × Int :=
  let p := I.leadingPower
  let hit := (List.range 17).findSome? fun (k : Nat) => (I.onGrid (p - k)).map (·, p - k)
  hit.getD (I.quotient (p - 16), p - 16)

end Interval

/-! ### Positional text -/

/-- `c * 10 ^ g` without the zeros at the end of `c`. -/
def trimZeros (fuel : Nat) (c : Nat) (g : Int) : Nat × Int :=
  match fuel with
  | 0 => (c, g)
  | fuel + 1 => if c ≠ 0 ∧ c % 10 = 0 then trimZeros fuel (c / 10) (g + 1) else (c, g)

/-- `c * 10 ^ g` in positional notation. -/
def positional (c : Nat) (g : Int) : List Char :=
  let (c, g) := trimZeros 17 c g
  let digits := Number.decimalDigits c
  if 0 ≤ g then digits ++ List.replicate g.toNat '0'
  else
    let places := (-g).toNat
    let padded := List.replicate (places + 1 - digits.length) '0' ++ digits
    padded.take (padded.length - places) ++ '.' :: padded.drop (padded.length - places)

/-- The sign that a text starts with. -/
def signText (negative : Bool) : List Char := if negative then ['-'] else []

/-- The shortest text of a double. -/
def text : Binary64 → String
  | .nan => "NaN"
  | .infinity negative => String.ofList (signText negative ++ "inf".toList)
  | .finite negative 0 _ => String.ofList (signText negative ++ ['0'])
  | .finite negative mantissa exponent =>
    let (c, g) := (interval mantissa exponent).shortest
    String.ofList (signText negative ++ positional c g)

end Manifests.Binary64
