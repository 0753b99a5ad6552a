/-! # Digits

Whole numbers written with digits: reading in a radix, reading a signed 64-bit number, and writing in
decimal. A reader takes the whole text or none of it. -/

namespace Manifests.Number

/-! ### Reading -/

/-- The value of a character as a digit, for the digits `0`-`9`, `a`-`z` and `A`-`Z`. -/
def digitValue? (c : Char) : Option Nat :=
  if '0' ≤ c ∧ c ≤ '9' then some (c.toNat - '0'.toNat)
  else if 'a' ≤ c ∧ c ≤ 'z' then some (c.toNat - 'a'.toNat + 10)
  else if 'A' ≤ c ∧ c ≤ 'Z' then some (c.toNat - 'A'.toNat + 10)
  else none

/-- The digits of `cs` in `radix`, read on from the number `acc`. -/
def readOn? (radix : Nat) (acc : Nat) : List Char → Option Nat
  | [] => some acc
  | c :: cs =>
    match digitValue? c with
    | some d => if d < radix then readOn? radix (acc * radix + d) cs else none
    | none => none

/-- An unsigned number: one digit of `radix` or more. -/
def readNat? (radix : Nat) : List Char → Option Nat
  | [] => none
  | cs => readOn? radix 0 cs

/-- A decimal digit. -/
def isDigit (c : Char) : Bool := '0' ≤ c && c ≤ '9'

/-- A number with an optional sign in front of its digits. -/
def readInt? (radix : Nat) : List Char → Option Int
  | '+' :: cs => (readNat? radix cs).map Int.ofNat
  | '-' :: cs => (readNat? radix cs).map fun n => -Int.ofNat n
  | cs => (readNat? radix cs).map Int.ofNat

/-- The signed 64-bit number equal to `i`, if there is one. -/
def toInt64? (i : Int) : Option Int64 :=
  if Int64.minValue.toInt ≤ i ∧ i ≤ Int64.maxValue.toInt then some (Int64.ofInt i) else none

/-- A signed 64-bit number in decimal, with an optional sign. -/
def readInt64? (cs : List Char) : Option Int64 :=
  (readInt? 10 cs).bind toInt64?

/-! ### Writing -/

/-- The decimal digits of `n`, at least one. -/
def decimalDigits (n : Nat) : List Char := Nat.toDigits 10 n

/-- The decimal text of `i`, with a sign if it is negative. -/
def decimal : Int → String
  | .ofNat n => String.ofList (decimalDigits n)
  | .negSucc n => String.ofList ('-' :: decimalDigits (n + 1))

end Manifests.Number
