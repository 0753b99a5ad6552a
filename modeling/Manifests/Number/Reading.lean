import Manifests.Number.Binary64
import Manifests.Number.Digits

/-! # Reading a double

A decimal text has an optional sign, digits with an optional point among or around them, and an optional
exponent; the words for infinity and not a number are read in either case of letters. -/

namespace Manifests.Binary64

/-- The exponent part of a decimal text: nothing, or `e` and a signed whole number. -/
def readExponent? : List Char → Option Int
  | [] => some 0
  | c :: cs => if c = 'e' ∨ c = 'E' then Number.readInt? 10 cs else none

/-- A decimal text without its sign, as digits and a power of ten. -/
def readUnsigned? (cs : List Char) : Option (Nat × Int) :=
  let whole := cs.takeWhile Number.isDigit
  let rest := cs.dropWhile Number.isDigit
  let (places, rest) : List Char × List Char :=
    match rest with
    | '.' :: rest => (rest.takeWhile Number.isDigit, rest.dropWhile Number.isDigit)
    | _ => ([], rest)
  do
    let digits ← Number.readNat? 10 (whole ++ places)
    let exponent ← readExponent? rest
    return (digits, exponent - places.length)

/-- A text without its sign. -/
def readMagnitude? (negative : Bool) (cs : List Char) : Option Binary64 :=
  let word := String.ofList (cs.map Char.toLower)
  if word = "nan" then some .nan
  else if word = "inf" ∨ word = "infinity" then some (.infinity negative)
  else (readUnsigned? cs).map fun (digits, exponent) => ofDecimal negative digits exponent

/-- The double nearest to the number that the text writes. -/
def read? (cs : List Char) : Option Binary64 :=
  match cs with
  | '-' :: cs => readMagnitude? true cs
  | '+' :: cs => readMagnitude? false cs
  | cs => readMagnitude? false cs

end Manifests.Binary64
