import Manifests.Number.Reading

/-! # Trees of a YAML document

What a document means once its scalars are typed and its aliases expanded, and when two trees are the same key. -/

namespace Manifests.Yaml

/-- A node of a document. -/
inductive Tree where
  | null
  | bool (b : Bool)
  | int (i : Int)
  | float (x : Binary64)
  | text (s : String)
  | sequence (items : List Tree)
  | mapping (entries : List (Tree × Tree))
  | tagged (tag : String) (content : Tree)

namespace Tree

mutual

/-- The same node as a mapping key: mappings in any order of their entries, and zeros of either sign. -/
def same : Tree → Tree → Bool
  | .null, .null => true
  | .bool a, .bool b => a = b
  | .int i, .int j => i = j
  | .float x, .float y => x.same y
  | .text s, .text t => s = t
  | .sequence xs, .sequence ys => sameItems xs ys
  | .mapping xs, .mapping ys => xs.length = ys.length && sameEntries xs ys
  | .tagged t x, .tagged u y => t = u && same x y
  | _, _ => false

/-- The same items in the same order. -/
def sameItems : List Tree → List Tree → Bool
  | [], [] => true
  | x :: xs, y :: ys => same x y && sameItems xs ys
  | _, _ => false

/-- Each entry of the first list is in the second. -/
def sameEntries : List (Tree × Tree) → List (Tree × Tree) → Bool
  | [], _ => true
  | (k, v) :: xs, ys => ys.any (fun (k', v') => same k k' && same v v') && sameEntries xs ys

end

/-! ### Plain scalars -/

def isNullWord (s : String) : Bool := s = "null" || s = "Null" || s = "NULL" || s = "~"

/-- The words for the truth values. -/
def readBool? (s : String) : Option Bool :=
  if s = "true" || s = "True" || s = "TRUE" then some true
  else if s = "false" || s = "False" || s = "FALSE" then some false
  else none

/-- Digits with a zero in front of others, which write no number. -/
def hasLeadingZero (cs : List Char) : Bool :=
  let digits :=
    match cs with
    | '-' :: rest | '+' :: rest => rest
    | cs => cs
  match digits with
  | '0' :: rest => !rest.isEmpty && rest.all Number.isDigit
  | _ => false

/-- The radix that `0x`, `0o` or `0b` announces, and the digits after it. -/
def readRadix? : List Char → Option (Nat × List Char)
  | '0' :: 'x' :: rest => some (16, rest)
  | '0' :: 'o' :: rest => some (8, rest)
  | '0' :: 'b' :: rest => some (2, rest)
  | _ => none

/-- Digits without a sign, in the radix that is announced or in decimal. -/
def readMagnitude? (cs : List Char) : Option Nat :=
  match readRadix? cs with
  | some (radix, digits) => Number.readNat? radix digits
  | none => if hasLeadingZero cs then none else Number.readNat? 10 cs

/-- A whole number with an optional sign. -/
def readInt? (cs : List Char) : Option Int :=
  match cs with
  | '+' :: rest => (readMagnitude? rest).map Int.ofNat
  | '-' :: rest => (readMagnitude? rest).map fun n => -Int.ofNat n
  | cs => (readMagnitude? cs).map Int.ofNat

/-- How a whole number fares: kept if it fits a signed or unsigned 64-bit word, refused if it fits one of 128
    bits, and no whole number beyond that. -/
inductive IntClass where
  | kept (i : Int)
  | refused
  | none

/-- The count of values that a word of the given number of bits has. -/
def wordSize (bits : Nat) : Int := Nat.pow 2 bits

/-- The class of what a scalar writes. -/
def classifyInt (cs : List Char) : IntClass :=
  match readInt? cs with
  | some i =>
    if -wordSize 63 ≤ i ∧ i < wordSize 64 then .kept i
    else if -wordSize 127 ≤ i ∧ i < wordSize 128 then .refused
    else .none
  | none => .none

/-- A double: a decimal text for a finite number, or a word for an infinity or for not a number. -/
def readFloat? (cs : List Char) : Option Binary64 :=
  let word := String.ofList cs
  if word = ".inf" || word = ".Inf" || word = ".INF" || word = "+.inf" || word = "+.Inf" || word = "+.INF" then
    some (.infinity false)
  else if word = "-.inf" || word = "-.Inf" || word = "-.INF" then some (.infinity true)
  else if word = ".nan" || word = ".NaN" || word = ".NAN" then some .nan
  else (Binary64.read? cs).bind fun x => if x.isFinite then some x else none

end Tree

end Manifests.Yaml
