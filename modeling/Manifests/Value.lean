import Manifests.Number.Digits
import Manifests.Number.Shortest

/-! # Values

The values of declared fields and of rendered manifests: scalars, lists, and mappings whose entries keep their
order and whose keys are texts that may repeat. -/

namespace Manifests

/-- A value. Integers are signed 64-bit numbers. -/
inductive Value where
  | null
  | bool (b : Bool)
  | int (i : Int64)
  | float (x : Binary64)
  | text (s : String)
  | map (entries : List (String × Value))
  | list (items : List Value)
  deriving Inhabited

/-- A key with its value. -/
abbrev Entry := String × Value

/-- The shape of a value. -/
inductive Shape where
  | null
  | bool
  | integer
  | float
  | string
  | mapping
  | list
  deriving DecidableEq

/-- The word for a shape in diagnostics. -/
def Shape.name : Shape → String
  | .null => "null"
  | .bool => "bool"
  | .integer => "integer"
  | .float => "float"
  | .string => "string"
  | .mapping => "mapping"
  | .list => "list"

namespace Value

def shape : Value → Shape
  | .null => .null
  | .bool _ => .bool
  | .int _ => .integer
  | .float _ => .float
  | .text _ => .string
  | .map _ => .mapping
  | .list _ => .list

/-- The text of a scalar; null, mappings and lists have none. -/
def scalarText? : Value → Option String
  | .bool b => some (if b then "true" else "false")
  | .int i => some (Number.decimal i.toInt)
  | .float x => some x.text
  | .text s => some s
  | .null | .map _ | .list _ => none

/-- Null counts as no value. -/
def isNull : Value → Bool
  | .null => true
  | _ => false

end Value

end Manifests
