import Manifests.FieldPath

/-! # Defects of a declaration

What keeps the fields of a declaration from being read, and where. -/

namespace Manifests

/-- What a field may hold, in the words of diagnostics. -/
inductive Expected where
  | mapping
  | list
  | scalar
  | integer
  | bool
  deriving DecidableEq

def Expected.words : Expected → String
  | .mapping => "a mapping"
  | .list => "a list"
  | .scalar => "a scalar"
  | .integer => "an integer"
  | .bool => "a bool"

namespace Extraction

/-- What is wrong with a field. -/
inductive Fault where
  /-- The record has no field of this name. -/
  | unrecognized
  /-- The value has another shape. -/
  | expected (what : Expected) (found : Shape)
  /-- The text is no integer. -/
  | notInteger (text : String)
  /-- There is no such mode of encryption. -/
  | unknownTlsMode (name : String)
  /-- There is no such build strategy. -/
  | unknownStrategy (name : String)
  /-- A condition on a text has none or several of its forms. -/
  | notOneCondition
  /-- A field that is needed is absent. -/
  | missing
  /-- The resource has neither a name nor an identifier. -/
  | nameless
  deriving DecidableEq

/-- The message of a fault. A field that is not recognized needs no words besides its path. -/
def Fault.message : Fault → String
  | .unrecognized => ""
  | .expected what found => "expected " ++ what.words ++ ", found " ++ found.name
  | .notInteger text => "expected an integer, found '" ++ text ++ "'"
  | .unknownTlsMode name => "unknown TLS mode '" ++ name ++ "'"
  | .unknownStrategy name => "unknown build strategy '" ++ name ++ "' (expected Docker or Source)"
  | .notOneCondition => "exactly one of 'exact', 'prefix' or 'regex' is required"
  | .missing => "required field is missing"
  | .nameless => "either 'name' or 'id' is required"

/-- A fault with the path of its field. -/
structure Defect where
  path : FieldPath
  fault : Fault
  deriving DecidableEq

end Extraction

end Manifests
