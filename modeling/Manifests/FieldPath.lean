import Manifests.Value

/-! # Paths to fields

Where in a declaration a value stands: the keys and list indices that lead to it. -/

namespace Manifests

/-- One step into a value. -/
inductive FieldStep where
  | key (name : String)
  | index (i : Nat)
  deriving DecidableEq

/-- The steps to a value, outermost first. -/
abbrev FieldPath := List FieldStep

namespace FieldPath

/-- The text of a path that goes one step on: keys after a point, indices in brackets. -/
def join (before : String) : FieldStep → String
  | .key name => if before = "" then name else before ++ "." ++ name
  | .index i => before ++ "[" ++ Number.decimal i ++ "]"

def text (path : FieldPath) : String := path.foldl join ""

/-- The path to an entry. -/
def field (path : FieldPath) (name : String) : FieldPath := path ++ [.key name]

def item (path : FieldPath) (i : Nat) : FieldPath := path ++ [.index i]

end FieldPath

end Manifests
