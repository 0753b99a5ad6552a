import Manifests.Kind
import Manifests.Value

/-! # Declarations

A declared resource: its kind, an optional identifier, the fields it was declared with, and where it stands. -/

namespace Manifests

/-- A file and a place in its list of resources. -/
structure Provenance where
  file : String
  index : Nat
  deriving DecidableEq

/-- A declared resource. The entries are the fields besides kind and identifier. -/
structure Declaration where
  kind : Kind
  id : Option String
  entries : List Entry
  provenance : Provenance

namespace Declaration

/-- The value of the first entry with the key. -/
def get? (d : Declaration) (key : String) : Option Value := d.entries.lookup key

/-- The declared name, if it is a scalar. -/
def name? (d : Declaration) : Option String := (d.get? "name").bind Value.scalarText?

/-- What other resources call this one: its identifier, or else its name. -/
def identifier? (d : Declaration) : Option String := d.id <|> d.name?

/-- What diagnostics call this one: its name, its identifier, or its place. -/
def label (d : Declaration) : String :=
  (d.name? <|> d.id).getD (d.provenance.file ++ "#" ++ Number.decimal d.provenance.index)

end Declaration

end Manifests
