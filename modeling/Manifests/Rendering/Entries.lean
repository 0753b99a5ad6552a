import Manifests.TextMap
import Manifests.Value

/-! # Entries of a manifest

The entries that a part of a record gives to a mapping: none if it is absent or empty, and one otherwise. -/

namespace Manifests.Rendering

def textEntry (key text : String) : List Entry := [(key, .text text)]

def intEntry (key : String) (n : Int64) : List Entry := [(key, .int n)]

/-- A text that may be absent. -/
def optionalText (key : String) (text : Option String) : List Entry :=
  match text with
  | some s => [(key, .text s)]
  | none => []

/-- A number that may be absent. -/
def optionalInt (key : String) (n : Option Int64) : List Entry :=
  match n with
  | some n => [(key, .int n)]
  | none => []

/-- A truth value that may be absent. -/
def optionalBool (key : String) (b : Option Bool) : List Entry :=
  match b with
  | some b => [(key, .bool b)]
  | none => []

/-- A mapping that may be empty. -/
def mapping (key : String) (entries : List Entry) : List Entry :=
  if entries.isEmpty then [] else [(key, .map entries)]

/-- A mapping that may be absent or empty. -/
def optionalMapping {α : Type} (key : String) (part : Option α) (entries : α → List Entry) : List Entry :=
  match part with
  | some a => mapping key (entries a)
  | none => []

/-- A list that may be empty. -/
def list (key : String) (items : List Value) : List Entry :=
  if items.isEmpty then [] else [(key, .list items)]

def texts (key : String) (items : List String) : List Entry := list key (items.map .text)

/-- A list of mappings, without the empty ones. -/
def mappings {α : Type} (key : String) (parts : List α) (entries : α → List Entry) : List Entry :=
  list key (((parts.map entries).filter (!·.isEmpty)).map .map)

def textMap (key : String) (m : TextMap String) : List Entry :=
  mapping key (m.entries.map fun entry => (entry.1, .text entry.2))

end Manifests.Rendering
