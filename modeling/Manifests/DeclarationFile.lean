import Manifests.Declaration
import Manifests.Yaml.Document

/-! # Declaration files

A declaration file is a YAML mapping with the keys `imports`, a list of texts, and `resources`, a list of mappings
with a `kind` and perhaps an `id`. A null value counts as an absent list, and a null document as an empty file. -/

namespace Manifests

/-- Why a text is no declaration file. -/
inductive DocumentFault where
  /-- The text is not one YAML document. -/
  | malformed (fault : Yaml.Fault)
  /-- A node has a tag. -/
  | tagged (name : String)
  /-- A key has no text. -/
  | keyNotScalar
  /-- The document is no mapping. -/
  | notMapping (found : Shape)
  /-- The imports are no list. -/
  | importsNotList (found : Shape)
  /-- An import is no text. -/
  | importNotText (found : Shape)
  /-- The resources are no list. -/
  | resourcesNotList (found : Shape)
  /-- The document has another key. -/
  | unrecognizedKey (key : String)
  /-- A resource is no mapping. -/
  | resourceNotMapping (index : Nat) (found : Shape)
  /-- A kind is no text. -/
  | kindNotText (index : Nat) (found : Shape)
  /-- There is no such kind. -/
  | unknownKind (index : Nat) (name : String)
  /-- An identifier is no scalar. -/
  | identifierNotScalar (index : Nat) (found : Shape)
  /-- A resource has no kind. -/
  | missingKind (index : Nat)
  deriving DecidableEq

namespace DocumentFault

/-- What diagnostics call a resource. -/
def resourceText (index : Nat) : String := "resources[" ++ Number.decimal index ++ "]"

def message : DocumentFault → String
  | .malformed _ => "invalid YAML"
  | .tagged name => "YAML tags are not supported (found !" ++ name ++ ")"
  | .keyNotScalar => "mapping keys must be scalars"
  | .notMapping found => "top level must be a mapping, found " ++ found.name
  | .importsNotList found => "imports must be a list, found " ++ found.name
  | .importNotText found => "imports entries must be strings, found " ++ found.name
  | .resourcesNotList found => "resources must be a list, found " ++ found.name
  | .unrecognizedKey key => "unrecognized top-level key '" ++ key ++ "' (expected 'imports' or 'resources')"
  | .resourceNotMapping index found => resourceText index ++ " must be a mapping, found " ++ found.name
  | .kindNotText index found => resourceText index ++ ".kind must be a string, found " ++ found.name
  | .unknownKind index name =>
    resourceText index ++ ": unknown kind '" ++ name ++ "' (expected one of " ++
      String.intercalate ", " (Kind.all.map Kind.name) ++ ")"
  | .identifierNotScalar index found => resourceText index ++ ".id must be a scalar, found " ++ found.name
  | .missingKind index => resourceText index ++ ": missing 'kind'"

end DocumentFault

/-! ### Values -/

namespace Value

/-- The value of a whole number: one beyond 64 bits with sign is rounded to a double. -/
def ofInt (i : Int) : Value :=
  match Number.toInt64? i with
  | some i => .int i
  | none => .float (Binary64.ofInt i)

def keyText (key : Value) : Except DocumentFault String :=
  match key.scalarText? with
  | some s => .ok s
  | none => .error .keyNotScalar

mutual

/-- The value of a node. -/
def ofTree : Yaml.Tree → Except DocumentFault Value
  | .null => .ok .null
  | .bool b => .ok (.bool b)
  | .int i => .ok (ofInt i)
  | .float x => .ok (.float x)
  | .text s => .ok (.text s)
  | .sequence items => do return .list (← ofItems items)
  | .mapping entries => do return .map (← ofEntries entries)
  | .tagged name _ => .error (.tagged name)

/-- The values of the items of a sequence. -/
def ofItems : List Yaml.Tree → Except DocumentFault (List Value)
  | [] => .ok []
  | item :: items => do return (← ofTree item) :: (← ofItems items)

/-- The entries of a mapping, each key in front of its value. -/
def ofEntries : List (Yaml.Tree × Yaml.Tree) → Except DocumentFault (List Entry)
  | [] => .ok []
  | (key, value) :: entries => do
    let key ← keyText (← ofTree key)
    let value ← ofTree value
    return (key, value) :: (← ofEntries entries)

end

end Value

/-! ### Files -/

/-- What a declaration file holds. -/
structure DeclarationFile where
  imports : List String
  resources : List Declaration

namespace DeclarationFile

def readImport : Value → Except DocumentFault String
  | .text s => .ok s
  | other => .error (.importNotText other.shape)

def readImports : Value → Except DocumentFault (List String)
  | .null => .ok []
  | .list items => items.mapM readImport
  | other => .error (.importsNotList other.shape)

/-- The kind of the resource with the given index. -/
def readKind (index : Nat) : Value → Except DocumentFault Kind
  | .text name =>
    match Kind.ofName? name with
    | some kind => .ok kind
    | none => .error (.unknownKind index name)
  | other => .error (.kindNotText index other.shape)

/-- The identifier of the resource with the given index. -/
def readIdentifier (index : Nat) (value : Value) : Except DocumentFault String :=
  match value.scalarText? with
  | some id => .ok id
  | none => .error (.identifierNotScalar index value.shape)

/-- The kind, the identifier and the other entries of a resource, after the kind and the identifier so far. -/
def readHead (index : Nat) :
    List Entry → Option Kind → Option String → Except DocumentFault (Option Kind × Option String × List Entry)
  | [], kind, id => .ok (kind, id, [])
  | (key, value) :: entries, kind, id =>
    if key = "kind" then do readHead index entries (some (← readKind index value)) id
    else if key = "id" then do readHead index entries kind (some (← readIdentifier index value))
    else do
      let (kind, id, others) ← readHead index entries kind id
      return (kind, id, (key, value) :: others)

/-- The resource with the given index. -/
def readResource (file : String) (index : Nat) : Value → Except DocumentFault Declaration
  | .map entries => do
    let (kind, id, others) ← readHead index entries none none
    match kind with
    | some kind => return ⟨kind, id, others, ⟨file, index⟩⟩
    | none => throw (.missingKind index)
  | other => .error (.resourceNotMapping index other.shape)

/-- The resources of a list, the first of which has the given index. -/
def readResourcesFrom (file : String) : Nat → List Value → Except DocumentFault (List Declaration)
  | _, [] => .ok []
  | index, item :: items => do
    return (← readResource file index item) :: (← readResourcesFrom file (index + 1) items)

def readResources (file : String) : Value → Except DocumentFault (List Declaration)
  | .null => .ok []
  | .list items => readResourcesFrom file 0 items
  | other => .error (.resourcesNotList other.shape)

/-- The entries of a document, after the file so far. -/
def readTop (file : String) : List (Yaml.Tree × Yaml.Tree) → DeclarationFile → Except DocumentFault DeclarationFile
  | [], f => .ok f
  | (key, value) :: entries, f => do
    let key ← Value.keyText (← Value.ofTree key)
    if key = "imports" then
      let imports ← readImports (← Value.ofTree value)
      readTop file entries { f with imports := f.imports ++ imports }
    else if key = "resources" then
      let resources ← readResources file (← Value.ofTree value)
      readTop file entries { f with resources := f.resources ++ resources }
    else throw (.unrecognizedKey key)

def ofTree (file : String) : Yaml.Tree → Except DocumentFault DeclarationFile
  | .null => .ok ⟨[], []⟩
  | .mapping entries => readTop file entries ⟨[], []⟩
  | other => do throw (.notMapping (← Value.ofTree other).shape)

/-- The declaration file that a text is. The name of the file goes into the provenance of its resources. -/
def read (file text : String) : Except DocumentFault DeclarationFile :=
  match Yaml.read text with
  | .ok tree => ofTree file tree
  | .error fault => .error (.malformed fault)

end DeclarationFile

end Manifests
