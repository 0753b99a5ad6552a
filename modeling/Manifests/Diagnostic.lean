import Manifests.Json

/-! # Diagnostics

What is reported when a file cannot be loaded or a resource cannot be composed: a code, the stage of the work, a
message, and as far as they apply the kind, the resource, the field and another resource that it refers to. -/

namespace Manifests

/-- A stage of the work. -/
inductive Stage where
  | load
  | extract
  | register
  | resolve
  | validate
  | render
  deriving DecidableEq

namespace Stage

def name : Stage → String
  | .load => "load"
  | .extract => "extract"
  | .register => "register"
  | .resolve => "resolve"
  | .validate => "validate"
  | .render => "render"

/-- The number of a stage. Filling in defaults is number three and reports nothing. -/
def number : Stage → Nat
  | .load => 0
  | .extract => 1
  | .register => 2
  | .resolve => 4
  | .validate => 5
  | .render => 6

end Stage

/-- A diagnostic. -/
inductive Diagnostic where
  /-- A file cannot be loaded. -/
  | load (file message : String)
  /-- A field holds what it may not hold, or is missing. -/
  | declaration (kind resource field message : String)
  /-- A record has no such field. -/
  | unrecognizedField (kind resource field : String)
  /-- An identifier is taken. -/
  | duplicateIdentifier (kind id firstFile : String)
  /-- A name is taken. -/
  | nameCollision (kind id name firstId : String)
  /-- A reference names no service. -/
  | reference (kind resource service : String)
  /-- A record breaks a rule. -/
  | validation (kind resource field message : String)
  /-- A record cannot be written. -/
  | render (kind resource message : String)
  deriving DecidableEq

namespace Diagnostic

def code : Diagnostic → String
  | .load .. => "LoadError"
  | .declaration .. => "DeclarationError"
  | .unrecognizedField .. => "UnrecognizedFieldError"
  | .duplicateIdentifier .. => "DuplicateIdentifierError"
  | .nameCollision .. => "NameCollisionError"
  | .reference .. => "ReferenceResolutionError"
  | .validation .. => "ValidationError"
  | .render .. => "RenderError"

/-- The stage that a diagnostic comes from. -/
def stage : Diagnostic → Stage
  | .load .. => .load
  | .declaration .. | .unrecognizedField .. => .extract
  | .duplicateIdentifier .. | .nameCollision .. => .register
  | .reference .. => .resolve
  | .validation .. => .validate
  | .render .. => .render

/-- The kind of the resource. -/
def kind? : Diagnostic → Option String
  | .load .. => none
  | .declaration kind .. | .unrecognizedField kind .. | .duplicateIdentifier kind .. | .nameCollision kind ..
  | .reference kind .. | .validation kind .. | .render kind .. => some kind

/-- The resource that a diagnostic is about. -/
def resource? : Diagnostic → Option String
  | .load .. => none
  | .declaration _ resource .. | .unrecognizedField _ resource _ | .reference _ resource _
  | .validation _ resource .. | .render _ resource _ => some resource
  | .duplicateIdentifier _ id _ | .nameCollision _ id .. => some id

/-- The field that a diagnostic is about. -/
def field? : Diagnostic → Option String
  | .declaration _ _ field _ | .unrecognizedField _ _ field | .validation _ _ field _ => some field
  | .nameCollision .. => some "name"
  | .load .. | .duplicateIdentifier .. | .reference .. | .render .. => none

/-- What else a diagnostic refers to: the service that is looked for, or the resource that has the name. -/
def reference? : Diagnostic → Option String
  | .reference _ _ service => some service
  | .nameCollision _ _ _ firstId => some firstId
  | _ => none

/-- How the message of a resource begins. -/
def opening (kind resource : String) : String := kind ++ " '" ++ resource ++ "': "

def message : Diagnostic → String
  | .load file message => file ++ ": " ++ message
  | .declaration kind resource field message | .validation kind resource field message =>
    opening kind resource ++ "field '" ++ field ++ "': " ++ message
  | .unrecognizedField kind resource field => opening kind resource ++ "unrecognized field '" ++ field ++ "'"
  | .duplicateIdentifier kind id firstFile =>
    opening kind id ++ "duplicate identifier, first declared in " ++ firstFile
  | .nameCollision kind id name firstId =>
    opening kind id ++ "canonical name '" ++ name ++ "' is already used by '" ++ firstId ++ "'"
  | .reference kind resource service =>
    opening kind resource ++ "cannot resolve service reference '" ++ service ++ "'"
  | .render kind resource message => opening kind resource ++ "render failed: " ++ message

/-- A diagnostic as a JSON object. What does not apply to it is null. -/
def json (d : Diagnostic) : Json :=
  .object
    [("error", .text d.code), ("field", .ofText? d.field?), ("kind", .ofText? d.kind?), ("message", .text d.message),
     ("pass", .number d.stage.number), ("reference", .ofText? d.reference?), ("resource", .ofText? d.resource?),
     ("stage", .text d.stage.name)]

end Diagnostic

end Manifests
