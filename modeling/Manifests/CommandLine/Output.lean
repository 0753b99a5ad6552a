import Manifests.CommandLine.Arguments
import Manifests.Host
import Manifests.Json

/-! # What commands print

A command gives an exit code and two texts, one of results and one of notices. Failures are notices; they are
printed as JSON if results are, and then also when only the needed is to be printed. -/

namespace Manifests.CommandLine

/-- What a command gives. -/
structure Outcome where
  code : Nat
  stdout : String
  stderr : String
  deriving DecidableEq

/-- What is printed without being a result or a failure of a resource. -/
structure Voice where
  output : OutputFormat
  quiet : Bool

/-- The voice that an invocation asks for. -/
def Invocation.voice (i : Invocation) : Voice := ⟨i.output, i.quiet⟩

/-- A text as a line. -/
def line (s : String) : String := s ++ "\n"

namespace Voice

/-- A message about the run as a whole. In JSON the quotes of the message are escaped. -/
def complain (v : Voice) (message : String) : String :=
  if v.quiet then ""
  else
    match v.output with
    | .text => line message
    | .json =>
      let escaped := message.toList.flatMap fun c => if c = '"' then ['\\', '"'] else [c]
      line ("\x7b\"error\": \"" ++ String.ofList escaped ++ "\"\x7d")

def report (v : Voice) (d : Diagnostic) : String :=
  match v.output with
  | .json => line d.json.pretty
  | .text => if v.quiet then "" else line ("error: " ++ d.message)

/-- The diagnostics of resources. -/
def reportAll (v : Voice) (failures : List Failure) : String :=
  String.join (failures.map fun f => v.report f.diagnostic)

/-- A line for each resource that is done. -/
def progress (v : Voice) (steps : List Progress) : String :=
  if v.quiet then ""
  else
    String.join <| steps.map fun p =>
      line ("[" ++ Number.decimal p.processed ++ "/" ++ Number.decimal p.total ++ "] " ++ p.resource ++
        if p.ok then "" else " (failed)")

end Voice

/-! ### Results -/

/-- The texts of manifests with a line between them. -/
def documents (manifests : List Manifest) : String := String.intercalate "---\n" (manifests.map Manifest.text)

/-- A manifest in a summary, with its text if it is not written. -/
def manifestJson (dryRun : Bool) (m : Manifest) : Json :=
  .object <|
    [("file", .text m.fileName), ("kind", .text m.kind.name), ("name", .text m.name)] ++
      if dryRun then [("text", .text m.text)] else []

/-- The diagnostics of resources as a list. -/
def failuresJson (failures : List Failure) : Json := .list (failures.map fun f => f.diagnostic.json)

def summaryJson (dryRun : Bool) (r : Report) : Json :=
  .object
    [("failures", failuresJson r.failures), ("manifests", .list (r.manifests.map (manifestJson dryRun)))]

/-- The verdict of a check. -/
def verdictJson (r : Report) : Json :=
  .object
    [("errors", failuresJson r.failures), ("resources", .number (r.manifests.length + r.failures.length)),
     ("valid", .bool r.isSuccess)]

/-- The name that a declared resource will have, if it has one. -/
def canonicalName? (d : Declaration) : Option String := (d.name? <|> d.id).map Name.normalize

/-- A declared resource as an entry of a list. -/
def rowJson (d : Declaration) : Json :=
  .object
    [("file", .text d.provenance.file), ("id", .ofText? d.identifier?), ("kind", .text d.kind.name),
     ("name", .ofText? (canonicalName? d))]

/-- A declared resource as a line of a list. -/
def rowText (d : Declaration) : String :=
  line (d.kind.name ++ " " ++ d.identifier?.getD "-" ++ " " ++ (canonicalName? d).getD "-")

/-- The list of declared resources. -/
def listing (output : OutputFormat) (ds : List Declaration) : String :=
  match output with
  | .json => line (Json.list (ds.map rowJson)).pretty
  | .text => String.join (ds.map rowText)

end Manifests.CommandLine
