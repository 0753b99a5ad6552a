import Manifests.Rendering.Record
import Manifests.Yaml.Printer

/-! # Manifests

The manifest of a valid record: its tree, the text that it is written as, and the name of its file. -/

namespace Manifests

/-- The manifest of a resource. -/
structure Manifest where
  kind : Kind
  name : String
  entries : List Entry

namespace Manifest

def ofRecord (r : ValidRecord) : Manifest := ⟨r.record.kind, r.record.name, r.record.renderEntries⟩

def tree (m : Manifest) : Value := .map m.entries

/-- The name of the file that a manifest is written to. -/
def fileName (m : Manifest) : String := m.kind.fileName m.name

def text (m : Manifest) : String := Yaml.Printer.document m.entries

end Manifest

end Manifests
