import Manifests.Extraction.BuildConfig
import Manifests.Extraction.Gateway
import Manifests.Extraction.Route
import Manifests.Extraction.VirtualService
import Manifests.Extraction.Workload
import Manifests.Name
import Manifests.Record

/-! # Reading records

A declaration's metadata is read first, in the order of its entries, and then the fields of its kind. A resource
without an identifier is called by its declared name, and one without a name takes it from its identifier. -/

namespace Manifests

namespace Extraction

/-- The metadata of a resource while it is read. -/
structure Metadata where
  name : Option String
  namespaceName : Option String
  labels : TextMap String
  annotations : TextMap String

def metadataFields : List (Field Metadata) :=
  [.of "name" readText fun t s => { s with name := some t },
   .of "namespace" readText fun t s => { s with namespaceName := some t },
   .of "labels" readTextMap fun m s => { s with labels := m },
   .of "annotations" readTextMap fun m s => { s with annotations := m }]

def isMetadata (entry : Entry) : Bool := metadataFields.any (·.key = entry.1)

/-- The metadata among the entries of a declaration. -/
def readMetadata (entries : List Entry) : Result Metadata :=
  readFields metadataFields [] (entries.filter isMetadata) ⟨none, none, {}, {}⟩

def readSpec (kind : Kind) (entries : List Entry) : Result Spec :=
  match kind with
  | .gateway => (readGateway entries).map .gateway
  | .virtualService => (readVirtualService entries).map .virtualService
  | .service => (readService entries).map .service
  | .deployment => (readDeployment entries).map .deployment
  | .route => (readRoute entries).map .route
  | .buildConfig => (readBuildConfig entries).map .buildConfig

/-- The identifier of a declaration with the given metadata. -/
def readIdentifier (d : Declaration) (m : Metadata) : Result String :=
  match d.id <|> m.name with
  | some id => .ok id
  | none => .error ⟨FieldPath.field [] "name", .nameless⟩

end Extraction

open Extraction in
/-- Reads a declaration with the fields of a kind, which may be another than its own. -/
def Declaration.extractAs (d : Declaration) (kind : Kind) : Extraction.Result Record := do
  let m ← readMetadata d.entries
  let id ← readIdentifier d m
  let spec ← readSpec kind (d.entries.filter fun entry => !isMetadata entry)
  return ⟨id, Name.normalize (m.name.getD id), m.namespaceName, m.labels, m.annotations, spec, d.provenance⟩

/-- Reads a declaration as the kind it was declared with. -/
def Declaration.extract (d : Declaration) : Extraction.Result Record := d.extractAs d.kind

end Manifests
