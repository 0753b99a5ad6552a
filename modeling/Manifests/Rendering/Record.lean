import Manifests.Rendering.Networking
import Manifests.Rendering.Workload
import Manifests.Validation.Record

/-! # Manifests of records

A manifest names the version of its kind's interface and the kind, and then gives the metadata and what the kind
asks for. Absent values and empty collections are left out at every level. -/

namespace Manifests

open Rendering

def Spec.render : Spec → List Entry
  | .gateway g => g.render
  | .virtualService v => v.render
  | .service s => s.render
  | .deployment d => d.render
  | .route r => r.render
  | .buildConfig b => b.render

namespace Record

def renderMetadata (r : Record) : List Entry :=
  textEntry "name" r.name ++
    optionalText "namespace" r.namespaceName ++
    textMap "labels" r.labels ++
    textMap "annotations" r.annotations

def renderEntries (r : Record) : List Entry :=
  textEntry "apiVersion" r.kind.apiVersion ++
    textEntry "kind" r.kind.name ++
    mapping "metadata" r.renderMetadata ++
    mapping "spec" r.spec.render

/-- The tree of a record's manifest. -/
def render (r : Record) : Value := .map r.renderEntries

end Record

end Manifests
