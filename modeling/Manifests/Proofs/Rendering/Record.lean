import Manifests.Proofs.Rendering.Entries
import Manifests.Rendering.Record

/-! # What stands in a manifest

The kind, the name, the namespace and the specification of a record, looked up in its tree. -/

namespace Manifests.Record

open Rendering

theorem get?_kind_render (r : Record) : r.render.get? "kind" = some (.text r.kind.name) := by
  simp [render, renderEntries, List.lookup_append]

theorem get?_spec_render (r : Record) : r.render.get? "spec" = shown r.spec.render := by
  simp [render, renderEntries, List.lookup_append]

theorem renderMetadata_ne_nil (r : Record) : r.renderMetadata ≠ [] := by
  simp [renderMetadata, textEntry]

theorem get?_metadata_render (r : Record) : r.render.get? "metadata" = some (.map r.renderMetadata) := by
  simp [render, renderEntries, List.lookup_append, shown_of_ne_nil r.renderMetadata_ne_nil]

theorem name_render (r : Record) : r.render.at? ["metadata", "name"] = some (.text r.name) := by
  have hname : (Value.map r.renderMetadata).get? "name" = some (.text r.name) := by
    simp [renderMetadata, List.lookup_append]
  rw [Value.at?_cons, get?_metadata_render, Option.bind_some, Value.at?_cons, hname]
  rfl

theorem namespaceName_render (r : Record) :
    r.render.at? ["metadata", "namespace"] = r.namespaceName.map .text := by
  have hnamespace : (Value.map r.renderMetadata).get? "namespace" = r.namespaceName.map .text := by
    simp [renderMetadata, textMap, List.lookup_append]
  rw [Value.at?_cons, get?_metadata_render, Option.bind_some, Value.at?_cons, hnamespace]
  cases r.namespaceName <;> rfl

end Manifests.Record
