import Manifests.Proofs.Extraction.Fields
import Manifests.Proofs.Extraction.Record
import Manifests.Proofs.Lists

/-! # What metadata is read from

The name and the namespace of a record are the texts that are declared under these keys. A declaration without an
identifier is identified by its name, and one without a name is named after its identifier. -/

namespace Manifests

open Extraction

namespace Extraction

variable {entries : List Entry} {m : Metadata}

theorem readMetadata_name_eq (h : readMetadata entries = .ok m) : m.name = declaredText? "name" entries := by
  rw [readFields_text "name" (·.name) h rfl (by simp [metadataFields]), declaredText?, declared?,
    declared_filter (by simp [isMetadata, metadataFields])]
  rfl

theorem readMetadata_namespaceName (h : readMetadata entries = .ok m) :
    Option.Rel (Reads readText) (declared? "namespace" entries) m.namespaceName := by
  have hrel := readFields_sets "namespace" readText (·.namespaceName) h rfl (by simp [metadataFields])
  rwa [declared?, declared_filter (by simp [isMetadata, metadataFields])] at hrel

end Extraction

namespace Declaration

variable {d : Declaration} {record : Record}

/-- The namespace of a record is the declared one. -/
theorem extract_namespaceName (h : d.extract = .ok record) :
    Option.Rel (fun value text => value.scalarText? = some text) (declared? "namespace" d.entries)
      record.namespaceName := by
  obtain ⟨m, id, spec, hm, -, -, rfl⟩ := extractAs_eq_ok h
  exact option_rel_imp (readMetadata_namespaceName hm) fun _ _ ⟨_, hread⟩ => readText_eq_ok_iff.mp hread

/-- What a record is called: its identifier is the declared one, or else its declared name, and its name is the
    declared one, or else its identifier, in canonical form. -/
theorem extract_called (h : d.extract = .ok record) :
    (d.id <|> declaredText? "name" d.entries) = some record.id ∧
      record.name = Name.normalize ((declaredText? "name" d.entries).getD record.id) := by
  obtain ⟨m, id, spec, hm, hid, -, rfl⟩ := extractAs_eq_ok h
  rw [← readMetadata_name_eq hm]
  refine ⟨?_, rfl⟩
  unfold readIdentifier at hid
  split at hid
  · rw [← Except.ok.inj hid]
    assumption
  · cases hid

end Declaration

end Manifests
