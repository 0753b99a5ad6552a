import Manifests.Proofs.Extraction.Kinds
import Manifests.Proofs.Extraction.Record

/-! # Which declarations are read

A declaration is read exactly if it is one of the grammar of its kind. The entries are read in two parts, the metadata
and the fields of the kind, and each part follows its own part of the grammar. -/

namespace Manifests

open Extraction Grammar

namespace Extraction

/-! ### The two parts of the entries -/

theorem metadataFields_follow : FieldsFollow metadataFields metadata := by
  simp [FieldsFollow, metadataFields, metadata]

theorem isMetadata_iff (e : Entry) : isMetadata e = true ↔ (metadata.lookup e.1).isSome := by
  have hkeys : metadata.map (·.1) = metadataFields.map (·.key) := rfl
  rw [lookup_isSome_iff_mem, hkeys]
  simp [isMetadata]

section
variable {σ : Type} {fields : List (Field σ)} {gs : List (String × Grammar)}

theorem readFields_isOk_iff_conforms (h : FieldsFollow fields gs) (path : FieldPath) (entries : List Entry) (s : σ) :
    (∃ s', readFields fields path entries s = .ok s') ↔ (Grammar.record gs []).Conforms (.map entries) :=
  (readRecord_follows h).accepts path (.map entries)

end

theorem readSpec_isOk_iff (kind : Kind) (entries : List Entry) :
    (∃ spec, readSpec kind entries = .ok spec) ↔ (Grammar.record kind.fields []).Conforms (.map entries) := by
  cases kind with
  | gateway => exact isOk_map.trans (readFields_isOk_iff_conforms gatewayFields_follow [] entries _)
  | virtualService => exact isOk_map.trans (readFields_isOk_iff_conforms virtualServiceFields_follow [] entries _)
  | service => exact isOk_map.trans (readFields_isOk_iff_conforms serviceFields_follow [] entries _)
  | deployment => exact isOk_map.trans (readFields_isOk_iff_conforms deploymentFields_follow [] entries _)
  | route => exact isOk_map.trans (readFields_isOk_iff_conforms routeFields_follow [] entries _)
  | buildConfig => exact isOk_map.trans (readFields_isOk_iff_conforms buildConfigFields_follow [] entries _)

theorem readMetadata_isOk_iff (entries : List Entry) :
    (∃ m, readMetadata entries = .ok m) ↔ (Grammar.record metadata []).Conforms (.map (entries.filter isMetadata)) :=
  readFields_isOk_iff_conforms metadataFields_follow [] _ _

/-! ### Names -/

theorem readMetadata_name {entries : List Entry} {m : Metadata} (h : readMetadata entries = .ok m) :
    m.name.isSome ↔ Provides entries ["name"] := by
  have hname : m.name.isSome ↔ Provides (entries.filter isMetadata) ["name"] :=
    readFields_provides h rfl (by simp [metadataFields])
  rw [hname]
  simp [Provides, isMetadata, metadataFields]

theorem readIdentifier_isOk_iff (d : Declaration) (m : Metadata) :
    (∃ id, readIdentifier d m = .ok id) ↔ d.id.isSome ∨ m.name.isSome := by
  unfold readIdentifier
  cases d.id <;> cases m.name <;> simp

end Extraction

/-! ### Declarations -/

/-- Whatever kind a declaration is read as, it has to be one of the grammar of that kind. -/
theorem Declaration.extractAs_isOk_iff (d : Declaration) (kind : Kind) :
    (∃ record, d.extractAs kind = .ok record) ↔ d.Conforms kind := by
  have hentries : kind.grammar.Conforms (.map d.entries) ↔
      (∃ m, readMetadata d.entries = .ok m) ∧
        ∃ spec, readSpec kind (d.entries.filter fun e => !isMetadata e) = .ok spec := by
    rw [Kind.grammar, conforms_record_append isMetadata_iff, readMetadata_isOk_iff, readSpec_isOk_iff]
  simp only [extractAs, isOk_bind, isOk_pure, and_true]
  constructor
  · rintro ⟨m, hm, id, hid, spec, hspec⟩
    refine ⟨?_, hentries.mpr ⟨⟨m, hm⟩, spec, hspec⟩⟩
    rw [← readMetadata_name hm]
    exact (readIdentifier_isOk_iff d m).mp ⟨id, hid⟩
  · rintro ⟨hnamed, hconforms⟩
    obtain ⟨⟨m, hm⟩, spec, hspec⟩ := hentries.mp hconforms
    rw [← readMetadata_name hm] at hnamed
    obtain ⟨id, hid⟩ := (readIdentifier_isOk_iff d m).mpr hnamed
    exact ⟨m, hm, id, hid, spec, hspec⟩

/-- Reading accepts exactly the grammar of the declared kind: the keys of every mapping are known ones, every value
    has the form that its field asks for, what is needed is there, and so is a name or an identifier. -/
theorem Declaration.extract_accepts (d : Declaration) : (∃ record, d.extract = .ok record) ↔ d.Conforms d.kind :=
  d.extractAs_isOk_iff d.kind

end Manifests
