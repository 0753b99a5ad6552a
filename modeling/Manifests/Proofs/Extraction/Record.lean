import Manifests.Extraction.Record
import Manifests.Proofs.Except

/-! # What reading gives

A record that was read has the kind it was read as, and its name is canonical whatever was declared. -/

namespace Manifests

namespace Extraction

/-- The specification that is read for a kind is one of that kind. -/
theorem readSpec_kind {kind : Kind} {entries : List Entry} {spec : Spec} (h : readSpec kind entries = .ok spec) :
    spec.kind = kind := by
  cases kind <;> obtain ⟨_, -, rfl⟩ := map_eq_ok_iff.mp h <;> rfl

end Extraction

open Extraction in
theorem Declaration.extractAs_eq_ok {d : Declaration} {kind : Kind} {record : Record}
    (h : d.extractAs kind = .ok record) :
    ∃ m id spec, readMetadata d.entries = .ok m ∧ readIdentifier d m = .ok id ∧
      readSpec kind (d.entries.filter fun entry => !isMetadata entry) = .ok spec ∧
      record = ⟨id, Name.normalize (m.name.getD id), m.namespaceName, m.labels, m.annotations, spec,
        d.provenance⟩ := by
  obtain ⟨m, hm, h⟩ := bind_eq_ok_iff.mp h
  obtain ⟨id, hid, h⟩ := bind_eq_ok_iff.mp h
  obtain ⟨spec, hspec, h⟩ := bind_eq_ok_iff.mp h
  exact ⟨m, id, spec, hm, hid, hspec, (pure_eq_ok_iff.mp h).symm⟩

theorem Declaration.extract_kind {d : Declaration} {record : Record} (h : d.extract = .ok record) :
    record.kind = d.kind := by
  obtain ⟨m, id, spec, -, -, hs, rfl⟩ := extractAs_eq_ok h
  exact Extraction.readSpec_kind hs

theorem Declaration.extract_provenance {d : Declaration} {record : Record} (h : d.extract = .ok record) :
    record.provenance = d.provenance := by
  obtain ⟨m, id, spec, -, -, -, rfl⟩ := extractAs_eq_ok h
  rfl

/-- The name of a record is the canonical form of a declared text. -/
theorem Declaration.extract_name {d : Declaration} {record : Record} (h : d.extract = .ok record) :
    ∃ declared, record.name = Name.normalize declared := by
  obtain ⟨m, id, spec, -, -, -, rfl⟩ := extractAs_eq_ok h
  exact ⟨_, rfl⟩

end Manifests
