import Manifests.Composition
import Manifests.Proofs.Defaults
import Manifests.Proofs.Extraction.Record
import Manifests.Proofs.Rendering.Record
import Manifests.Proofs.Resolution
import Manifests.Proofs.Validation

/-! # Finished records

Filling a record in and resolving its references change neither its kind nor its name, and a record that is valid
has a name. So a manifest stands for the kind and the name of the record that was enrolled. -/

namespace Manifests

theorem Spec.resolve_kind {services : ServiceNames} {s resolved : Spec} (h : s.resolve services = .ok resolved) :
    resolved.kind = s.kind := by
  cases s with
  | virtualService v =>
    obtain ⟨v', -, h⟩ := bind_eq_ok_iff.mp h
    obtain rfl := pure_eq_ok_iff.mp h
    rfl
  | route r =>
    obtain ⟨r', -, h⟩ := bind_eq_ok_iff.mp h
    obtain rfl := pure_eq_ok_iff.mp h
    rfl
  | gateway | service | deployment | buildConfig =>
    cases h
    rfl

namespace Record

/-- Resolving a record changes its specification only. -/
theorem resolve_eq_ok {services : ServiceNames} {r resolved : Record} (h : r.resolve services = .ok resolved) :
    ∃ spec, r.spec.resolve services = .ok spec ∧ resolved = { r with spec } := by
  obtain ⟨spec, hspec, h⟩ := bind_eq_ok_iff.mp h
  exact ⟨spec, hspec, (pure_eq_ok_iff.mp h).symm⟩

end Record

theorem ValidRecord.name_ne_empty (r : ValidRecord) : r.record.name ≠ "" := by
  intro hname
  have hvalid := r.valid
  simp [Record.Valid, Record.violations, Validation.check, hname] at hvalid

section
variable {services : ServiceNames} {defaultNamespace : Option String} {record : Record}

/-- The references of the record without gaps are resolved, and then the rules of its kind are checked. -/
theorem finish_eq (services : ServiceNames) (defaultNamespace : Option String) (record : Record) :
    finish services defaultNamespace record =
      match record.spec.withDefaults.resolve services with
      | .error reference => .error (.unresolvedReference record.kind record.name reference)
      | .ok spec =>
        let resolved := { record.withDefaults defaultNamespace with spec }
        match resolved.violations with
        | [] => .ok ⟨resolved.kind, resolved.name, resolved.renderEntries⟩
        | violation :: _ => .error (.violation record.kind resolved.subject violation) := by
  have hresolve : (record.withDefaults defaultNamespace).resolve services =
      record.spec.withDefaults.resolve services >>= fun spec =>
        pure { record.withDefaults defaultNamespace with spec } := rfl
  cases hspec : record.spec.withDefaults.resolve services with
  | error reference =>
    rw [finish, hresolve, hspec]
    rfl
  | ok spec =>
    rw [finish, hresolve, hspec]
    cases hviolations : Record.violations { record.withDefaults defaultNamespace with spec } with
    | nil =>
      show (Record.validate { record.withDefaults defaultNamespace with spec }).mapError _ >>= _ = _
      rw [Record.validate_of_nil hviolations]
      simp only [hviolations]
      rfl
    | cons violation others =>
      show (Record.validate { record.withDefaults defaultNamespace with spec }).mapError _ >>= _ = _
      rw [Record.validate_of_cons hviolations]
      simp only [hviolations]
      rfl

/-- A record that has a manifest has the same one with more services. -/
theorem finish_mono {services' : ServiceNames} {m : Manifest} (h : finish services defaultNamespace record = .ok m)
    (hext : services'.Extends services) : finish services' defaultNamespace record = .ok m := by
  rw [finish_eq] at h ⊢
  cases hspec : record.spec.withDefaults.resolve services with
  | error reference =>
    rw [hspec] at h
    cases h
  | ok spec =>
    rw [hspec] at h
    rw [Spec.resolve_mono hspec hext]
    exact h

theorem finish_eq_ok {m : Manifest} (h : finish services defaultNamespace record = .ok m) :
    ∃ resolved valid, (record.withDefaults defaultNamespace).resolve services = .ok resolved ∧
      resolved.validate = .ok valid ∧ m = .ofRecord valid := by
  obtain ⟨resolved, hr, h⟩ := bind_eq_ok_iff.mp h
  obtain ⟨valid, hv, h⟩ := bind_eq_ok_iff.mp h
  exact ⟨resolved, valid, mapError_eq_ok_iff.mp hr, mapError_eq_ok_iff.mp hv, (pure_eq_ok_iff.mp h).symm⟩

theorem finish_error_stage {f : Failure} (h : finish services defaultNamespace record = .error f) :
    f.stage = .resolve ∨ f.stage = .validate := by
  rcases bind_eq_error_iff.mp h with h | ⟨resolved, -, h⟩
  · obtain ⟨reference, -, rfl⟩ := mapError_eq_error_iff.mp h
    exact Or.inl rfl
  · rcases bind_eq_error_iff.mp h with h | ⟨valid, -, h⟩
    · obtain ⟨violation, -, rfl⟩ := mapError_eq_error_iff.mp h
      exact Or.inr rfl
    · exact absurd h pure_ne_error

/-- A manifest is that of the record without gaps, with the references of its specification resolved. -/
theorem finish_record {m : Manifest} (h : finish services defaultNamespace record = .ok m) :
    ∃ spec valid, record.spec.withDefaults.resolve services = .ok spec ∧
      valid.record = { record.withDefaults defaultNamespace with spec } ∧ m = .ofRecord valid := by
  obtain ⟨resolved, valid, hr, hv, rfl⟩ := finish_eq_ok h
  obtain ⟨spec, hspec, hresolved⟩ := Record.resolve_eq_ok hr
  exact ⟨spec, valid, hspec, (Record.validate_eq_ok hv).trans hresolved, rfl⟩

/-- The manifest of a record has its kind and its name, which is not empty. -/
theorem finish_kind_name {m : Manifest} (h : finish services defaultNamespace record = .ok m) :
    m.kind = record.kind ∧ m.name = record.name ∧ m.name ≠ "" := by
  obtain ⟨spec, valid, hspec, hrecord, rfl⟩ := finish_record h
  refine ⟨?_, ?_, valid.name_ne_empty⟩
  · show valid.record.kind = record.kind
    rw [hrecord]
    exact (Spec.resolve_kind hspec).trans (record.withDefaults_kind defaultNamespace)
  · show valid.record.name = record.name
    rw [hrecord]
    rfl

/-- A manifest shows the specification of its record without gaps and with its references resolved, and the rules of
    its kind hold for that. -/
theorem finish_spec {m : Manifest} (h : finish services defaultNamespace record = .ok m) :
    ∃ spec, record.spec.withDefaults.resolve services = .ok spec ∧ spec.Lawful ∧
      m.tree.get? "spec" = Rendering.shown spec.render := by
  obtain ⟨spec, valid, hspec, hrecord, rfl⟩ := finish_record h
  have hlawful := (Record.valid_iff.mp valid.valid).2
  have htree := valid.record.get?_spec_render
  rw [hrecord] at hlawful
  refine ⟨spec, hspec, hlawful, ?_⟩
  show valid.record.render.get? "spec" = _
  rw [htree, hrecord]

/-- A manifest shows the kind and the name of its record. -/
theorem finish_shows {m : Manifest} (h : finish services defaultNamespace record = .ok m) :
    m.tree.get? "kind" = some (.text record.kind.name) ∧
      m.tree.at? ["metadata", "name"] = some (.text record.name) := by
  obtain ⟨hkind, hname, -⟩ := finish_kind_name h
  obtain ⟨spec, valid, -, -, rfl⟩ := finish_record h
  rw [← hkind, ← hname]
  exact ⟨valid.record.get?_kind_render, valid.record.name_render⟩

end

end Manifests
