import Manifests.Proofs.Composition.Endings
import Manifests.Proofs.Extraction.Record
import Manifests.Proofs.Registry

/-! # Enrolled records

A declaration is enrolled if it can be read and no record before it has its kind together with its identifier or
its name. What is enrolled is registered after the others, so that the registry holds the enrolled records in the
order of their declarations, no two of them with the same kind and name. -/

namespace Manifests

/-! ### One declaration -/

theorem Failure.stage_defect (kind : Kind) (resource : String) (defect : Extraction.Defect) :
    (Failure.defect kind resource defect).stage = .extract := by
  obtain ⟨path, fault⟩ := defect
  cases fault <;> rfl

theorem enroll_eq_ok {registry : Registry} {d : Declaration} {record : Record} (h : enroll registry d = .ok record) :
    d.extract = .ok record ∧ registry.lookup? d.kind record.id = none ∧
      registry.named? d.kind record.name = none := by
  obtain ⟨record', hextract, h⟩ := bind_eq_ok_iff.mp h
  split at h
  · cases h
  · cases h
  · rename_i hid hname
    obtain rfl := pure_eq_ok_iff.mp h
    exact ⟨mapError_eq_ok_iff.mp hextract, hid, hname⟩

theorem enroll_error_stage {registry : Registry} {d : Declaration} {f : Failure} (h : enroll registry d = .error f) :
    f.stage = .extract ∨ f.stage = .register := by
  rcases bind_eq_error_iff.mp h with h | ⟨record, -, h⟩
  · obtain ⟨defect, -, rfl⟩ := mapError_eq_error_iff.mp h
    exact Or.inl (Failure.stage_defect ..)
  · split at h
    · cases h
      exact Or.inr rfl
    · cases h
      exact Or.inr rfl
    · cases h

/-! ### All declarations -/

namespace Registry

/-- The registered records, in the order in which they were registered. -/
def records (r : Registry) : List Record := r.entries.map (·.2)

theorem enter_records {registry : Registry} {d : Declaration} {record : Record}
    (h : enroll registry d = .ok record) : (registry.enter (.ok record)).records = registry.records ++ [record] := by
  obtain ⟨hd, hid, -⟩ := enroll_eq_ok h
  rw [← Declaration.extract_kind hd] at hid
  simp [records, enter, register_entries hid]

/-- No two registered records have the same kind and name. -/
def NamesDistinct (r : Registry) : Prop := r.records.Pairwise fun a b => (a.kind, a.name) ≠ (b.kind, b.name)

theorem NamesDistinct.enter {registry : Registry} (h : registry.NamesDistinct) (d : Declaration) :
    (registry.enter (enroll registry d)).NamesDistinct := by
  cases hd : enroll registry d with
  | error failure => exact h
  | ok record =>
    obtain ⟨hextract, -, hname⟩ := enroll_eq_ok hd
    unfold NamesDistinct
    rw [enter_records hd]
    refine List.pairwise_append.mpr ⟨h, List.pairwise_singleton _ _, fun a ha b hb => ?_⟩
    obtain rfl := List.mem_singleton.mp hb
    obtain ⟨entry, hentry, rfl⟩ := List.mem_map.mp ha
    intro heq
    obtain ⟨hkind, hname'⟩ := Prod.mk.injEq .. ▸ heq
    rw [Declaration.extract_kind hextract] at hkind
    exact named?_eq_none_iff.mp hname entry hentry hkind hname'

end Registry

theorem namesDistinct_registryAfter {registry : Registry} (h : registry.NamesDistinct) (ds : List Declaration) :
    (registryAfter registry ds).NamesDistinct := by
  induction ds generalizing registry with
  | nil => exact h
  | cons d ds ih => exact ih (h.enter d)

section
variable {registry : Registry} {d : Declaration} {ds : List Declaration}

theorem enrolledRecords_of_error {f : Failure} (h : enroll registry d = .error f) :
    enrolledRecords (enrollments registry (d :: ds)) = enrolledRecords (enrollments registry ds) := by
  simp [enrollments, h, enrolledRecords, Registry.enter, Except.toOption]

theorem enrolledRecords_of_ok {record : Record} (h : enroll registry d = .ok record) :
    enrolledRecords (enrollments registry (d :: ds)) =
      record :: enrolledRecords (enrollments (registry.enter (.ok record)) ds) := by
  simp [enrollments, h, enrolledRecords, Except.toOption]

end

/-- The registry holds the records that were enrolled, in order. -/
theorem records_registryAfter (registry : Registry) (ds : List Declaration) :
    (registryAfter registry ds).records = registry.records ++ enrolledRecords (enrollments registry ds) := by
  induction ds generalizing registry with
  | nil => simp [registryAfter, enrollments, enrolledRecords]
  | cons d ds ih =>
    show (registryAfter (registry.enter (enroll registry d)) ds).records = _
    rw [ih]
    cases hd : enroll registry d with
    | error failure => rw [enrolledRecords_of_error hd]; rfl
    | ok record => rw [enrolledRecords_of_ok hd, Registry.enter_records hd, List.append_assoc]; rfl

/-- No two records that are enrolled in a run have the same kind and name. -/
theorem pairwise_enrolledRecords (ds : List Declaration) :
    (enrolledRecords (enrollments {} ds)).Pairwise fun a b => (a.kind, a.name) ≠ (b.kind, b.name) := by
  have hempty : Registry.NamesDistinct {} := List.Pairwise.nil
  have hafter := namesDistinct_registryAfter hempty ds
  unfold Registry.NamesDistinct at hafter
  rwa [records_registryAfter] at hafter

theorem mem_enrolledRecords {registry : Registry} {ds : List Declaration} {record : Record}
    (h : record ∈ enrolledRecords (enrollments registry ds)) : ∃ d ∈ ds, d.extract = .ok record := by
  induction ds generalizing registry with
  | nil => cases h
  | cons d ds ih =>
    cases hd : enroll registry d with
    | error failure =>
      rw [enrolledRecords_of_error hd] at h
      obtain ⟨d', hd', hextract⟩ := ih h
      exact ⟨d', List.mem_cons_of_mem _ hd', hextract⟩
    | ok first =>
      rw [enrolledRecords_of_ok hd] at h
      rcases List.mem_cons.mp h with rfl | h
      · exact ⟨d, List.mem_cons_self, (enroll_eq_ok hd).1⟩
      · obtain ⟨d', hd', hextract⟩ := ih h
        exact ⟨d', List.mem_cons_of_mem _ hd', hextract⟩

end Manifests
