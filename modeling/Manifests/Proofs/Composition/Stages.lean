import Manifests.Proofs.Composition.FileNames
import Manifests.Proofs.Composition.Titles

/-! # Failures by stage

A run enrolls all declarations before it finishes the first record. So its failures are those of enrolling, in the
order of the declarations, and after them those of finishing; the stage of a failure tells which of the two it is. -/

namespace Manifests

namespace Failure

/-- The declaration could not be read, or its identifier or name was taken. -/
def whileEnrolling (f : Failure) : Bool := f.stage = .extract || f.stage = .register

/-- A reference of the record could not be resolved, or the record broke a rule. -/
def whileFinishing (f : Failure) : Bool := f.stage = .resolve || f.stage = .validate

theorem whileFinishing_of_whileEnrolling {f : Failure} (h : f.whileEnrolling = true) : f.whileFinishing = false := by
  unfold whileEnrolling at h
  unfold whileFinishing
  cases hstage : f.stage <;> simp [hstage] at h ⊢

theorem whileEnrolling_of_whileFinishing {f : Failure} (h : f.whileFinishing = true) : f.whileEnrolling = false :=
  Bool.eq_false_iff.mpr fun h' => Bool.eq_false_iff.mp (whileFinishing_of_whileEnrolling h') h

end Failure

/-! ### Failures of enrolling -/

/-- The failures of the declarations that were not enrolled. -/
def refusals (es : List (Declaration × Except Failure Record)) : List Failure := (rejections es).filterMap (·.failure?)

@[simp] theorem refusals_append (es es' : List (Declaration × Except Failure Record)) :
    refusals (es ++ es') = refusals es ++ refusals es' := by
  simp [refusals, rejections]

theorem mem_refusals_iff {es : List (Declaration × Except Failure Record)} {f : Failure} :
    f ∈ refusals es ↔ ∃ d, (d, .error f) ∈ es := by
  constructor
  · intro h
    obtain ⟨ending, hending, hf⟩ := List.mem_filterMap.mp h
    obtain ⟨⟨d, failure | record⟩, hmem, he⟩ := List.mem_filterMap.mp hending
    · obtain rfl := Option.some.inj he
      obtain rfl := Option.some.inj hf
      exact ⟨d, hmem⟩
    · cases he
  · rintro ⟨d, hmem⟩
    exact List.mem_filterMap.mpr ⟨⟨d.label, .error f⟩, List.mem_filterMap.mpr ⟨_, hmem, rfl⟩, rfl⟩

/-- What a run gives for a declaration is what enrolling it gave at some registry. -/
theorem exists_enroll_of_mem {registry : Registry} {ds : List Declaration}
    {e : Declaration × Except Failure Record} (h : e ∈ enrollments registry ds) :
    ∃ registry', enroll registry' e.1 = e.2 := by
  induction ds generalizing registry with
  | nil => cases h
  | cons d ds ih =>
    rcases List.mem_cons.mp h with rfl | h
    · exact ⟨registry, rfl⟩
    · exact ih h

theorem whileEnrolling_of_mem_refusals {registry : Registry} {ds : List Declaration} {f : Failure}
    (h : f ∈ refusals (enrollments registry ds)) : f.whileEnrolling = true := by
  obtain ⟨d, hmem⟩ := mem_refusals_iff.mp h
  obtain ⟨registry', henroll⟩ := exists_enroll_of_mem hmem
  simpa [Failure.whileEnrolling] using enroll_error_stage henroll

/-! ### Failures of finishing -/

section
variable {services : ServiceNames} {defaultNamespace : Option String}

/-- The failures of the records that were not finished. -/
def failings (services : ServiceNames) (defaultNamespace : Option String) (records : List Record) : List Failure :=
  records.filterMap fun record => (finishing services defaultNamespace record).failure?

theorem whileFinishing_of_mem_failings {records : List Record} {f : Failure}
    (h : f ∈ failings services defaultNamespace records) : f.whileFinishing = true := by
  obtain ⟨record, -, hf⟩ := List.mem_filterMap.mp h
  cases hfinish : finish services defaultNamespace record with
  | ok m => simp [finishing, hfinish] at hf
  | error failure =>
    obtain rfl : failure = f := by simpa [finishing, hfinish] using hf
    simpa [Failure.whileFinishing] using finish_error_stage hfinish

end

/-! ### Failures of a report -/

section
variable {options : Options} {ds : List Declaration} {r : Report}

theorem compose_failures (h : compose options ds = .ok r) :
    r.failures = refusals (enrollments {} ds) ++
      failings (registryAfter {} ds).serviceNames options.defaultNamespace (enrolledRecords (enrollments {} ds)) := by
  rw [compose_eq_ok h]
  simp [Report.addAll, Report.empty, endings, refusals, failings, List.filterMap_map]

theorem filter_whileEnrolling_failures (h : compose options ds = .ok r) :
    r.failures.filter (·.whileEnrolling) = refusals (enrollments {} ds) := by
  rw [compose_failures h, List.filter_append,
    List.filter_eq_self.mpr fun f hf => whileEnrolling_of_mem_refusals hf,
    List.filter_eq_nil_iff.mpr fun f hf => by
      simp [Failure.whileEnrolling_of_whileFinishing (whileFinishing_of_mem_failings hf)],
    List.append_nil]

theorem filter_whileFinishing_failures (h : compose options ds = .ok r) :
    r.failures.filter (·.whileFinishing) =
      failings (registryAfter {} ds).serviceNames options.defaultNamespace (enrolledRecords (enrollments {} ds)) := by
  rw [compose_failures h, List.filter_append,
    List.filter_eq_nil_iff.mpr fun f hf => by
      simp [Failure.whileFinishing_of_whileEnrolling (whileEnrolling_of_mem_refusals hf)],
    List.filter_eq_self.mpr fun f hf => whileFinishing_of_mem_failings hf, List.nil_append]

end

/-! ### Duplicates -/

theorem extract_of_mem_accepted {registry : Registry} {ds : List Declaration} {first : Declaration × Record}
    (h : first ∈ accepted (enrollments registry ds)) : first.1 ∈ ds ∧ first.1.extract = .ok first.2 := by
  obtain ⟨⟨d, failure | record⟩, hmem, hfirst⟩ := List.mem_filterMap.mp h
  · cases hfirst
  · obtain rfl := Option.some.inj hfirst
    obtain ⟨registry', henroll⟩ := exists_enroll_of_mem hmem
    refine ⟨?_, (enroll_eq_ok henroll).1⟩
    rw [← map_fst_enrollments registry ds]
    exact List.mem_map_of_mem hmem

/-- The file that a duplicate is reported with is that of a declaration which has the identifier. -/
theorem exists_first_of_duplicate {options : Options} {ds : List Declaration} {kind : Kind} {id file : String}
    (h : .duplicateIdentifier kind id file ∈ failuresOf (compose options ds)) :
    ∃ d ∈ ds, d.provenance.file = file ∧ d.kind = kind ∧ ∃ record, d.extract = .ok record ∧ record.id = id := by
  obtain ⟨r, hrun, hsub, -⟩ := exists_keepGoing options ds
  have hmem := hsub h
  rw [compose_failures hrun] at hmem
  rcases List.mem_append.mp hmem with hmem | hmem
  · obtain ⟨d, hmem⟩ := mem_refusals_iff.mp hmem
    obtain ⟨before, after, hes⟩ := List.append_of_mem hmem
    have houtcome : Outcome (accepted before) d (.error (.duplicateIdentifier kind id file)) :=
      (registration_enrollments ds).outcomes before _ after hes
    obtain ⟨first, ⟨hbefore, hkind, hid⟩, hfile⟩ := houtcome.exists_holdsId
    have hall : first ∈ accepted (enrollments {} ds) := by
      rw [hes, accepted_append]
      exact List.mem_append_left _ hbefore
    obtain ⟨hdeclared, hextract⟩ := extract_of_mem_accepted hall
    exact ⟨first.1, hdeclared, hfile, hkind, first.2, hextract, hid⟩
  · exact absurd (whileFinishing_of_mem_failings hmem) (by simp [Failure.whileFinishing, Failure.stage,
      Failure.diagnostic, Diagnostic.stage])

end Manifests
