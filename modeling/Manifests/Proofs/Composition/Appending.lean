import Manifests.Proofs.Composition.Stages

/-! # Declarations that come after others

The records of earlier declarations are enrolled before those of later ones, and their titles stay registered. So what
resolves and is valid without the later declarations does so with them, to the same manifest. Later services may only
let references resolve that did not before. -/

namespace Manifests

theorem enrolledRecords_append (ds es : List Declaration) :
    enrolledRecords (enrollments {} (ds ++ es)) =
      enrolledRecords (enrollments {} ds) ++ enrolledRecords (enrollments (registryAfter {} ds) es) := by
  rw [enrollments_append, enrolledRecords, enrolledRecords, enrolledRecords, List.filterMap_append]

/-- References that resolve do so with later declarations as well, to the same names. -/
theorem serviceNames_append (ds es : List Declaration) :
    (registryAfter {} (ds ++ es)).serviceNames.Extends (registryAfter {} ds).serviceNames := by
  intro reference name hname
  rw [serviceNames_registryAfter] at hname ⊢
  rw [enrolledRecords_append, List.map_append]
  exact List.mem_append_left _ hname

/-- What declarations give in a run that goes on after failures, they give with others after them: their manifests
    stand in the same order among those of the longer run, and what was not enrolled fails in the same way. -/
theorem compose_append (defaultNamespace : Option String) (ds es : List Declaration) :
    ∃ r r', compose ⟨.keepGoing, defaultNamespace⟩ ds = .ok r ∧
      compose ⟨.keepGoing, defaultNamespace⟩ (ds ++ es) = .ok r' ∧
      r.manifests.Sublist r'.manifests ∧
      r.failures.filter (·.whileEnrolling) <+: r'.failures := by
  have h := compose_keepGoing defaultNamespace ds
  have h' := compose_keepGoing defaultNamespace (ds ++ es)
  refine ⟨_, _, h, h', ?_, ?_⟩
  · rw [compose_manifests h, compose_manifests h', enrolledRecords_append, List.filterMap_append]
    refine List.Sublist.trans (filterMap_sublist_of_imp (fun record m hm => ?_) _) (List.sublist_append_left _ _)
    have hfinish := finish_mono (finishing_manifest?_eq_some hm) (serviceNames_append ds es)
    rw [finishing, hfinish, Ending.manifest?_ok]
  · rw [filter_whileEnrolling_failures h, compose_failures h', enrollments_append, refusals_append, List.append_assoc]
    exact List.prefix_append _ _

end Manifests
