import Manifests.Proofs.Composition.FileNames
import Manifests.Proofs.Composition.Registration

/-! # Where manifests come from

Each manifest of a report is that of a declaration: of one that was enrolled, and whose record was finished. The
manifests stand in the order of their declarations, and show the kind and the name that were read there. -/

namespace Manifests

/-- The manifests of a report with the declarations that they come from. -/
structure Report.Origins (r : Report) (ds : List Declaration) (origins : List (Declaration × Manifest)) : Prop where
  manifests : origins.map (·.2) = r.manifests
  declarations : (origins.map (·.1)).Sublist ds
  read : ∀ e ∈ origins, ∃ record, e.1.extract = .ok record ∧ e.2.kind = record.kind ∧ e.2.name = record.name

/-- The declarations of a run that have manifests, each with its own. -/
def origins (defaultNamespace : Option String) (ds : List Declaration) : List (Declaration × Manifest) :=
  (accepted (enrollments {} ds)).filterMap fun e =>
    (finishing (registryAfter {} ds).serviceNames defaultNamespace e.2).manifest?.map (e.1, ·)

section
variable {defaultNamespace : Option String} {ds : List Declaration}

theorem mem_origins {e : Declaration × Manifest} (h : e ∈ origins defaultNamespace ds) :
    ∃ record, (e.1, record) ∈ accepted (enrollments {} ds) ∧ e.1.extract = .ok record ∧
      finish (registryAfter {} ds).serviceNames defaultNamespace record = .ok e.2 := by
  obtain ⟨⟨d, record⟩, hmem, hmanifest⟩ := List.mem_filterMap.mp h
  obtain ⟨m, hm, rfl⟩ := Option.map_eq_some_iff.mp hmanifest
  exact ⟨record, hmem, (Registry.holds_empty.registryAfter ds).extract _ hmem, finishing_manifest?_eq_some hm⟩

theorem map_fst_accepted_sublist (es : List (Declaration × Except Failure Record)) :
    ((accepted es).map (·.1)).Sublist (es.map (·.1)) := by
  rw [accepted, List.map_filterMap, ← List.filterMap_eq_map]
  refine filterMap_sublist_of_imp (fun e d hd => ?_) es
  obtain ⟨x, hx, rfl⟩ := Option.map_eq_some_iff.mp hd
  obtain ⟨record, -, rfl⟩ := Option.map_eq_some_iff.mp hx
  rfl

theorem compose_origins {policy : FailurePolicy} {r : Report} (h : compose ⟨policy, defaultNamespace⟩ ds = .ok r) :
    r.Origins ds (origins defaultNamespace ds) where
  manifests := by
    rw [compose_manifests h, ← map_snd_accepted, List.filterMap_map, origins, List.map_filterMap]
    exact List.filterMap_congr fun e _ => by simp [Function.comp_def]
  declarations := by
    have hsublist := map_fst_accepted_sublist (enrollments {} ds)
    rw [map_fst_enrollments] at hsublist
    refine List.Sublist.trans ?_ hsublist
    rw [origins, List.map_filterMap, ← List.filterMap_eq_map]
    refine filterMap_sublist_of_imp (fun e d hd => ?_) _
    obtain ⟨x, hx, rfl⟩ := Option.map_eq_some_iff.mp hd
    obtain ⟨m, -, rfl⟩ := Option.map_eq_some_iff.mp hx
    rfl
  read e he := by
    obtain ⟨record, -, hextract, hfinish⟩ := mem_origins he
    obtain ⟨hkind, hname, -⟩ := finish_kind_name hfinish
    exact ⟨record, hextract, hkind, hname⟩

end

end Manifests
