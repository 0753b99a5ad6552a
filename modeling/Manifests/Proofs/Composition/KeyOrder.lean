import Manifests.Proofs.Composition.References
import Manifests.Proofs.Extraction.KeyOrder

/-! # The order of keys in a run

A run sees a declaration through its record, except where it reports a failure. So declarations whose entries are put
in another order, at any depth, give the same report if it has no failures: the same manifests, in the same order, and
the same progress. -/

namespace Manifests

/-! ### Declarations with the same records -/

/-- Two declarations are read, and give the same record. -/
def SameRecord (d d' : Declaration) : Prop := ∃ record, d.extract = .ok record ∧ d'.extract = .ok record

theorem SameRecord.enroll_eq {d d' : Declaration} (h : SameRecord d d') (registry : Registry) :
    enroll registry d' = enroll registry d := by
  obtain ⟨record, hrecord, hrecord'⟩ := h
  have hkind : d'.kind = d.kind := (Declaration.extract_kind hrecord').symm.trans (Declaration.extract_kind hrecord)
  rw [enroll_of_extract hrecord, enroll_of_extract hrecord', hkind]

section
variable {registry : Registry} {ds ds' : List Declaration}

/-- Declarations that give the same records are enrolled alike. -/
theorem enrollments_sameRecord (h : List.Forall₂ SameRecord ds ds') :
    (enrollments registry ds').map (·.2) = (enrollments registry ds).map (·.2) ∧
      registryAfter registry ds' = registryAfter registry ds := by
  induction h generalizing registry with
  | nil => exact ⟨rfl, rfl⟩
  | @cons d d' ds ds' hd _ ih =>
    obtain ⟨hresults, hregistry⟩ := @ih (registry.enter (enroll registry d))
    simp only [enrollments, registryAfter, List.map_cons, List.foldl_cons, hd.enroll_eq]
    exact ⟨congrArg _ hresults, hregistry⟩

theorem enrolledRecords_of_results {es es' : List (Declaration × Except Failure Record)}
    (h : es'.map (·.2) = es.map (·.2)) : enrolledRecords es' = enrolledRecords es := by
  have hresults (es : List (Declaration × Except Failure Record)) :
      enrolledRecords es = (es.map (·.2)).filterMap Except.toOption := by
    rw [enrolledRecords, List.filterMap_map]
    rfl
  rw [hresults, hresults, h]

theorem rejections_eq_nil_iff {es : List (Declaration × Except Failure Record)} :
    rejections es = [] ↔ ∀ x ∈ es.map (·.2), ∃ record, x = .ok record := by
  rw [rejections, List.filterMap_eq_nil_iff, List.forall_mem_map]
  refine forall₂_congr fun e _ => ?_
  obtain ⟨d, x⟩ := e
  cases x <;> simp

/-- Nothing that a run without rejections gives depends on more of a declaration than its record. -/
theorem endings_sameRecord {defaultNamespace : Option String} (h : List.Forall₂ SameRecord ds ds')
    (hrejections : rejections (enrollments {} ds) = []) :
    endings defaultNamespace ds' = endings defaultNamespace ds := by
  obtain ⟨hresults, hregistry⟩ := @enrollments_sameRecord {} ds ds' h
  have hrejections' : rejections (enrollments {} ds') = [] := by
    rw [rejections_eq_nil_iff] at hrejections ⊢
    rwa [hresults]
  rw [endings, endings, hrejections, hrejections', enrolledRecords_of_results hresults, hregistry]

end

/-! ### Entries in another order -/

/-- The entries of declarations that repeat no key may stand in any order, at any depth: a run that gives a report
    without failures gives the same report, with the same manifests and the same progress. -/
theorem compose_shuffles {options : Options} {ds ds' : List Declaration} {r : Report}
    (hkeys : ∀ d ∈ ds, d.KeysDistinct) (hshuffles : List.Forall₂ (Relation.ReflTransGen Declaration.Shuffles) ds ds')
    (h : compose options ds = .ok r) (hsuccess : r.failures = []) : compose options ds' = .ok r := by
  -- Nothing failed, so every declaration was read.
  obtain ⟨earlier, hearlier, hholds, -⟩ := compose_without_failures h hsuccess
  have hextract : ∀ d ∈ ds, ∃ record, d.extract = .ok record := by
    rw [← hearlier, List.forall_mem_map]
    exact fun e he => ⟨e.2, hholds.extract e he⟩
  have hsame : List.Forall₂ SameRecord ds ds' := by
    have hall : List.Forall₂ (fun d d' => ((∃ record, d.extract = .ok record) ∧ d.KeysDistinct) ∧
        Relation.ReflTransGen Declaration.Shuffles d d') ds ds' :=
      (List.forall₂_and_left _ _).mpr ⟨fun d hd => ⟨hextract d hd, hkeys d hd⟩, hshuffles⟩
    refine hall.imp ?_
    rintro d d' ⟨⟨⟨record, hrecord⟩, hd⟩, hmoved⟩
    exact ⟨record, hrecord, Declaration.extract_shuffles hd hmoved hrecord⟩
  have hrejections : rejections (enrollments {} ds) = [] := by
    rw [compose_eq_ok h] at hsuccess
    have hfailures : (endings options.defaultNamespace ds).filterMap (·.failure?) = [] := hsuccess
    rw [endings, List.filterMap_append, List.append_eq_nil_iff] at hfailures
    exact rejections_eq_nil hfailures.1
  rw [compose_eq_foldlM, endings_sameRecord hsame hrejections, ← hshuffles.length_eq, ← compose_eq_foldlM, h]

/-- A service and a route to it. The entries of the service, of its one port and of the route's target stand in one of
    two orders. -/
def servedRoute (first : Bool) : List Declaration :=
  let order (es : List Entry) : List Entry := if first then es else es.reverse
  [⟨.service, some "svcA",
     order [("namespace", .text "shop"), ("ports", .list [.map (order [("name", .text "web"), ("port", .int 80)])])],
     ⟨"app.yaml", 0⟩⟩,
   ⟨.route, some "edge",
     order [("to", .map (order [("serviceName", .text "svcA"), ("weight", .int 5)])), ("host", .text "a.example")],
     ⟨"app.yaml", 1⟩⟩]

theorem servedRoute_shuffles :
    List.Forall₂ (Relation.ReflTransGen Declaration.Shuffles) (servedRoute true) (servedRoute false) := by
  refine .cons ?_ (.cons ?_ .nil)
  · -- First the entries of the port, then those of the service.
    have hport := @Value.Shuffles.inside "ports" _ _ [("namespace", .text "shop")] []
      (@Value.Shuffles.item _ _ [] [] (.entries (List.Perm.swap ("port", .int 80) ("name", .text "web") [])))
    exact .tail (.single ⟨_, hport, rfl⟩) ⟨_, .entries (List.Perm.swap _ _ []), rfl⟩
  · have htarget := @Value.Shuffles.inside "to" _ _ [] [("host", .text "a.example")]
      (.entries (List.Perm.swap ("weight", .int 5) ("serviceName", .text "svcA") []))
    exact .tail (.single ⟨_, htarget, rfl⟩) ⟨_, .entries (List.Perm.swap _ _ []), rfl⟩

theorem servedRoute_keysDistinct : ∀ d ∈ servedRoute true, d.KeysDistinct := by
  simp [servedRoute, Declaration.KeysDistinct, Value.keysDistinct_map_iff, Value.keysDistinct_list_iff,
    Value.KeysDistinct.text, Value.KeysDistinct.int, or_imp, forall_and]

/-- The report has a manifest for each of the two. -/
theorem compose_servedRoute :
    ∃ r, (∀ d ∈ servedRoute true, d.KeysDistinct) ∧
      List.Forall₂ (Relation.ReflTransGen Declaration.Shuffles) (servedRoute true) (servedRoute false) ∧
      compose ⟨.keepGoing, none⟩ (servedRoute true) = .ok r ∧ r.failures = [] ∧ r.manifests.length = 2 ∧
      compose ⟨.keepGoing, none⟩ (servedRoute false) = .ok r :=
  ⟨_, servedRoute_keysDistinct, servedRoute_shuffles, compose_keepGoing none (servedRoute true), rfl, rfl,
    compose_shuffles servedRoute_keysDistinct servedRoute_shuffles (compose_keepGoing none (servedRoute true)) rfl⟩

end Manifests
