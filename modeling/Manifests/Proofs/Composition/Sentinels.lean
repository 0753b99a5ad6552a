import Manifests.Proofs.Composition.Origins
import Manifests.Proofs.Composition.References
import Manifests.Proofs.Extraction.Sentinels

/-! # `-1` in manifests

The rules of each kind bound every number from below except two: the weights, and the statuses of aborts
(`Spec.Lawful.mem_numbers_iff`). Filling in and resolving keep both, no weight is read as `-1`, and the statuses are
read as they are declared. So a manifest shows `-1` exactly where its declaration aborts requests with that status. -/

namespace Manifests

open Extraction Rendering Validation

/-! ### Negative numbers -/

section
variable {n : Int64}

theorem not_inPortRange_of_neg (hn : n.toInt < 0) : ¬ InPortRange n := by
  unfold InPortRange
  omega

theorem not_inPercentRange_of_neg (hn : n.toInt < 0) : ¬ InPercentRange n := by
  unfold InPercentRange
  omega

theorem Gateway.Lawful.not_mem_numbers {g : Gateway} (h : g.Lawful) (hn : n.toInt < 0) : n ∉ g.numbers := by
  intro hmem
  obtain ⟨s, hs, rfl⟩ := List.mem_map.mp hmem
  exact not_inPortRange_of_neg hn (h.server s hs).port

theorem Destination.Lawful.not_mem_port {d : Destination} (h : d.Lawful) (hn : n.toInt < 0) : n ∉ d.port :=
  fun hmem => not_inPortRange_of_neg hn (h.port n hmem)

theorem FaultInjection.Lawful.mem_numbers_iff {f : FaultInjection} (h : f.Lawful) (hn : n.toInt < 0) :
    n ∈ f.numbers ↔ n ∈ f.abort.map (·.httpStatus) := by
  have hdelay : ∀ d ∈ f.delay, n ∉ d.percent := fun d hd hmem =>
    not_inPercentRange_of_neg hn (h.delay d hd n hmem)
  have habort : ∀ a ∈ f.abort, n ∉ a.percent := fun a ha hmem =>
    not_inPercentRange_of_neg hn (h.abort a ha n hmem)
  rcases f with ⟨_ | delay, _ | abort⟩ <;> simp_all [FaultInjection.numbers, FaultAbort.numbers, eq_comm]

theorem HttpRoute.mem_numbers_iff {r : HttpRoute} :
    n ∈ r.numbers ↔ (∃ m ∈ r.conditions, n ∈ m.port) ∨ (∃ w ∈ r.route, n ∈ w.destination.port ∨ n ∈ w.weight) ∨
      (∃ retries ∈ r.retries, retries.attempts = n) ∨ (∃ f ∈ r.fault, n ∈ f.numbers) ∨ ∃ d ∈ r.mirror, n ∈ d.port := by
  simp [HttpRoute.numbers, WeightedDestination.numbers]

/-- A negative number of a route for HTTP requests is a weight or the status of an abort. -/
theorem HttpRoute.Lawful.mem_numbers_iff {r : HttpRoute} (h : r.Lawful) (hn : n.toInt < 0) :
    n ∈ r.numbers ↔ n ∈ r.weights ∨ n ∈ r.abortStatus? := by
  have hfault : (∃ f ∈ r.fault, n ∈ f.numbers) ↔ n ∈ r.abortStatus? := by
    cases hr : r.fault with
    | none => simp [HttpRoute.abortStatus?, hr]
    | some f => simp [HttpRoute.abortStatus?, hr, (h.fault f hr).mem_numbers_iff hn]
  rw [HttpRoute.mem_numbers_iff, ← hfault]
  constructor
  · rintro (⟨m, hm, hport⟩ | ⟨w, hw, hport | hweight⟩ | ⟨retries, hretries, rfl⟩ | hf | ⟨d, hd, hport⟩)
    · exact absurd (h.ports m hm n hport) (not_inPortRange_of_neg hn)
    · exact absurd hport ((h.destinations w hw).not_mem_port hn)
    · exact .inl (List.mem_flatMap.mpr ⟨w, hw, Option.mem_toList.mpr hweight⟩)
    · exact absurd (h.attempts retries hretries) (Int.not_le.mpr hn)
    · exact .inr hf
    · exact absurd hport ((h.mirror d hd).not_mem_port hn)
  · rintro (hweight | hf)
    · obtain ⟨w, hw, hweight⟩ := List.mem_flatMap.mp hweight
      exact .inr (.inl ⟨w, hw, .inr (Option.mem_toList.mp hweight)⟩)
    · exact .inr (.inr (.inr (.inl hf)))

theorem Service.Lawful.not_mem_numbers {s : Service} (h : s.Lawful) (hn : n.toInt < 0) : n ∉ s.numbers := by
  intro hmem
  obtain ⟨p, hp, hmem⟩ := List.mem_flatMap.mp hmem
  rcases List.mem_cons.mp hmem with rfl | htarget
  · exact not_inPortRange_of_neg hn (h.port p hp).port
  · exact not_inPortRange_of_neg hn ((h.port p hp).targetPort n (Option.mem_toList.mp htarget))

theorem Deployment.Lawful.not_mem_numbers {d : Deployment} (h : d.Lawful) (hn : n.toInt < 0) : n ∉ d.numbers := by
  intro hmem
  rcases List.mem_append.mp hmem with hreplicas | hcontainers
  · exact absurd (h.replicas n (Option.mem_toList.mp hreplicas)) (Int.not_le.mpr hn)
  · obtain ⟨c, hc, hmem⟩ := List.mem_flatMap.mp hcontainers
    obtain ⟨p, hp, rfl⟩ := List.mem_map.mp hmem
    exact not_inPortRange_of_neg hn ((h.container c hc).ports p hp)

/-- A negative number of a route is its weight. -/
theorem Route.Lawful.mem_numbers_iff {r : Route} (h : r.Lawful) (hn : n.toInt < 0) :
    n ∈ r.numbers ↔ n ∈ (r.target.bind (·.weight)).toList := by
  have hport : ∀ p, r.targetPort = some p → n ∉ p.numbers := by
    rintro (m | name) hp hmem
    · obtain rfl := List.mem_singleton.mp hmem
      exact not_inPortRange_of_neg hn (h.targetPort n hp)
    · cases hmem
  cases htarget : r.target <;> cases hr : r.targetPort <;> simp_all [Route.numbers]

/-- A negative number of a lawful specification is a weight or the status of an abort. -/
theorem Spec.Lawful.mem_numbers_iff {s : Spec} (h : s.Lawful) (hn : n.toInt < 0) :
    n ∈ s.numbers ↔ n ∈ s.weights ∨ n ∈ s.abortStatuses := by
  cases s with
  | virtualService v =>
    have hroute (r : HttpRoute) (hr : r ∈ v.http) := (VirtualService.Lawful.http h r hr).mem_numbers_iff hn
    simp only [numbers, VirtualService.numbers, weights, abortStatuses, List.mem_flatMap, Option.mem_toList]
    constructor
    · rintro ⟨r, hr, hmem⟩
      exact ((hroute r hr).mp hmem).imp (⟨r, hr, ·⟩) (⟨r, hr, ·⟩)
    · rintro (⟨r, hr, hmem⟩ | ⟨r, hr, hmem⟩)
      · exact ⟨r, hr, (hroute r hr).mpr (.inl hmem)⟩
      · exact ⟨r, hr, (hroute r hr).mpr (.inr hmem)⟩
  | route r => simpa [numbers, weights, abortStatuses] using Route.Lawful.mem_numbers_iff h hn
  | gateway g => simpa [numbers, weights, abortStatuses] using Gateway.Lawful.not_mem_numbers h hn
  | service s => simpa [numbers, weights, abortStatuses] using Service.Lawful.not_mem_numbers h hn
  | deployment d => simpa [numbers, weights, abortStatuses] using Deployment.Lawful.not_mem_numbers h hn
  | buildConfig b => simp [numbers, weights, abortStatuses]

end

/-! ### Resolving -/

section
variable {services : ServiceNames}

theorem HttpRoute.resolve_weights {h h' : HttpRoute} (hresolve : h.resolve services = .ok h') :
    h.weights = h'.weights := by
  obtain ⟨route, hroute, mirror, -, rfl⟩ := HttpRoute.resolve_eq_ok_iff.mp hresolve
  refine flatMap_eq_of_forall₂ (hroute.imp fun w w' hw => ?_)
  obtain ⟨destination, -, rfl⟩ := WeightedDestination.resolve_eq_ok_iff.mp hw
  rfl

theorem HttpRoute.resolve_abortStatus? {h h' : HttpRoute} (hresolve : h.resolve services = .ok h') :
    h.abortStatus? = h'.abortStatus? := by
  obtain ⟨route, -, mirror, -, rfl⟩ := HttpRoute.resolve_eq_ok_iff.mp hresolve
  rfl

theorem Spec.resolve_weights {s s' : Spec} (h : s.withDefaults.resolve services = .ok s') :
    s'.weights = s.weights := by
  cases s with
  | virtualService v =>
    obtain ⟨v', hv, rfl⟩ := Spec.resolve_virtualService_eq_ok_iff.mp h
    obtain ⟨http, hhttp, rfl⟩ := VirtualService.resolve_eq_ok_iff.mp hv
    rw [VirtualService.withDefaults_http] at hhttp
    exact (flatMap_eq_of_forall₂ (hhttp.imp fun _ _ => HttpRoute.resolve_weights)).symm
  | route r =>
    obtain ⟨r', hr, rfl⟩ := Spec.resolve_route_eq_ok_iff.mp h
    obtain ⟨target, htarget, rfl⟩ := Route.resolve_eq_ok_iff.mp hr
    have hweight : r.target.bind (·.weight) = target.bind (·.weight) := by
      generalize r.target = declared at htarget
      cases htarget with
      | none => rfl
      | some ht =>
        obtain ⟨name, -, rfl⟩ := RouteTarget.resolve_eq_ok_iff.mp ht
        rfl
    exact congrArg Option.toList hweight.symm
  | gateway | service | deployment | buildConfig =>
    cases h
    rfl

theorem Spec.resolve_abortStatuses {s s' : Spec} (h : s.withDefaults.resolve services = .ok s') :
    s'.abortStatuses = s.abortStatuses := by
  cases s with
  | virtualService v =>
    obtain ⟨v', hv, rfl⟩ := Spec.resolve_virtualService_eq_ok_iff.mp h
    obtain ⟨http, hhttp, rfl⟩ := VirtualService.resolve_eq_ok_iff.mp hv
    rw [VirtualService.withDefaults_http] at hhttp
    refine (flatMap_eq_of_forall₂ (hhttp.imp fun h h' hresolve => ?_)).symm
    rw [HttpRoute.resolve_abortStatus? hresolve]
  | route r =>
    obtain ⟨r', -, rfl⟩ := Spec.resolve_route_eq_ok_iff.mp h
    rfl
  | gateway | service | deployment | buildConfig =>
    cases h
    rfl

end

/-! ### Manifests -/

section
variable {services : ServiceNames} {defaultNamespace : Option String} {d : Declaration} {record : Record}
  {m : Manifest}

theorem mentions_sentinel_iff_of_finish (hextract : d.extract = .ok record)
    (hfinish : finish services defaultNamespace record = .ok m) : m.tree.Mentions (-1) ↔ d.AbortsWith (-1) := by
  obtain ⟨spec, valid, hspec, hrecord, rfl⟩ := finish_record hfinish
  have hlawful := (Record.valid_iff.mp valid.valid).2
  calc valid.record.render.Mentions (-1)
    _ ↔ -1 ∈ valid.record.spec.numbers := Record.render_mentions
    _ ↔ -1 ∈ valid.record.spec.weights ∨ -1 ∈ valid.record.spec.abortStatuses :=
        hlawful.mem_numbers_iff (by decide)
    _ ↔ -1 ∈ record.spec.weights ∨ -1 ∈ record.spec.abortStatuses := by
        rw [hrecord, Spec.resolve_weights hspec, Spec.resolve_abortStatuses hspec]
    _ ↔ -1 ∈ record.spec.abortStatuses := or_iff_right (Declaration.extract_weights hextract)
    _ ↔ d.AbortsWith (-1) := Declaration.extract_abortStatuses hextract

end

/-- A manifest of a run shows the number `-1`, at whatever depth, exactly if it is that of a virtual service that aborts
    requests with the status `-1`, written as a number or as a text. In every other field `-1` stands for none or
    breaks a rule. -/
theorem compose_sentinels {options : Options} {ds : List Declaration} {r : Report} (h : compose options ds = .ok r) :
    ∃ origins, r.Origins ds origins ∧ ∀ e ∈ origins, e.2.tree.Mentions (-1) ↔ e.1.AbortsWith (-1) := by
  refine ⟨_, compose_origins h, fun e he => ?_⟩
  obtain ⟨record, -, hextract, hfinish⟩ := mem_origins he
  exact mentions_sentinel_iff_of_finish hextract hfinish

/-- A virtual service, a service and a route that write `-1` for none, as a number and as a text. -/
def sentinelsForNone : List Declaration :=
  [⟨.virtualService, some "front", [("http", .list [.map
      [("match", .list [.map [("scheme", .map [("exact", .text "https")]), ("port", .text "-1")]]),
       ("route", .list [.map
         [("destination", .map [("host", .text "a"), ("port", .map [("number", .int (-1))])]),
          ("weight", .text " -1 ")]]),
       ("fault", .map [("abort", .map [("percent", .int (-1)), ("httpStatus", .int 503)])])]])], ⟨"app.yaml", 0⟩⟩,
   ⟨.service, some "a", [("ports", .list [.map [("port", .int 80), ("targetPort", .int (-1))]])], ⟨"app.yaml", 1⟩⟩,
   ⟨.route, some "edge", [("to", .map [("serviceName", .text "a"), ("weight", .int (-1))])], ⟨"app.yaml", 2⟩⟩]

theorem sentinelsForNone_sentinels :
    ∃ r, compose ⟨.keepGoing, none⟩ sentinelsForNone = .ok r ∧
      r.manifests.map (·.kind) = [.virtualService, .service, .route] ∧
      ∃ origins, r.Origins sentinelsForNone origins ∧
        ∀ e ∈ origins, e.2.tree.Mentions (-1) ↔ e.1.AbortsWith (-1) :=
  ⟨_, compose_keepGoing none sentinelsForNone, rfl, compose_sentinels (compose_keepGoing none sentinelsForNone)⟩

/-- A virtual service that aborts requests with the status `-1`. -/
def abortsWithSentinel : Declaration :=
  ⟨.virtualService, some "front", [("http", .list [.map
      [("route", .list [.map [("destination", .map [("host", .text "a")])]]),
       ("fault", .map [("abort", .map [("httpStatus", .int (-1))])])]])], ⟨"app.yaml", 0⟩⟩

/-- The status is no failure, and its manifest shows it. -/
theorem abortsWithSentinel_mentions :
    ∃ r m, compose ⟨.keepGoing, none⟩ [abortsWithSentinel] = .ok r ∧ r.failures = [] ∧ r.manifests = [m] ∧
      m.tree.Mentions (-1) := by
  refine ⟨_, _, compose_keepGoing none [abortsWithSentinel], rfl, rfl, .of_get? "spec" (w := .map
    [("hosts", .list [.text "*"]), ("http", .list [.map
      [("route", .list [.map [("destination", .map [("host", .text "a")])]]),
       ("fault", .map [("abort", .map [("httpStatus", .int (-1))])])]])]) rfl ?_⟩
  simp

end Manifests
