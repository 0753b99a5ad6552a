import Manifests.Proofs.Composition.Origins
import Manifests.Proofs.Composition.References
import Manifests.Proofs.Composition.Stages

/-! # Names that are filled in

A reference is replaced by the name under which its service was registered, and a service is registered before its
rules are checked. So a service without a name is found as well, and the name that is filled in is then empty. That
is so exactly if the failure of this service is reported (`serviceName_eq_empty_iff`), and a run that stops at the
first failure reports none. -/

namespace Manifests

open Extraction Validation

/-- The failure of a service that has no name. -/
def Failure.namelessService (id : String) : Failure := .violation .service id ⟨FieldPath.field [] "name", .named⟩

/-! ### Services without a name -/

theorem ServicePort.rule_ne_named (path : FieldPath) (p : ServicePort) : ∀ v ∈ p.violations path, v.rule ≠ .named := by
  intro v hv
  rcases List.mem_append.mp hv with hv | hv
  · obtain rfl := eq_of_mem_check hv
    nofun
  · cases htarget : p.targetPort with
    | none =>
      rw [htarget] at hv
      cases hv
    | some n =>
      rw [htarget] at hv
      obtain rfl := eq_of_mem_check hv
      nofun

/-- The rules for services say nothing of the name. -/
theorem Service.rule_ne_named (s : Service) : ∀ v ∈ s.violations, v.rule ≠ .named := by
  intro v hv
  rcases List.mem_append.mp hv with hv | hv
  · obtain rfl := eq_of_mem_check hv
    nofun
  · exact forall_mem_checkItems (fun path p _ => p.rule_ne_named path) v hv

section
variable {services : ServiceNames} {defaultNamespace : Option String} {record : Record}

theorem Record.violations_of_nameless {r : Record} (h : r.name = "") :
    r.violations = ⟨FieldPath.field [] "name", .named⟩ :: r.spec.violations := by
  simp [Record.violations, check, h]

theorem Record.violations_of_named {r : Record} (h : r.name ≠ "") : r.violations = r.spec.violations := by
  simp [Record.violations, check, h]

theorem exists_service_of_kind (h : record.kind = .service) : ∃ s, record.spec = .service s := by
  unfold Record.kind at h
  cases hspec : record.spec with
  | service s => exact ⟨s, rfl⟩
  | gateway | virtualService | deployment | route | buildConfig =>
    rw [hspec] at h
    cases h

/-- Finishing fails for a lacking name exactly if a service has none. -/
theorem finish_eq_namelessService_iff {id : String} :
    finish services defaultNamespace record = .error (.namelessService id) ↔
      record.kind = .service ∧ record.name = "" ∧ record.id = id := by
  constructor
  · intro h
    rw [finish_eq] at h
    cases hresolve : record.spec.withDefaults.resolve services with
    | error reference => simp [hresolve, Failure.namelessService] at h
    | ok spec =>
      simp only [hresolve] at h
      cases hviolations : Record.violations { record.withDefaults defaultNamespace with spec } with
      | nil => simp [hviolations] at h
      | cons violation others =>
        simp only [hviolations, Failure.namelessService, Except.error.injEq, Failure.violation.injEq] at h
        obtain ⟨hkind, hsubject, rfl⟩ := h
        refine ⟨hkind, ?_⟩
        by_cases hname : record.name = ""
        · exact ⟨hname, by simpa [Record.subject, Record.withDefaults, hname] using hsubject⟩
        · -- With a name, the first violation is one of the rules for services.
          obtain ⟨s, hs⟩ := exists_service_of_kind hkind
          rw [hs] at hresolve
          obtain rfl : .service s = spec := Except.ok.inj hresolve
          have hrules : s.violations = ⟨FieldPath.field [] "name", .named⟩ :: others :=
            (Record.violations_of_named (r := { record.withDefaults defaultNamespace with spec := .service s })
              hname).symm.trans hviolations
          exact absurd rfl (s.rule_ne_named _ (hrules ▸ List.mem_cons_self))
  · rintro ⟨hkind, hname, rfl⟩
    obtain ⟨s, hs⟩ := exists_service_of_kind hkind
    rw [finish_eq, hs]
    have hresolve : (Spec.service s).withDefaults.resolve services = .ok (.service s) := rfl
    simp only [hresolve]
    rw [Record.violations_of_nameless]
    · simp [Failure.namelessService, hkind, Record.subject, Record.withDefaults, hname]
    · exact hname

theorem finishing_failure?_eq_some_iff {f : Failure} :
    (finishing services defaultNamespace record).failure? = some f ↔
      finish services defaultNamespace record = .error f := by
  cases hfinish : finish services defaultNamespace record <;> simp [finishing, hfinish]

end

/-! ### Reports -/

section
variable {options : Options} {ds : List Declaration} {r : Report}

theorem namelessService_mem_failures_iff (h : compose options ds = .ok r) {id : String} :
    .namelessService id ∈ r.failures ↔
      ∃ record ∈ enrolledRecords (enrollments {} ds), record.kind = .service ∧ record.name = "" ∧ record.id = id := by
  have hfinishing : (Failure.namelessService id).whileFinishing = true := rfl
  have hfailed (record : Record) :
      (finishing (registryAfter {} ds).serviceNames options.defaultNamespace record).failure? =
          some (.namelessService id) ↔ record.kind = .service ∧ record.name = "" ∧ record.id = id := by
    rw [finishing_failure?_eq_some_iff, finish_eq_namelessService_iff]
  calc .namelessService id ∈ r.failures
    _ ↔ .namelessService id ∈ r.failures.filter (·.whileFinishing) := by simp [hfinishing]
    _ ↔ ∃ record ∈ enrolledRecords (enrollments {} ds), _ := by
        rw [filter_whileFinishing_failures h, failings, List.mem_filterMap]
        simp only [hfailed]

/-- The name that a reference is resolved to is empty exactly if the service was reported to have none. -/
theorem serviceName_eq_empty_iff (h : compose options ds = .ok r) {id name : String}
    (hname : (registryAfter {} ds).serviceNames id = some name) :
    name = "" ↔ .namelessService id ∈ r.failures := by
  rw [namelessService_mem_failures_iff h]
  constructor
  · rintro rfl
    obtain ⟨record, hrecord, htitle⟩ := List.mem_map.mp (serviceNames_registryAfter.mp hname)
    obtain ⟨hkind, hid, hempty⟩ := Title.mk.inj htitle
    exact ⟨record, hrecord, hkind, hempty, hid⟩
  · rintro ⟨record, hrecord, hkind, hempty, hid⟩
    have htitle : (⟨.service, id, ""⟩ : Title) ∈ (enrolledRecords (enrollments {} ds)).map Record.title :=
      List.mem_map.mpr ⟨record, hrecord, by rw [Record.title, hkind, hid, hempty]⟩
    exact Option.some.inj (hname.symm.trans (serviceNames_registryAfter.mpr htitle))

theorem namesServices_of_mem_origins {names : String → String → Prop} {defaultNamespace : Option String}
    {e : Declaration × Manifest} (he : e ∈ origins defaultNamespace ds)
    (hnames : ∀ id name, (registryAfter {} ds).serviceNames id = some name → names id name) :
    e.2.NamesServices names e.1 := by
  obtain ⟨record, -, hextract, hfinish⟩ := mem_origins he
  obtain ⟨hkind, hname⟩ := finish_shows hfinish
  rw [Declaration.extract_kind hextract] at hkind
  exact {
    kind := hkind
    name := ⟨record, hextract, hname⟩
    virtualService := fun hvirtual => virtualServiceNames_of_finish hextract hvirtual hfinish hnames
    route := fun hroute => routeNames_of_finish hextract hroute hfinish hnames }

theorem failures_of_failFast (h : compose options ds = .ok r) (hpolicy : options.failurePolicy = .failFast) :
    r.failures = [] := by
  obtain ⟨policy, defaultNamespace⟩ := options
  obtain rfl : policy = .failFast := hpolicy
  have hcut := compose_failFast defaultNamespace ds
  rw [h] at hcut
  cases hcut
  assumption

end

/-- How references are filled in, in the manifests of a report: with a name that is empty exactly if the service that
    is referred to was reported to have no name. So no name is empty where no service was reported so, and in a run
    that stops at the first failure. -/
structure Report.FillsIn (r : Report) (policy : FailurePolicy) (origins : List (Declaration × Manifest)) : Prop where
  empty_iff : ∀ e ∈ origins,
    e.2.NamesServices (fun id name => name = "" ↔ .namelessService id ∈ r.failures) e.1
  named : (∀ id, .namelessService id ∉ r.failures) → ∀ e ∈ origins, e.2.NamesServices (fun _ name => name ≠ "") e.1
  failFast : policy = .failFast → ∀ e ∈ origins, e.2.NamesServices (fun _ name => name ≠ "") e.1

theorem compose_fillsIn {options : Options} {ds : List Declaration} {r : Report} (h : compose options ds = .ok r) :
    ∃ origins, r.Origins ds origins ∧ r.FillsIn options.failurePolicy origins := by
  have hnamed (hnone : ∀ id, .namelessService id ∉ r.failures) :
      ∀ e ∈ origins options.defaultNamespace ds, e.2.NamesServices (fun _ name => name ≠ "") e.1 :=
    fun e he => namesServices_of_mem_origins he fun id name hname hempty =>
      hnone id ((serviceName_eq_empty_iff h hname).mp hempty)
  refine ⟨_, compose_origins h, ?_, hnamed, fun hpolicy => hnamed fun id => ?_⟩
  · exact fun e he => namesServices_of_mem_origins he fun id name => serviceName_eq_empty_iff h
  · rw [failures_of_failFast h hpolicy]
    exact List.not_mem_nil

/-- A virtual service that refers to two services, one of which has a name without any character that may stand in
    one. -/
def referenceToNameless : List Declaration :=
  [⟨.virtualService, some "front", [("http", .list [.map
      [("route", .list [.map [("destination", .map [("serviceName", .text "svc")])]]),
       ("mirror", .map [("serviceName", .text "svcA")])]])], ⟨"app.yaml", 0⟩⟩,
   ⟨.service, some "svc", [("name", .text "---"), ("ports", .list [.map [("port", .int 80)]])], ⟨"app.yaml", 1⟩⟩,
   ⟨.service, some "svcA", [("ports", .list [.map [("port", .int 80)]])], ⟨"app.yaml", 2⟩⟩]

theorem referenceToNameless_fillsIn :
    ∃ r, compose ⟨.keepGoing, none⟩ referenceToNameless = .ok r ∧ r.failures = [.namelessService "svc"] ∧
      ∃ origins, r.Origins referenceToNameless origins ∧ r.FillsIn .keepGoing origins :=
  ⟨_, compose_keepGoing none referenceToNameless, rfl, compose_fillsIn (compose_keepGoing none referenceToNameless)⟩

/-- The virtual service has a manifest, and one of its hosts is the empty name. -/
theorem referenceToNameless_hosts :
    ∃ r front svcA, compose ⟨.keepGoing, none⟩ referenceToNameless = .ok r ∧ r.manifests = [front, svcA] ∧
      front.tree.get? "spec" = some (.map [("hosts", .list [.text "*"]), ("http", .list [.map
        [("route", .list [.map [("destination", .map [("host", .text "")])]]),
         ("mirror", .map [("host", .text "svc-a")])]])]) :=
  ⟨_, _, _, compose_keepGoing none referenceToNameless, rfl, rfl⟩

end Manifests
