import Manifests.Validation.Record
import Mathlib.Logic.Basic
import Mathlib.Tactic.MkIffOfInductiveProp

/-! # Which records are valid

What a record without violations is like. Each part of a record has its rules as a proposition (`Lawful`), and the
part has no violation exactly if they hold, at whatever path it stands. -/

namespace Manifests

namespace Validation

/-- A number is that of a port. -/
def InPortRange (n : Int64) : Prop := 1 ≤ n.toInt ∧ n.toInt ≤ 65535

/-- A number is a percentage. -/
def InPercentRange (n : Int64) : Prop := 0 ≤ n.toInt ∧ n.toInt ≤ 100

/-! ### Checks -/

section
variable {α : Type} {path : FieldPath}

@[simp] theorem check_eq_nil_iff {rule : Rule} {holds : Bool} : check path rule holds = [] ↔ holds = true := by
  cases holds <;> simp [check]

@[simp] theorem checkPort_eq_nil_iff {n : Int64} : checkPort path n = [] ↔ InPortRange n := by
  simp [checkPort, isPort, InPortRange]

@[simp] theorem checkOptional_eq_nil_iff {value : Option α} {violations : α → List Violation} :
    checkOptional value violations = [] ↔ ∀ a ∈ value, violations a = [] := by
  cases value <;> simp [checkOptional]

/-- Where what is wrong with an item does not depend on its path, a list is right if each item is. -/
theorem checkItems_eq_nil_iff {violations : FieldPath → α → List Violation} {P : α → Prop} {items : List α}
    (h : ∀ path a, violations path a = [] ↔ P a) :
    checkItems path items violations = [] ↔ ∀ a ∈ items, P a := by
  unfold checkItems
  generalize 0 = i
  induction items generalizing i with
  | nil => simp [checkItemsFrom]
  | cons a items ih => simp [checkItemsFrom, h, ih]

/-- What holds of the violations of each item, at whatever path, holds of those of a list. -/
theorem forall_mem_checkItems {violations : FieldPath → α → List Violation} {P : Violation → Prop} {items : List α}
    (h : ∀ path, ∀ a ∈ items, ∀ v ∈ violations path a, P v) : ∀ v ∈ checkItems path items violations, P v := by
  unfold checkItems
  generalize 0 = i
  induction items generalizing i with
  | nil => simp [checkItemsFrom]
  | cons a items ih =>
    obtain ⟨hhead, htail⟩ : (∀ path, ∀ v ∈ violations path a, P v) ∧
        ∀ path, ∀ b ∈ items, ∀ v ∈ violations path b, P v :=
      ⟨fun path => h path a List.mem_cons_self, fun path b hb => h path b (List.mem_cons_of_mem _ hb)⟩
    intro v hv
    rcases List.mem_append.mp hv with hv | hv
    · exact hhead _ v hv
    · exact ih htail _ v hv

theorem eq_of_mem_check {rule : Rule} {holds : Bool} {v : Violation} (h : v ∈ check path rule holds) :
    v = ⟨path, rule⟩ := by
  cases holds with
  | true => cases h
  | false => exact List.mem_singleton.mp h

end

end Validation

open Validation

/-! ### Gateways -/

/-- The material that a mode of encryption needs is there. -/
@[mk_iff] structure ServerTls.Lawful (t : ServerTls) : Prop where
  certificate : t.mode = .simple ∨ t.mode = .mutual → t.serverCertificate.isSome
  key : t.mode = .simple ∨ t.mode = .mutual → t.privateKey.isSome
  authorities : t.mode = .mutual → t.caCertificates.isSome

theorem ServerTls.violations_eq_nil_iff (path : FieldPath) (t : ServerTls) : t.violations path = [] ↔ t.Lawful := by
  rw [ServerTls.lawful_iff]
  cases hmode : t.mode <;> simp [ServerTls.violations, hmode]

@[mk_iff] structure Server.Lawful (s : Server) : Prop where
  hosts : s.hosts ≠ []
  port : InPortRange s.port.number
  tls : ∀ t ∈ s.tls, t.Lawful

theorem Server.violations_eq_nil_iff (path : FieldPath) (s : Server) : s.violations path = [] ↔ s.Lawful := by
  simp [Server.lawful_iff, Server.violations, ServerTls.violations_eq_nil_iff]

@[mk_iff] structure Gateway.Lawful (g : Gateway) : Prop where
  selector : g.selector.entries ≠ []
  servers : g.servers ≠ []
  server : ∀ s ∈ g.servers, s.Lawful

theorem Gateway.violations_eq_nil_iff (g : Gateway) : g.violations = [] ↔ g.Lawful := by
  simp [Gateway.lawful_iff, Gateway.violations, TextMap.isEmpty,
    checkItems_eq_nil_iff Server.violations_eq_nil_iff]

/-! ### Virtual services -/

@[mk_iff] structure Destination.Lawful (d : Destination) : Prop where
  host : d.host.isSome
  port : ∀ n ∈ d.port, InPortRange n

theorem Destination.violations_eq_nil_iff (path : FieldPath) (d : Destination) :
    d.violations path = [] ↔ d.Lawful := by
  simp [Destination.lawful_iff, Destination.violations]

@[mk_iff] structure FaultInjection.Lawful (f : FaultInjection) : Prop where
  delay : ∀ d ∈ f.delay, ∀ n ∈ d.percent, InPercentRange n
  abort : ∀ a ∈ f.abort, ∀ n ∈ a.percent, InPercentRange n

theorem FaultInjection.violations_eq_nil_iff (path : FieldPath) (f : FaultInjection) :
    f.violations path = [] ↔ f.Lawful := by
  rw [FaultInjection.lawful_iff]
  rcases f with ⟨_ | delay, _ | abort⟩ <;> simp [FaultInjection.violations, isPercent, InPercentRange]

/-- The rules of a route for HTTP requests. -/
@[mk_iff] structure HttpRoute.Lawful (h : HttpRoute) : Prop where
  routeOrRedirect : h.route ≠ [] ∨ h.redirect.isSome
  notBoth : h.route = [] ∨ h.redirect = none
  noRewrite : h.redirect = none ∨ h.rewrite = none
  destinations : ∀ w ∈ h.route, w.destination.Lawful
  mirror : ∀ d ∈ h.mirror, d.Lawful
  attempts : ∀ r ∈ h.retries, 0 ≤ r.attempts.toInt
  fault : ∀ f ∈ h.fault, f.Lawful
  ports : ∀ m ∈ h.conditions, ∀ n ∈ m.port, InPortRange n

theorem HttpRoute.violations_eq_nil_iff (path : FieldPath) (h : HttpRoute) : h.violations path = [] ↔ h.Lawful := by
  have hdestination (path : FieldPath) (w : WeightedDestination) :=
    Destination.violations_eq_nil_iff (path.field "destination") w.destination
  have hport (path : FieldPath) (m : MatchRequest) :
      checkOptional m.port (checkPort (path.field "port")) = [] ↔ ∀ n ∈ m.port, InPortRange n := by simp
  simp [HttpRoute.lawful_iff, HttpRoute.violations, HttpRoute.shapeViolations, checkItems_eq_nil_iff hdestination,
    Destination.violations_eq_nil_iff, FaultInjection.violations_eq_nil_iff, checkItems_eq_nil_iff hport]

@[mk_iff] structure VirtualService.Lawful (v : VirtualService) : Prop where
  hosts : v.hosts ≠ []
  http : ∀ h ∈ v.http, h.Lawful

theorem VirtualService.violations_eq_nil_iff (v : VirtualService) : v.violations = [] ↔ v.Lawful := by
  simp [VirtualService.lawful_iff, VirtualService.violations,
    checkItems_eq_nil_iff HttpRoute.violations_eq_nil_iff]

/-! ### Services and deployments -/

@[mk_iff] structure ServicePort.Lawful (p : ServicePort) : Prop where
  port : InPortRange p.port
  targetPort : ∀ n ∈ p.targetPort, InPortRange n

theorem ServicePort.violations_eq_nil_iff (path : FieldPath) (p : ServicePort) :
    p.violations path = [] ↔ p.Lawful := by
  simp [ServicePort.lawful_iff, ServicePort.violations]

@[mk_iff] structure Service.Lawful (s : Service) : Prop where
  ports : s.ports ≠ []
  port : ∀ p ∈ s.ports, p.Lawful

theorem Service.violations_eq_nil_iff (s : Service) : s.violations = [] ↔ s.Lawful := by
  simp [Service.lawful_iff, Service.violations, checkItems_eq_nil_iff ServicePort.violations_eq_nil_iff]

@[mk_iff] structure Container.Lawful (c : Container) : Prop where
  name : Text.isAllBlank c.name = false
  image : Text.isAllBlank c.image = false
  ports : ∀ p ∈ c.ports, InPortRange p.containerPort

theorem Container.violations_eq_nil_iff (path : FieldPath) (c : Container) : c.violations path = [] ↔ c.Lawful := by
  have hport (path : FieldPath) (p : ContainerPort) :
      checkPort (path.field "containerPort") p.containerPort = [] ↔ InPortRange p.containerPort := by simp
  simp [Container.lawful_iff, Container.violations, checkItems_eq_nil_iff hport]

@[mk_iff] structure Deployment.Lawful (d : Deployment) : Prop where
  replicas : ∀ n ∈ d.replicas, 0 ≤ n.toInt
  containers : d.containers ≠ []
  container : ∀ c ∈ d.containers, c.Lawful

theorem Deployment.violations_eq_nil_iff (d : Deployment) : d.violations = [] ↔ d.Lawful := by
  simp [Deployment.lawful_iff, Deployment.violations,
    checkItems_eq_nil_iff Container.violations_eq_nil_iff]

/-! ### Routes -/

@[mk_iff] structure RouteTls.Lawful (t : RouteTls) : Prop where
  termination : t.termination ∈ terminations
  certificate : t.termination = "passthrough" ∨ t.key = none ∨ t.certificate.isSome

theorem RouteTls.violations_eq_nil_iff (path : FieldPath) (t : RouteTls) : t.violations path = [] ↔ t.Lawful := by
  simp [RouteTls.lawful_iff, RouteTls.violations, or_assoc]

@[mk_iff] structure Route.Lawful (r : Route) : Prop where
  target : ∃ t, r.target = some t ∧ t.name.isSome
  targetPort : ∀ n, r.targetPort = some (.number n) → InPortRange n
  tls : ∀ t ∈ r.tls, t.Lawful

theorem Route.violations_eq_nil_iff (r : Route) : r.violations = [] ↔ r.Lawful := by
  rw [Route.lawful_iff]
  rcases r with ⟨host, path, _ | target, _ | (n | name), tls⟩ <;>
    simp [Route.violations, PortRef.violations, RouteTls.violations_eq_nil_iff]

/-! ### Build configurations -/

@[mk_iff] structure BuildConfig.Lawful (b : BuildConfig) : Prop where
  source : ∃ s, b.source = some s ∧ Text.isAllBlank s.gitUri = false
  base : ∀ s ∈ b.strategy, s.type = .source → s.base.isSome
  output : b.output.isSome

theorem BuildConfig.violations_eq_nil_iff (b : BuildConfig) : b.violations = [] ↔ b.Lawful := by
  rw [BuildConfig.lawful_iff]
  rcases b with ⟨_ | source, strategy, output, triggers⟩ <;>
    simp [BuildConfig.violations, BuildStrategy.violations, imp_iff_not_or]

/-! ### Records -/

/-- The rules of a kind hold. -/
def Spec.Lawful : Spec → Prop
  | .gateway g => g.Lawful
  | .virtualService v => v.Lawful
  | .service s => s.Lawful
  | .deployment d => d.Lawful
  | .route r => r.Lawful
  | .buildConfig b => b.Lawful

theorem Spec.violations_eq_nil_iff (s : Spec) : s.violations = [] ↔ s.Lawful := by
  cases s with
  | gateway g => exact g.violations_eq_nil_iff
  | virtualService v => exact v.violations_eq_nil_iff
  | service s => exact s.violations_eq_nil_iff
  | deployment d => exact d.violations_eq_nil_iff
  | route r => exact r.violations_eq_nil_iff
  | buildConfig b => exact b.violations_eq_nil_iff

/-- A record is valid exactly if it has a name and the rules of its kind hold. -/
theorem Record.valid_iff {r : Record} : r.Valid ↔ r.name ≠ "" ∧ r.spec.Lawful := by
  simp [Record.Valid, Record.violations, Spec.violations_eq_nil_iff]

/-! ### The verdict -/

namespace Record

theorem validate_eq_ok {r : Record} {valid : ValidRecord} (h : r.validate = .ok valid) : valid.record = r := by
  unfold validate at h
  split at h
  · cases h
    rfl
  · cases h

theorem validate_of_nil {r : Record} (h : r.violations = []) : r.validate = .ok ⟨r, h⟩ := by
  unfold validate
  split
  · rfl
  · rename_i hcons
    cases h.symm.trans hcons

theorem validate_of_cons {r : Record} {violation : Validation.Violation} {others : List Validation.Violation}
    (h : r.violations = violation :: others) : r.validate = .error violation := by
  unfold validate
  split
  · rename_i hnil
    cases h.symm.trans hnil
  · rename_i hcons
    obtain ⟨rfl, -⟩ := List.cons.inj (h.symm.trans hcons)
    rfl

end Record

end Manifests
