import Manifests.Record
import Manifests.Text.Blank
import Manifests.Validation.Violation

/-! # Validation

The rules of each kind, as the list of the violations of a record in the order in which diagnostics look for them.
A record is valid if that list is empty, and its first violation is the one reported. -/

namespace Manifests

open Validation

/-! ### Gateways -/

/-- The material that a mode of encryption needs. -/
def ServerTls.violations (path : FieldPath) (t : ServerTls) : List Violation :=
  let certificates :=
    check (path.field "serverCertificate") (.material t.mode) t.serverCertificate.isSome ++
      check (path.field "privateKey") (.material t.mode) t.privateKey.isSome
  match t.mode with
  | .simple => certificates
  | .mutual => certificates ++ check (path.field "caCertificates") (.material t.mode) t.caCertificates.isSome
  | .passthrough | .autoPassthrough | .istioMutual => []

def Server.violations (path : FieldPath) (s : Server) : List Violation :=
  check (path.field "hosts") .notEmpty (!s.hosts.isEmpty) ++
    checkPort ((path.field "port").field "number") s.port.number ++
    checkOptional s.tls (ServerTls.violations (path.field "tls"))

def Gateway.violations (g : Gateway) : List Violation :=
  check (FieldPath.field [] "selector") .notEmpty (!g.selector.isEmpty) ++
    check (FieldPath.field [] "servers") .notEmpty (!g.servers.isEmpty) ++
    checkItems (FieldPath.field [] "servers") g.servers Server.violations

/-! ### Virtual services -/

def Destination.violations (path : FieldPath) (d : Destination) : List Violation :=
  check (path.field "host") .host d.host.isSome ++ checkOptional d.port (checkPort (path.field "port"))

/-- A route has exactly one of destinations and a redirect, and a redirect comes without a rewrite. -/
def HttpRoute.shapeViolations (path : FieldPath) (h : HttpRoute) : List Violation :=
  check path .routeOrRedirect (!h.route.isEmpty || h.redirect.isSome) ++
    check path .notBoth (h.route.isEmpty || h.redirect.isNone) ++
    check (path.field "rewrite") .noRewrite (h.redirect.isNone || h.rewrite.isNone)

/-- The rules of injected faults. -/
def FaultInjection.violations (path : FieldPath) (f : FaultInjection) : List Violation :=
  let percent (name : String) (found : Option Int64) :=
    checkOptional found fun n => check ((path.field name).field "percent") (.percentRange n) (isPercent n)
  percent "delay" (f.delay.bind (·.percent)) ++ percent "abort" (f.abort.bind (·.percent))

/-- The rules of a route for HTTP requests. -/
def HttpRoute.violations (path : FieldPath) (h : HttpRoute) : List Violation :=
  h.shapeViolations path ++
    checkItems (path.field "route") h.route (fun path w => w.destination.violations (path.field "destination")) ++
    checkOptional h.mirror (Destination.violations (path.field "mirror")) ++
    checkOptional h.retries (fun r =>
      check ((path.field "retries").field "attempts") .notNegative (0 ≤ r.attempts.toInt)) ++
    checkOptional h.fault (FaultInjection.violations (path.field "fault")) ++
    checkItems (path.field "match") h.conditions (fun path m => checkOptional m.port (checkPort (path.field "port")))

def VirtualService.violations (v : VirtualService) : List Violation :=
  check (FieldPath.field [] "hosts") .notEmpty (!v.hosts.isEmpty) ++
    checkItems (FieldPath.field [] "http") v.http HttpRoute.violations

/-! ### Services and deployments -/

/-- The rules of a service's port. -/
def ServicePort.violations (path : FieldPath) (p : ServicePort) : List Violation :=
  checkPort (path.field "port") p.port ++ checkOptional p.targetPort (checkPort (path.field "targetPort"))

def Service.violations (s : Service) : List Violation :=
  check (FieldPath.field [] "ports") .notEmpty (!s.ports.isEmpty) ++
    checkItems (FieldPath.field [] "ports") s.ports ServicePort.violations

def Container.violations (path : FieldPath) (c : Container) : List Violation :=
  check (path.field "name") .notEmpty (!Text.isAllBlank c.name) ++
    check (path.field "image") .notEmpty (!Text.isAllBlank c.image) ++
    checkItems (path.field "ports") c.ports (fun path p => checkPort (path.field "containerPort") p.containerPort)

def Deployment.violations (d : Deployment) : List Violation :=
  checkOptional d.replicas (fun n => check (FieldPath.field [] "replicas") .notNegative (0 ≤ n.toInt)) ++
    check (FieldPath.field [] "containers") .notEmpty (!d.containers.isEmpty) ++
    checkItems (FieldPath.field [] "containers") d.containers Container.violations

/-! ### Routes -/

/-- The rules of a port that a route names by its number. -/
def PortRef.violations (path : FieldPath) : PortRef → List Violation
  | .number n => checkPort path n
  | .name _ => []

/-- The rules of a route's encryption. A route that passes encrypted requests on needs no certificate. -/
def RouteTls.violations (path : FieldPath) (t : RouteTls) : List Violation :=
  check (path.field "termination") (.termination t.termination) (t.termination ∈ terminations) ++
    check (path.field "certificate") (.certificate t.termination)
      (t.termination = "passthrough" || t.key.isNone || t.certificate.isSome)

def Route.violations (r : Route) : List Violation :=
  (match r.target with
    | none => [⟨FieldPath.field [] "to", .present⟩]
    | some target => check ((FieldPath.field [] "to").field "name") .targetName target.name.isSome) ++
    checkOptional r.targetPort (PortRef.violations (FieldPath.field [] "targetPort")) ++
    checkOptional r.tls (RouteTls.violations (FieldPath.field [] "tls"))

/-! ### Build configurations -/

def BuildStrategy.violations (path : FieldPath) (s : BuildStrategy) : List Violation :=
  check (path.field "from") .base (s.type ≠ .source || s.base.isSome)

/-- The rules of a build configuration. -/
def BuildConfig.violations (b : BuildConfig) : List Violation :=
  (match b.source with
    | none => [⟨FieldPath.field [] "source", .present⟩]
    | some source =>
      check (((FieldPath.field [] "source").field "git").field "uri") .notEmpty (!Text.isAllBlank source.gitUri)) ++
    checkOptional b.strategy (BuildStrategy.violations (FieldPath.field [] "strategy")) ++
    check ((FieldPath.field [] "output").field "to") .present b.output.isSome

/-! ### Records -/

/-- The rules of a kind. -/
def Spec.violations : Spec → List Violation
  | .gateway g => g.violations
  | .virtualService v => v.violations
  | .service s => s.violations
  | .deployment d => d.violations
  | .route r => r.violations
  | .buildConfig b => b.violations

namespace Record

/-- All violations of a record. Its name comes first. -/
def violations (r : Record) : List Violation :=
  check (FieldPath.field [] "name") .named (r.name ≠ "") ++ r.spec.violations

/-- A record that breaks no rule. -/
def Valid (r : Record) : Prop := r.violations = []

/-- What diagnostics of a violation call the record: its identifier if it has no name. -/
def subject (r : Record) : String := if r.name = "" then r.id else r.name

end Record

/-- A record that breaks no rule of its kind. -/
structure ValidRecord where
  record : Record
  valid : record.Valid

/-- The record, if it is valid, or its first violation. -/
def Record.validate (r : Record) : Except Violation ValidRecord :=
  match h : r.violations with
  | [] => .ok ⟨r, h⟩
  | violation :: _ => .error violation

end Manifests
