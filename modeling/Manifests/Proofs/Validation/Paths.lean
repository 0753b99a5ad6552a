import Manifests.Proofs.Validation

/-! # What the path of a violation points at

The rules that a record breaks, each with the path from the record to the field that breaks it (`Record.Breaks`). An
item of a list is found at its index. Every violation that is found is one of these (`Record.breaks_of_mem`), so the
path of a reported violation leads to a field that is really wrong. -/

namespace Manifests

open Validation

/-! ### Gateways -/

/-- What the encryption of a server lacks for its mode. -/
inductive ServerTls.Breaks (t : ServerTls) : FieldPath → Rule → Prop
  | certificate : t.mode = .simple ∨ t.mode = .mutual → t.serverCertificate = none →
      t.Breaks [.key "serverCertificate"] (.material t.mode)
  | key : t.mode = .simple ∨ t.mode = .mutual → t.privateKey = none →
      t.Breaks [.key "privateKey"] (.material t.mode)
  | authorities : t.mode = .mutual → t.caCertificates = none → t.Breaks [.key "caCertificates"] (.material t.mode)

inductive Server.Breaks (s : Server) : FieldPath → Rule → Prop
  | hosts : s.hosts = [] → s.Breaks [.key "hosts"] .notEmpty
  | port : ¬InPortRange s.port.number → s.Breaks [.key "port", .key "number"] (.portRange s.port.number)
  | tls {t path rule} : s.tls = some t → t.Breaks path rule → s.Breaks (.key "tls" :: path) rule

inductive Gateway.Breaks (g : Gateway) : FieldPath → Rule → Prop
  | selector : g.selector.entries = [] → g.Breaks [.key "selector"] .notEmpty
  | servers : g.servers = [] → g.Breaks [.key "servers"] .notEmpty
  | server {i s path rule} : g.servers[i]? = some s → s.Breaks path rule →
      g.Breaks (.key "servers" :: .index i :: path) rule

/-! ### Virtual services -/

inductive Destination.Breaks (d : Destination) : FieldPath → Rule → Prop
  | host : d.host = none → d.Breaks [.key "host"] .host
  | port {n} : d.port = some n → ¬InPortRange n → d.Breaks [.key "port"] (.portRange n)

inductive FaultInjection.Breaks (f : FaultInjection) : FieldPath → Rule → Prop
  | delay {d n} : f.delay = some d → d.percent = some n → ¬InPercentRange n →
      f.Breaks [.key "delay", .key "percent"] (.percentRange n)
  | abort {a n} : f.abort = some a → a.percent = some n → ¬InPercentRange n →
      f.Breaks [.key "abort", .key "percent"] (.percentRange n)

/-- What is wrong with a route for HTTP requests: with its shape at the route itself or at its rewrite, or with one of
    its parts. -/
inductive HttpRoute.Breaks (h : HttpRoute) : FieldPath → Rule → Prop
  | routeOrRedirect : h.route = [] → h.redirect = none → h.Breaks [] .routeOrRedirect
  | notBoth : h.route ≠ [] → h.redirect.isSome → h.Breaks [] .notBoth
  | noRewrite : h.redirect.isSome → h.rewrite.isSome → h.Breaks [.key "rewrite"] .noRewrite
  | destination {i w path rule} : h.route[i]? = some w → w.destination.Breaks path rule →
      h.Breaks (.key "route" :: .index i :: .key "destination" :: path) rule
  | mirror {d path rule} : h.mirror = some d → d.Breaks path rule → h.Breaks (.key "mirror" :: path) rule
  | attempts {r} : h.retries = some r → r.attempts.toInt < 0 →
      h.Breaks [.key "retries", .key "attempts"] .notNegative
  | fault {f path rule} : h.fault = some f → f.Breaks path rule → h.Breaks (.key "fault" :: path) rule
  | port {i m n} : h.conditions[i]? = some m → m.port = some n → ¬InPortRange n →
      h.Breaks [.key "match", .index i, .key "port"] (.portRange n)

inductive VirtualService.Breaks (v : VirtualService) : FieldPath → Rule → Prop
  | hosts : v.hosts = [] → v.Breaks [.key "hosts"] .notEmpty
  | http {i h path rule} : v.http[i]? = some h → h.Breaks path rule → v.Breaks (.key "http" :: .index i :: path) rule

/-! ### Services and deployments -/

inductive ServicePort.Breaks (p : ServicePort) : FieldPath → Rule → Prop
  | port : ¬InPortRange p.port → p.Breaks [.key "port"] (.portRange p.port)
  | targetPort {n} : p.targetPort = some n → ¬InPortRange n → p.Breaks [.key "targetPort"] (.portRange n)

inductive Service.Breaks (s : Service) : FieldPath → Rule → Prop
  | ports : s.ports = [] → s.Breaks [.key "ports"] .notEmpty
  | port {i p path rule} : s.ports[i]? = some p → p.Breaks path rule →
      s.Breaks (.key "ports" :: .index i :: path) rule

inductive Container.Breaks (c : Container) : FieldPath → Rule → Prop
  | name : Text.isAllBlank c.name = true → c.Breaks [.key "name"] .notEmpty
  | image : Text.isAllBlank c.image = true → c.Breaks [.key "image"] .notEmpty
  | port {i p} : c.ports[i]? = some p → ¬InPortRange p.containerPort →
      c.Breaks [.key "ports", .index i, .key "containerPort"] (.portRange p.containerPort)

inductive Deployment.Breaks (d : Deployment) : FieldPath → Rule → Prop
  | replicas {n} : d.replicas = some n → n.toInt < 0 → d.Breaks [.key "replicas"] .notNegative
  | containers : d.containers = [] → d.Breaks [.key "containers"] .notEmpty
  | container {i c path rule} : d.containers[i]? = some c → c.Breaks path rule →
      d.Breaks (.key "containers" :: .index i :: path) rule

/-! ### Routes and build configurations -/

inductive RouteTls.Breaks (t : RouteTls) : FieldPath → Rule → Prop
  | termination : t.termination ∉ terminations → t.Breaks [.key "termination"] (.termination t.termination)
  | certificate : t.termination ≠ "passthrough" → t.key.isSome → t.certificate = none →
      t.Breaks [.key "certificate"] (.certificate t.termination)

inductive Route.Breaks (r : Route) : FieldPath → Rule → Prop
  | target : r.target = none → r.Breaks [.key "to"] .present
  | name {t} : r.target = some t → t.name = none → r.Breaks [.key "to", .key "name"] .targetName
  | targetPort {n} : r.targetPort = some (.number n) → ¬InPortRange n → r.Breaks [.key "targetPort"] (.portRange n)
  | tls {t path rule} : r.tls = some t → t.Breaks path rule → r.Breaks (.key "tls" :: path) rule

inductive BuildConfig.Breaks (b : BuildConfig) : FieldPath → Rule → Prop
  | source : b.source = none → b.Breaks [.key "source"] .present
  | uri {s} : b.source = some s → Text.isAllBlank s.gitUri = true →
      b.Breaks [.key "source", .key "git", .key "uri"] .notEmpty
  | base {s} : b.strategy = some s → s.type = .source → s.base = none → b.Breaks [.key "strategy", .key "from"] .base
  | output : b.output = none → b.Breaks [.key "output", .key "to"] .present

/-! ### Records -/

def Spec.Breaks : Spec → FieldPath → Rule → Prop
  | .gateway g => g.Breaks
  | .virtualService v => v.Breaks
  | .service s => s.Breaks
  | .deployment d => d.Breaks
  | .route r => r.Breaks
  | .buildConfig b => b.Breaks

/-- The record breaks a rule at a path: it has no name, or its kind has a rule that is broken there. -/
inductive Record.Breaks (r : Record) : FieldPath → Rule → Prop
  | named : r.name = "" → r.Breaks [.key "name"] .named
  | spec {path rule} : r.spec.Breaks path rule → r.Breaks path rule

namespace Validation

/-! ### Reports -/

/-- Each of the violations is at the path or below it, where a rule is broken. -/
def Reports (path : FieldPath) (violations : List Violation) (breaks : FieldPath → Rule → Prop) : Prop :=
  ∀ v ∈ violations, ∃ rest, v.path = path ++ rest ∧ breaks rest v.rule

namespace Reports
variable {α : Type} {path : FieldPath} {breaks : FieldPath → Rule → Prop}

theorem append {vs ws : List Violation} (h : Reports path vs breaks) (h' : Reports path ws breaks) :
    Reports path (vs ++ ws) breaks := fun v hv => (List.mem_append.mp hv).elim (h v) (h' v)

theorem nil : Reports path [] breaks := fun v hv => by cases hv

theorem imp {vs : List Violation} {breaks' : FieldPath → Rule → Prop} (h : Reports path vs breaks')
    (himp : ∀ rest rule, breaks' rest rule → breaks rest rule) : Reports path vs breaks := by
  intro v hv
  obtain ⟨rest, hpath, hbreaks⟩ := h v hv
  exact ⟨rest, hpath, himp rest v.rule hbreaks⟩

/-- What is reported one step below is broken there. -/
theorem step {vs : List Violation} {step : FieldStep}
    (h : Reports (path ++ [step]) vs fun rest rule => breaks (step :: rest) rule) : Reports path vs breaks := by
  intro v hv
  obtain ⟨rest, hpath, hbreaks⟩ := h v hv
  exact ⟨step :: rest, by rw [hpath, List.append_assoc, List.singleton_append], hbreaks⟩

theorem field {vs : List Violation} {name : String}
    (h : Reports (path.field name) vs fun rest rule => breaks (.key name :: rest) rule) : Reports path vs breaks :=
  h.step

theorem check {rule : Rule} {holds : Bool} (h : holds = false → breaks [] rule) :
    Reports path (Validation.check path rule holds) breaks := by
  intro v hv
  cases holds with
  | true => cases hv
  | false =>
    obtain rfl := List.mem_singleton.mp hv
    exact ⟨[], (List.append_nil path).symm, h rfl⟩

theorem optional {value : Option α} {violations : α → List Violation}
    (h : ∀ a, value = some a → Reports path (violations a) breaks) :
    Reports path (checkOptional value violations) breaks := by
  cases value with
  | none => exact nil
  | some a => exact h a rfl

theorem itemsFrom {violations : FieldPath → α → List Violation} {items : List α} (start : Nat)
    (h : ∀ i a, items[i]? = some a →
      Reports (path.item (start + i)) (violations (path.item (start + i)) a) fun rest rule =>
        breaks (.index (start + i) :: rest) rule) :
    Reports path (checkItemsFrom path violations start items) breaks := by
  induction items generalizing start with
  | nil => exact nil
  | cons a items ih =>
    refine append (h 0 a rfl).step (ih (start + 1) fun i b hb => ?_)
    have hrest := h (i + 1) b hb
    rwa [← Nat.add_assoc, Nat.add_right_comm] at hrest

/-- An item is found at its index. -/
theorem items {violations : FieldPath → α → List Violation} {items : List α}
    (h : ∀ i a, items[i]? = some a →
      Reports (path.item i) (violations (path.item i) a) fun rest rule => breaks (.index i :: rest) rule) :
    Reports path (checkItems path items violations) breaks := by
  refine itemsFrom 0 fun i a ha => ?_
  rw [Nat.zero_add]
  exact h i a ha

theorem port {n : Int64} (h : ¬InPortRange n → breaks [] (.portRange n)) :
    Reports path (checkPort path n) breaks := by
  refine check fun hport => h ?_
  simpa [isPort, InPortRange] using hport

end Reports

end Validation

/-! ### The violations of each part -/

theorem ServerTls.reports (path : FieldPath) (t : ServerTls) : Reports path (t.violations path) t.Breaks := by
  have hcertificates (hmode : t.mode = .simple ∨ t.mode = .mutual) :
      Reports path (check (path.field "serverCertificate") (.material t.mode) t.serverCertificate.isSome ++
        check (path.field "privateKey") (.material t.mode) t.privateKey.isSome) t.Breaks := by
    refine .append (.field (.check fun h => ?_)) (.field (.check fun h => ?_))
    · exact .certificate hmode (by simpa using h)
    · exact .key hmode (by simpa using h)
  unfold violations
  match hmode : t.mode with
  | .simple => simpa only [hmode] using hcertificates (.inl hmode)
  | .mutual =>
    have hauthorities : Reports path
        (check (path.field "caCertificates") (.material t.mode) t.caCertificates.isSome) t.Breaks :=
      .field (.check fun h => .authorities hmode (by simpa using h))
    simpa only [hmode] using (hcertificates (.inr hmode)).append hauthorities
  | .passthrough | .autoPassthrough | .istioMutual => exact .nil

theorem Server.reports (path : FieldPath) (s : Server) : Reports path (s.violations path) s.Breaks := by
  refine .append (.append ?hosts ?port) ?tls
  case hosts => exact .field (.check fun h => .hosts (by simpa using h))
  case port => exact .field (.field (.port .port))
  case tls => exact .field (.optional fun t ht => (t.reports _).imp fun _ _ => .tls ht)

theorem Gateway.reports (g : Gateway) : Reports [] g.violations g.Breaks := by
  refine .append (.append ?selector ?servers) ?server
  case selector => exact .field (.check fun h => .selector (by simpa [TextMap.isEmpty] using h))
  case servers => exact .field (.check fun h => .servers (by simpa using h))
  case server => exact .field (.items fun i s hs => (s.reports _).imp fun _ _ => .server hs)

theorem Destination.reports (path : FieldPath) (d : Destination) : Reports path (d.violations path) d.Breaks := by
  refine .append ?host ?port
  case host => exact .field (.check fun h => .host (by simpa using h))
  case port => exact .field (.optional fun n hn => .port (.port hn))

theorem FaultInjection.reports (path : FieldPath) (f : FaultInjection) :
    Reports path (f.violations path) f.Breaks := by
  have hpercent {n : Int64} (h : isPercent n = false) : ¬InPercentRange n := by
    simpa [isPercent, InPercentRange] using h
  refine .append ?delay ?abort
  case delay =>
    refine .optional fun n hn => .field (.field (.check fun h => ?_))
    obtain ⟨d, hd, hn⟩ := Option.bind_eq_some_iff.mp hn
    exact .delay hd hn (hpercent h)
  case abort =>
    refine .optional fun n hn => .field (.field (.check fun h => ?_))
    obtain ⟨a, ha, hn⟩ := Option.bind_eq_some_iff.mp hn
    exact .abort ha hn (hpercent h)

theorem HttpRoute.reports_shape (path : FieldPath) (h : HttpRoute) :
    Reports path (h.shapeViolations path) h.Breaks := by
  refine .append (.append ?routeOrRedirect ?notBoth) ?noRewrite
  case routeOrRedirect =>
    refine .check fun hshape => ?_
    simp only [Bool.or_eq_false_iff, Bool.not_eq_false', List.isEmpty_iff, Option.isSome_eq_false_iff,
      Option.isNone_iff_eq_none] at hshape
    exact .routeOrRedirect hshape.1 hshape.2
  case notBoth =>
    refine .check fun hshape => ?_
    simp only [Bool.or_eq_false_iff, List.isEmpty_eq_false_iff, Option.isNone_eq_false_iff] at hshape
    exact .notBoth hshape.1 hshape.2
  case noRewrite =>
    refine .field (.check fun hshape => ?_)
    simp only [Bool.or_eq_false_iff, Option.isNone_eq_false_iff] at hshape
    exact .noRewrite hshape.1 hshape.2

theorem HttpRoute.reports (path : FieldPath) (h : HttpRoute) : Reports path (h.violations path) h.Breaks := by
  refine .append (.append (.append (.append (.append (h.reports_shape path) ?route) ?mirror) ?retries) ?fault) ?ports
  case route =>
    exact .field (.items fun i w hw => .field ((w.destination.reports _).imp fun _ _ => .destination hw))
  case mirror => exact .field (.optional fun d hd => (d.reports _).imp fun _ _ => .mirror hd)
  case retries =>
    exact .optional fun r hr => .field (.field (.check fun hattempts => .attempts hr (by simpa using hattempts)))
  case fault => exact .field (.optional fun f hf => (f.reports _).imp fun _ _ => .fault hf)
  case ports => exact .field (.items fun i m hm => .field (.optional fun n hn => .port (.port hm hn)))

theorem VirtualService.reports (v : VirtualService) : Reports [] v.violations v.Breaks := by
  refine .append ?hosts ?http
  case hosts => exact .field (.check fun h => .hosts (by simpa using h))
  case http => exact .field (.items fun i h hh => (h.reports _).imp fun _ _ => .http hh)

theorem ServicePort.reports (path : FieldPath) (p : ServicePort) : Reports path (p.violations path) p.Breaks := by
  refine .append ?port ?targetPort
  case port => exact .field (.port .port)
  case targetPort => exact .field (.optional fun n hn => .port (.targetPort hn))

theorem Service.reports (s : Service) : Reports [] s.violations s.Breaks := by
  refine .append ?ports ?port
  case ports => exact .field (.check fun h => .ports (by simpa using h))
  case port => exact .field (.items fun i p hp => (p.reports _).imp fun _ _ => .port hp)

theorem Container.reports (path : FieldPath) (c : Container) : Reports path (c.violations path) c.Breaks := by
  refine .append (.append ?name ?image) ?ports
  case name => exact .field (.check fun h => .name (by simpa using h))
  case image => exact .field (.check fun h => .image (by simpa using h))
  case ports => exact .field (.items fun i p hp => .field (.port (.port hp)))

theorem Deployment.reports (d : Deployment) : Reports [] d.violations d.Breaks := by
  refine .append (.append ?replicas ?containers) ?container
  case replicas => exact .optional fun n hn => .field (.check fun h => .replicas hn (by simpa using h))
  case containers => exact .field (.check fun h => .containers (by simpa using h))
  case container => exact .field (.items fun i c hc => (c.reports _).imp fun _ _ => .container hc)

theorem RouteTls.reports (path : FieldPath) (t : RouteTls) : Reports path (t.violations path) t.Breaks := by
  refine .append ?termination ?certificate
  case termination => exact .field (.check fun h => .termination (by simpa using h))
  case certificate =>
    refine .field (.check fun h => ?_)
    simp only [Bool.or_eq_false_iff, decide_eq_false_iff_not, Option.isNone_eq_false_iff, Option.isSome_eq_false_iff,
      Option.isNone_iff_eq_none] at h
    exact .certificate h.1.1 h.1.2 h.2

theorem Route.reports (r : Route) : Reports [] r.violations r.Breaks := by
  refine .append (.append ?target ?targetPort) ?tls
  case target =>
    cases htarget : r.target with
    | none =>
      intro v hv
      obtain rfl := List.mem_singleton.mp hv
      exact ⟨_, rfl, .target htarget⟩
    | some target => exact .field (.field (.check fun h => .name htarget (by simpa using h)))
  case targetPort =>
    refine .optional fun port hport => ?_
    cases port with
    | number n => exact .field (.port (.targetPort hport))
    | name => exact .nil
  case tls => exact .field (.optional fun t ht => (t.reports _).imp fun _ _ => .tls ht)

theorem BuildConfig.reports (b : BuildConfig) : Reports [] b.violations b.Breaks := by
  refine .append (.append ?source ?strategy) ?output
  case source =>
    cases hsource : b.source with
    | none =>
      intro v hv
      obtain rfl := List.mem_singleton.mp hv
      exact ⟨_, rfl, .source hsource⟩
    | some source => exact .field (.field (.field (.check fun h => .uri hsource (by simpa using h))))
  case strategy =>
    refine .field (.optional fun s hs => .field (.check fun h => ?_))
    simp only [Bool.or_eq_false_iff, decide_eq_false_iff_not, not_not, Option.isSome_eq_false_iff,
      Option.isNone_iff_eq_none] at h
    exact .base hs h.1 h.2
  case output => exact .field (.field (.check fun h => .output (by simpa using h)))

theorem Spec.reports (s : Spec) : Reports [] s.violations s.Breaks := by
  cases s with
  | gateway g => exact g.reports
  | virtualService v => exact v.reports
  | service s => exact s.reports
  | deployment d => exact d.reports
  | route r => exact r.reports
  | buildConfig b => exact b.reports

/-- Each violation of a record is of a rule that the record breaks at its path. -/
theorem Record.breaks_of_mem {r : Record} {v : Violation} (h : v ∈ r.violations) : r.Breaks v.path v.rule := by
  have hreports : Reports [] r.violations r.Breaks :=
    .append (.field (.check fun hname => .named (by simpa using hname))) (r.spec.reports.imp fun _ _ => .spec)
  obtain ⟨rest, hpath, hbreaks⟩ := hreports v h
  rw [hpath, List.nil_append]
  exact hbreaks

/-! ### The verdict -/

/-- Exactly the records with a name and with the rules of their kind are accepted, and they are accepted as they are.
    Of any other record a rule is reported that it breaks, with the path to where it does. -/
theorem Record.validate_accepts_lawful (r : Record) :
    ((∃ valid, r.validate = .ok valid) ↔ r.name ≠ "" ∧ r.spec.Lawful) ∧
      (∀ valid, r.validate = .ok valid → valid.record = r) ∧
      ∀ v, r.validate = .error v → r.Breaks v.path v.rule := by
  have hvalid : r.violations = [] ↔ r.name ≠ "" ∧ r.spec.Lawful := Record.valid_iff
  refine ⟨?_, fun valid => Record.validate_eq_ok, ?_⟩
  · rw [← hvalid]
    cases hviolations : r.violations with
    | nil => exact ⟨fun _ => rfl, fun _ => ⟨_, validate_of_nil hviolations⟩⟩
    | cons violation others => simp [validate_of_cons hviolations]
  · intro v h
    cases hviolations : r.violations with
    | nil =>
      rw [validate_of_nil hviolations] at h
      cases h
    | cons violation others =>
      rw [validate_of_cons hviolations] at h
      obtain rfl := Except.error.inj h
      exact breaks_of_mem (by rw [hviolations]; exact List.mem_cons_self)

/-- A deployment with two containers, the second of which listens on a port. -/
def listeningOn (port : Int64) : Record :=
  ⟨"app", "app", none, .empty, .empty,
    .deployment ⟨some 0, .empty,
      [⟨"first", "image:1", none, [], .empty, [], []⟩,
        ⟨"second", "image:1", none, [⟨none, 65535, none⟩, ⟨none, port, none⟩], .empty, [], []⟩]⟩,
    ⟨"app.yaml", 0⟩⟩

/-- With the greatest port that there is it is accepted, and with the next number the path leads to that. -/
theorem listeningOn_validate :
    (∃ valid, (listeningOn 65535).validate = .ok valid ∧ valid.record = listeningOn 65535) ∧
    (listeningOn 65536).validate = .error
      ⟨[.key "containers", .index 1, .key "ports", .index 1, .key "containerPort"], .portRange 65536⟩ ∧
    (listeningOn 65536).Breaks [.key "containers", .index 1, .key "ports", .index 1, .key "containerPort"]
      (.portRange 65536) :=
  ⟨⟨_, rfl, (Record.validate_accepts_lawful _).2.1 _ rfl⟩, rfl,
    (Record.validate_accepts_lawful (listeningOn 65536)).2.2 ⟨_, _⟩ rfl⟩

/-- A text of blanks is not empty as a text, but it counts as empty: a build with such an address of its source is
    refused, and so is a container with such a name or such an image. -/
theorem blankTexts_refused :
    (∃ source : BuildSource, source.gitUri ≠ "" ∧
      Record.validate ⟨"app", "app", none, .empty, .empty, .buildConfig ⟨some source, none, some "image:1", []⟩,
        ⟨"app.yaml", 0⟩⟩ = .error ⟨[.key "source", .key "git", .key "uri"], .notEmpty⟩) ∧
    (∃ c : Container, c.name ≠ "" ∧ c.image ≠ "" ∧ c.ports = [] ∧
      Record.validate ⟨"app", "app", none, .empty, .empty, .deployment ⟨none, .empty, [c]⟩, ⟨"app.yaml", 0⟩⟩ =
        .error ⟨[.key "containers", .index 0, .key "name"], .notEmpty⟩) ∧
    ∃ c : Container, c.name ≠ "" ∧ c.image ≠ "" ∧ c.ports = [] ∧
      Record.validate ⟨"app", "app", none, .empty, .empty, .deployment ⟨none, .empty, [c]⟩, ⟨"app.yaml", 0⟩⟩ =
        .error ⟨[.key "containers", .index 0, .key "image"], .notEmpty⟩ :=
  ⟨⟨⟨" ", none, none⟩, by decide, rfl⟩, ⟨⟨" ", "image:1", none, [], .empty, [], []⟩, by decide, by decide, rfl, rfl⟩,
    ⟨⟨"first", " ", none, [], .empty, [], []⟩, by decide, by decide, rfl, rfl⟩⟩

end Manifests
