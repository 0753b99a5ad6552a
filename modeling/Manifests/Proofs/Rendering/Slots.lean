import Manifests.Proofs.Rendering.Entries
import Manifests.Rendering.Record

/-! # Slots

Every part of a record is rendered as a row of slots: the keys of the part, always the same and in the same order, each
with what stands under it, if anything does. The entries are those of the filled slots (`filled`). One lemma for each
part gives its row. -/

namespace Manifests

namespace Rendering

/-- The entries of the slots that are filled. -/
def filled (slots : List (String × Option Value)) : List Entry := slots.filterMap fun slot => slot.2.map (slot.1, ·)

theorem filled_append (slots slots' : List (String × Option Value)) :
    filled slots ++ filled slots' = filled (slots ++ slots') :=
  List.filterMap_append.symm

@[simp] theorem filled_nil : filled [] = [] := rfl

theorem filled_cons (key : String) (value : Option Value) (slots : List (String × Option Value)) :
    filled ((key, value) :: slots) = (value.map (key, ·)).toList ++ filled slots := by
  cases value <;> rfl

/-! ### Rows of one slot -/

section
variable (key : String)

theorem textEntry_filled (text : String) : textEntry key text = filled [(key, some (.text text))] := rfl

theorem intEntry_filled (n : Int64) : intEntry key n = filled [(key, some (.int n))] := rfl

theorem optionalText_filled (text : Option String) : optionalText key text = filled [(key, text.map .text)] := by
  cases text <;> rfl

theorem optionalInt_filled (n : Option Int64) : optionalInt key n = filled [(key, n.map .int)] := by
  cases n <;> rfl

theorem optionalBool_filled (b : Option Bool) : optionalBool key b = filled [(key, b.map .bool)] := by
  cases b <;> rfl

theorem mapping_filled (entries : List Entry) : mapping key entries = filled [(key, shown entries)] := by
  cases entries <;> rfl

theorem optionalMapping_filled {α : Type} (part : Option α) (entries : α → List Entry) :
    optionalMapping key part entries = filled [(key, part.bind fun a => shown (entries a))] := by
  cases part with
  | none => rfl
  | some a => exact mapping_filled key (entries a)

theorem list_filled (items : List Value) : list key items = filled [(key, shownList items)] := by
  cases items <;> rfl

theorem texts_filled (items : List String) : texts key items = filled [(key, shownList (items.map .text))] :=
  list_filled key _

theorem mappings_filled {α : Type} (parts : List α) (entries : α → List Entry) :
    mappings key parts entries = filled [(key, shownList (parts.filterMap fun a => shown (entries a)))] := by
  rw [mappings_eq, list_filled]

theorem textMap_filled (m : TextMap String) :
    textMap key m = filled [(key, shown (m.entries.map fun entry => (entry.1, .text entry.2)))] :=
  mapping_filled key _

end

end Rendering

open Rendering

/-! ### Gateways -/

theorem ServerTls.render_filled (t : ServerTls) : t.render = filled
    [("httpsRedirect", t.httpsRedirect.map .bool),
     ("mode", some (.text t.mode.name)),
     ("serverCertificate", t.serverCertificate.map .text),
     ("privateKey", t.privateKey.map .text),
     ("caCertificates", t.caCertificates.map .text),
     ("subjectAltNames", shownList (t.subjectAltNames.map .text))] := by
  simp [render, optionalBool_filled, textEntry_filled, optionalText_filled, texts_filled, filled_append]

theorem ServerPort.render_filled (p : ServerPort) : p.render = filled
    [("number", some (.int p.number)), ("protocol", some (.text p.protocol)), ("name", p.name.map .text)] := by
  simp [render, intEntry_filled, textEntry_filled, optionalText_filled, filled_append]

theorem Server.render_filled (s : Server) : s.render = filled
    [("port", shown s.port.render),
     ("hosts", shownList (s.hosts.map .text)),
     ("tls", s.tls.bind fun t => shown t.render)] := by
  simp [render, mapping_filled, texts_filled, optionalMapping_filled, filled_append]

theorem Gateway.render_filled (g : Gateway) : g.render = filled
    [("selector", shown (g.selector.entries.map fun entry => (entry.1, .text entry.2))),
     ("servers", shownList (g.servers.filterMap fun s => shown s.render))] := by
  simp [render, textMap_filled, mappings_filled, filled_append]

/-! ### Virtual services -/

theorem MatchRequest.render_filled (m : MatchRequest) : m.render = filled
    [("uri", m.uri.bind fun s => shown s.render),
     ("scheme", m.scheme.bind fun s => shown s.render),
     ("method", m.method.bind fun s => shown s.render),
     ("authority", m.authority.bind fun s => shown s.render),
     ("headers", shown (m.headers.entries.flatMap fun entry => mapping entry.1 entry.2.render)),
     ("port", m.port.map .int)] := by
  simp [render, optionalMapping_filled, mapping_filled, optionalInt_filled, filled_append]

theorem Destination.render_filled (d : Destination) : d.render = filled
    [("host", d.host.map .text),
     ("subset", d.subset.map .text),
     ("port", d.port.bind fun n => shown (intEntry "number" n))] := by
  simp [render, optionalText_filled, optionalMapping_filled, filled_append]

theorem WeightedDestination.render_filled (w : WeightedDestination) : w.render = filled
    [("destination", shown w.destination.render), ("weight", w.weight.map .int)] := by
  simp [render, mapping_filled, optionalInt_filled, filled_append]

theorem AddressParts.render_filled (a : AddressParts) : a.render = filled
    [("uri", a.uri.map .text), ("authority", a.authority.map .text)] := by
  simp [render, optionalText_filled, filled_append]

theorem Retries.render_filled (r : Retries) : r.render = filled
    [("attempts", some (.int r.attempts)), ("perTryTimeout", r.perTryTimeout.map .text)] := by
  simp [render, intEntry_filled, optionalText_filled, filled_append]

theorem FaultDelay.render_filled (d : FaultDelay) : d.render = filled
    [("percent", d.percent.map .int), ("fixedDelay", some (.text d.fixedDelay))] := by
  simp [render, optionalInt_filled, textEntry_filled, filled_append]

theorem FaultAbort.render_filled (a : FaultAbort) : a.render = filled
    [("percent", a.percent.map .int), ("httpStatus", some (.int a.httpStatus))] := by
  simp [render, optionalInt_filled, intEntry_filled, filled_append]

theorem FaultInjection.render_filled (f : FaultInjection) : f.render = filled
    [("delay", f.delay.bind fun d => shown d.render), ("abort", f.abort.bind fun a => shown a.render)] := by
  simp [render, optionalMapping_filled, filled_append]

theorem CorsPolicy.render_filled (c : CorsPolicy) : c.render = filled
    [("allowOrigin", shownList (c.allowOrigin.map .text)),
     ("allowMethods", shownList (c.allowMethods.map .text)),
     ("allowHeaders", shownList (c.allowHeaders.map .text)),
     ("exposeHeaders", shownList (c.exposeHeaders.map .text)),
     ("maxAge", c.maxAge.map .text),
     ("allowCredentials", c.allowCredentials.map .bool)] := by
  simp [render, texts_filled, optionalText_filled, optionalBool_filled, filled_append]

theorem HttpRoute.render_filled (h : HttpRoute) : h.render = filled
    [("match", shownList (h.conditions.filterMap fun m => shown m.render)),
     ("route", shownList (h.route.filterMap fun w => shown w.render)),
     ("redirect", h.redirect.bind fun a => shown a.render),
     ("rewrite", h.rewrite.bind fun a => shown a.render),
     ("timeout", h.timeout.map .text),
     ("retries", h.retries.bind fun r => shown r.render),
     ("fault", h.fault.bind fun f => shown f.render),
     ("mirror", h.mirror.bind fun d => shown d.render),
     ("corsPolicy", h.corsPolicy.bind fun c => shown c.render),
     ("appendHeaders", shown (h.appendHeaders.entries.map fun entry => (entry.1, .text entry.2)))] := by
  simp [render, mappings_filled, optionalMapping_filled, optionalText_filled, textMap_filled, filled_append]

theorem VirtualService.render_filled (v : VirtualService) : v.render = filled
    [("hosts", shownList (v.hosts.map .text)),
     ("gateways", shownList (v.gateways.map .text)),
     ("http", shownList (v.http.filterMap fun h => shown h.render))] := by
  simp [render, texts_filled, mappings_filled, filled_append]

/-! ### Services -/

theorem ServicePort.render_filled (p : ServicePort) : p.render = filled
    [("name", p.name.map .text),
     ("port", some (.int p.port)),
     ("targetPort", p.targetPort.map .int),
     ("protocol", p.protocol.map .text)] := by
  simp [render, optionalText_filled, intEntry_filled, optionalInt_filled, filled_append]

theorem Service.render_filled (s : Service) : s.render = filled
    [("type", s.type.map .text),
     ("selector", shown (s.selector.entries.map fun entry => (entry.1, .text entry.2))),
     ("ports", shownList (s.ports.filterMap fun p => shown p.render))] := by
  simp [render, optionalText_filled, textMap_filled, mappings_filled, filled_append]

/-! ### Deployments -/

theorem ContainerPort.render_filled (p : ContainerPort) : p.render = filled
    [("containerPort", some (.int p.containerPort)),
     ("name", p.name.map .text),
     ("protocol", p.protocol.map .text)] := by
  simp [render, intEntry_filled, optionalText_filled, filled_append]

theorem Container.render_filled (c : Container) : c.render = filled
    [("name", some (.text c.name)),
     ("image", some (.text c.image)),
     ("imagePullPolicy", c.imagePullPolicy.map .text),
     ("command", shownList (c.command.map .text)),
     ("args", shownList (c.args.map .text)),
     ("ports", shownList (c.ports.filterMap fun p => shown p.render)),
     ("env", shownList (c.env.entries.filterMap fun entry => shown (renderEnv entry)))] := by
  simp [render, textEntry_filled, optionalText_filled, texts_filled, mappings_filled, filled_append]

theorem Deployment.renderTemplate_filled (d : Deployment) : d.renderTemplate = filled
    [("metadata", shown (textMap "labels" d.selector)),
     ("spec", shown (mappings "containers" d.containers Container.render))] := by
  simp [renderTemplate, mapping_filled, filled_append]

theorem Deployment.render_filled (d : Deployment) : d.render = filled
    [("replicas", d.replicas.map .int),
     ("selector", shown (textMap "matchLabels" d.selector)),
     ("template", shown d.renderTemplate)] := by
  simp [render, optionalInt_filled, mapping_filled, filled_append]

/-! ### Routes -/

theorem RouteTarget.render_filled (t : RouteTarget) : t.render = filled
    [("kind", some (.text "Service")), ("name", t.name.map .text), ("weight", t.weight.map .int)] := by
  simp [render, textEntry_filled, optionalText_filled, optionalInt_filled, filled_append]

theorem RouteTls.render_filled (t : RouteTls) : t.render = filled
    [("termination", some (.text t.termination)),
     ("certificate", t.certificate.map .text),
     ("key", t.key.map .text),
     ("caCertificate", t.caCertificate.map .text),
     ("insecureEdgeTerminationPolicy", t.insecureEdgeTerminationPolicy.map .text)] := by
  simp [render, textEntry_filled, optionalText_filled, filled_append]

theorem Route.render_filled (r : Route) : r.render = filled
    [("host", r.host.map .text),
     ("path", r.path.map .text),
     ("to", r.target.bind fun t => shown t.render),
     ("port", r.targetPort.bind fun p => shown p.render),
     ("tls", r.tls.bind fun t => shown t.render)] := by
  simp [render, optionalText_filled, optionalMapping_filled, filled_append]

/-! ### Build configurations -/

theorem BuildSource.render_filled (s : BuildSource) : s.render = filled
    [("type", some (.text "Git")),
     ("git", shown (filled [("uri", some (.text s.gitUri)), ("ref", s.gitRef.map .text)])),
     ("contextDir", s.contextDir.map .text)] := by
  simp [render, textEntry_filled, mapping_filled, optionalText_filled, filled_append]

theorem renderBase_filled (image : String) :
    renderBase image = filled [("kind", some (.text "DockerImage")), ("name", some (.text image))] := rfl

/-- What a strategy says besides its type. A Dockerfile stands there only if the strategy builds from one. -/
def BuildStrategy.details (s : BuildStrategy) : List Entry := filled
  [("from", s.base.bind fun image => shown (renderBase image)),
   ("dockerfilePath", if s.type = .docker then s.dockerfilePath.map .text else none)]

theorem BuildStrategy.render_filled (s : BuildStrategy) : s.render = filled
    [("type", some (.text s.type.name)),
     ("dockerStrategy", if s.type = .docker then shown s.details else none),
     ("sourceStrategy", if s.type = .source then shown s.details else none)] := by
  cases htype : s.type with
  | docker =>
    simp [render, htype, details, StrategyType.name, textEntry_filled, mapping_filled, optionalMapping_filled,
      optionalText_filled, filled_cons]
  | source =>
    simp [render, htype, details, StrategyType.name, textEntry_filled, mapping_filled, optionalMapping_filled,
      filled_cons]

theorem renderOutput_filled (image : String) : renderOutput image = filled
    [("to", shown (filled [("kind", some (.text "ImageStreamTag")), ("name", some (.text image))]))] := rfl

theorem BuildConfig.render_filled (b : BuildConfig) : b.render = filled
    [("source", b.source.bind fun s => shown s.render),
     ("strategy", b.strategy.bind fun s => shown s.render),
     ("output", b.output.bind fun image => shown (renderOutput image)),
     ("triggers", shownList (b.triggers.filterMap fun trigger => shown (textEntry "type" trigger)))] := by
  simp [render, optionalMapping_filled, mappings_filled, filled_append]

/-! ### Records -/

namespace Record

theorem renderMetadata_filled (r : Record) : r.renderMetadata = filled
    [("name", some (.text r.name)),
     ("namespace", r.namespaceName.map .text),
     ("labels", shown (r.labels.entries.map fun entry => (entry.1, .text entry.2))),
     ("annotations", shown (r.annotations.entries.map fun entry => (entry.1, .text entry.2)))] := by
  simp [renderMetadata, textEntry_filled, optionalText_filled, textMap_filled, filled_append]

theorem renderEntries_filled (r : Record) : r.renderEntries = filled
    [("apiVersion", some (.text r.kind.apiVersion)),
     ("kind", some (.text r.kind.name)),
     ("metadata", shown r.renderMetadata),
     ("spec", shown r.spec.render)] := by
  simp [renderEntries, textEntry_filled, mapping_filled, filled_append]

end Record

end Manifests
