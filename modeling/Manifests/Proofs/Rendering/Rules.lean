import Manifests.Proofs.Rendering.Networking
import Manifests.Proofs.Rendering.Workload
import Manifests.Rendering.Record

/-! # The rules of rendered specifications

The rules of each kind, as they are read off the specification in a manifest, and that they hold there if they hold
for the specification that is rendered. A field that may be absent is asked for only where it stands. -/

namespace Manifests

open Rendering Validation

namespace Rendered

/-! ### Gateways -/

/-- The material that a mode of encryption needs stands beside it. -/
structure ServerTlsRules (tls : Value) : Prop where
  certificate : tls.get? "mode" = some (.text "SIMPLE") ∨ tls.get? "mode" = some (.text "MUTUAL") →
    tls.Has "serverCertificate" (Value.IsText fun _ => True)
  key : tls.get? "mode" = some (.text "SIMPLE") ∨ tls.get? "mode" = some (.text "MUTUAL") →
    tls.Has "privateKey" (Value.IsText fun _ => True)
  authorities : tls.get? "mode" = some (.text "MUTUAL") → tls.Has "caCertificates" (Value.IsText fun _ => True)

structure ServerRules (server : Value) : Prop where
  hosts : server.Has "hosts" (Value.IsList (Value.IsText fun _ => True))
  port : server.Has "port" (·.Has "number" (Value.IsInt InPortRange))
  tls : server.MayHave "tls" ServerTlsRules

structure GatewayRules (spec : Value) : Prop where
  selector : spec.Has "selector" (·.entries ≠ [])
  servers : spec.Has "servers" (Value.IsList ServerRules)

/-! ### Virtual services -/

structure DestinationRules (destination : Value) : Prop where
  host : destination.Has "host" (Value.IsText fun _ => True)
  port : destination.MayHave "port" (·.Has "number" (Value.IsInt InPortRange))

/-- The rules of a route for HTTP requests. -/
structure HttpRouteRules (http : Value) : Prop where
  route : http.MayHave "route" (Value.IsList (·.Has "destination" DestinationRules))
  mirror : http.MayHave "mirror" DestinationRules
  ports : http.MayHave "match" (Value.IsList (·.MayHave "port" (Value.IsInt InPortRange)))
  delay : http.MayHave "fault" (·.MayHave "delay" (·.MayHave "percent" (Value.IsInt InPercentRange)))
  abort : http.MayHave "fault" (·.MayHave "abort" (·.MayHave "percent" (Value.IsInt InPercentRange)))
  attempts : http.MayHave "retries" (·.Has "attempts" (Value.IsInt fun n => 0 ≤ n.toInt))
  notBoth : http.get? "route" = none ∨ http.get? "redirect" = none
  noRewrite : http.get? "redirect" = none ∨ http.get? "rewrite" = none

structure VirtualServiceRules (spec : Value) : Prop where
  hosts : spec.Has "hosts" (Value.IsList (Value.IsText fun _ => True))
  http : spec.MayHave "http" (Value.IsList HttpRouteRules)

/-! ### Services and deployments -/

structure ServicePortRules (item : Value) : Prop where
  port : item.Has "port" (Value.IsInt InPortRange)
  targetPort : item.MayHave "targetPort" (Value.IsInt InPortRange)

structure ServiceRules (spec : Value) : Prop where
  ports : spec.Has "ports" (Value.IsList ServicePortRules)

structure ContainerRules (container : Value) : Prop where
  name : container.Has "name" (Value.IsText fun s => Text.isAllBlank s = false)
  image : container.Has "image" (Value.IsText fun s => Text.isAllBlank s = false)
  ports : container.MayHave "ports" (Value.IsList (·.Has "containerPort" (Value.IsInt InPortRange)))

structure DeploymentRules (spec : Value) : Prop where
  replicas : spec.MayHave "replicas" (Value.IsInt fun n => 0 ≤ n.toInt)
  containers : spec.Has "template" (·.Has "spec" (·.Has "containers" (Value.IsList ContainerRules)))

/-! ### Routes -/

/-- The rules of a route's encryption. Where it ends at the edge or is taken up again, a key comes with its
    certificate. -/
structure RouteTlsRules (tls : Value) : Prop where
  termination : tls.Has "termination" (Value.IsText (· ∈ ["edge", "passthrough", "reencrypt"]))
  certificate : tls.get? "termination" = some (.text "edge") ∨ tls.get? "termination" = some (.text "reencrypt") →
    tls.get? "key" ≠ none → tls.get? "certificate" ≠ none

/-- The rules of a route. A port may also be given by its name. -/
structure RouteRules (spec : Value) : Prop where
  target : spec.Has "to" (·.Has "name" (Value.IsText fun _ => True))
  targetPort : spec.MayHave "port" fun port => ∀ n, port.get? "targetPort" = some (.int n) → InPortRange n
  tls : spec.MayHave "tls" RouteTlsRules

/-! ### Build configurations -/

/-- The rules of a build configuration. A build from source has an image to build from. -/
structure BuildConfigRules (spec : Value) : Prop where
  source : spec.Has "source" (·.Has "git" (·.Has "uri" (Value.IsText fun s => Text.isAllBlank s = false)))
  base : spec.MayHave "strategy" fun strategy => strategy.get? "type" = some (.text "Source") →
    strategy.Has "sourceStrategy" (·.Has "from" (·.Has "name" (Value.IsText fun _ => True)))
  output : spec.Has "output" (·.Has "to" (·.Has "name" (Value.IsText fun _ => True)))

/-- The rules of the specification in a manifest of the kind. -/
def SpecRules : Kind → Value → Prop
  | .gateway => GatewayRules
  | .virtualService => VirtualServiceRules
  | .service => ServiceRules
  | .deployment => DeploymentRules
  | .route => RouteRules
  | .buildConfig => BuildConfigRules

end Rendered

open Rendered

/-! ### Rendering gateways -/

theorem TlsMode.name_injective {a b : TlsMode} (h : a.name = b.name) : a = b := by
  have ha := ofName?_name a
  rw [h, ofName?_name] at ha
  exact (Option.some.inj ha).symm

theorem ServerTls.Lawful.rules {t : ServerTls} (h : t.Lawful) : ServerTlsRules (.map t.render) := by
  have hmode {mode : TlsMode} (hget : (Value.map t.render).get? "mode" = some (.text mode.name)) : t.mode = mode := by
    have hname : t.mode.name = mode.name := by simpa [ServerTls.render, List.lookup_append] using hget
    exact TlsMode.name_injective hname
  constructor
  · intro hmodes
    exact Value.has_text (by simp [ServerTls.render, List.lookup_append]) (h.certificate (hmodes.imp hmode hmode))
  · intro hmodes
    exact Value.has_text (by simp [ServerTls.render, List.lookup_append]) (h.key (hmodes.imp hmode hmode))
  · intro hmutual
    exact Value.has_text (by simp [ServerTls.render, List.lookup_append]) (h.authorities (hmode hmutual))

theorem Server.Lawful.rules {s : Server} (h : s.Lawful) : ServerRules (.map s.render) where
  hosts := Value.has_texts s.get?_hosts_render h.hosts
  port := ⟨_, s.get?_port_render, .int s.port.number, by simp [ServerPort.render, List.lookup_append], _, rfl, h.port⟩
  tls := Value.mayHave_mapping (by simp [Server.render, List.lookup_append]) fun t ht => (h.tls t ht).rules

theorem Gateway.Lawful.rules {g : Gateway} (h : g.Lawful) : GatewayRules (.map g.render) where
  selector := ⟨_, g.get?_selector_render h.selector, by simpa using h.selector⟩
  servers := Value.has_mappings g.get?_servers_render h.servers Server.render_ne_nil fun s hs =>
    (h.server s hs).rules

/-! ### Rendering virtual services -/

theorem Destination.Lawful.rules {d : Destination} (h : d.Lawful) : DestinationRules (.map d.render) where
  host := Value.has_text d.get?_host_render h.host
  port := by
    intro port hport
    obtain ⟨n, hn, rfl⟩ := Option.map_eq_some_iff.mp (d.get?_port_render.symm.trans hport)
    exact ⟨.int n, by simp, n, rfl, h.port n hn⟩

theorem HttpRoute.Lawful.rules {h : HttpRoute} (hlawful : h.Lawful) : HttpRouteRules (.map h.render) where
  route := Value.mayHave_mappings h.get?_route_render fun w hw =>
    ⟨_, w.get?_destination_render (hlawful.destinations w hw), (hlawful.destinations w hw).rules⟩
  mirror := Value.mayHave_mapping h.get?_mirror_render fun d hd => (hlawful.mirror d hd).rules
  ports := Value.mayHave_mappings h.get?_match_render fun m hm =>
    Value.mayHave_int (by simp [MatchRequest.render, List.lookup_append]) (hlawful.ports m hm)
  delay := Value.mayHave_mapping h.get?_fault_render fun f hf =>
    Value.mayHave_mapping f.get?_delay_render fun d hd =>
      Value.mayHave_int (by simp [FaultDelay.render, List.lookup_append]) ((hlawful.fault f hf).delay d hd)
  abort := Value.mayHave_mapping h.get?_fault_render fun f hf =>
    Value.mayHave_mapping f.get?_abort_render fun a ha =>
      Value.mayHave_int (by simp [FaultAbort.render, List.lookup_append]) ((hlawful.fault f hf).abort a ha)
  attempts := Value.mayHave_mapping h.get?_retries_render fun r hr =>
    ⟨_, by simp [Retries.render, List.lookup_append], r.attempts, rfl, hlawful.attempts r hr⟩
  notBoth := by
    rcases hlawful.notBoth with hroute | hredirect
    · exact Or.inl (by rw [h.get?_route_render, hroute]; rfl)
    · exact Or.inr (by rw [h.get?_redirect_render, hredirect]; rfl)
  noRewrite := by
    rw [h.get?_redirect_render, h.get?_rewrite_render]
    rcases hlawful.noRewrite with hredirect | hrewrite
    · exact Or.inl (by rw [hredirect]; rfl)
    · exact Or.inr (by rw [hrewrite]; rfl)

theorem VirtualService.Lawful.rules {v : VirtualService} (h : v.Lawful) : VirtualServiceRules (.map v.render) where
  hosts := Value.has_texts v.get?_hosts_render h.hosts
  http := Value.mayHave_mappings v.get?_http_render fun http hmem => (h.http http hmem).rules

/-! ### Rendering services and deployments -/

theorem ServicePort.Lawful.rules {p : ServicePort} (h : p.Lawful) : ServicePortRules (.map p.render) where
  port := ⟨.int p.port, by simp [ServicePort.render, List.lookup_append], p.port, rfl, h.port⟩
  targetPort := Value.mayHave_int (by simp [ServicePort.render, List.lookup_append]) h.targetPort

theorem Service.Lawful.rules {s : Service} (h : s.Lawful) : ServiceRules (.map s.render) where
  ports := Value.has_mappings s.get?_ports_render h.ports ServicePort.render_ne_nil fun p hp =>
    (h.port p hp).rules

theorem Container.Lawful.rules {c : Container} (h : c.Lawful) : ContainerRules (.map c.render) where
  name := ⟨.text c.name, by simp [Container.render, List.lookup_append], c.name, rfl, h.name⟩
  image := ⟨.text c.image, by simp [Container.render, List.lookup_append], c.image, rfl, h.image⟩
  ports := Value.mayHave_mappings c.get?_ports_render fun p hp =>
    ⟨.int p.containerPort, by simp [ContainerPort.render, List.lookup_append], p.containerPort, rfl, h.ports p hp⟩

theorem Deployment.Lawful.rules {d : Deployment} (h : d.Lawful) : DeploymentRules (.map d.render) where
  replicas := Value.mayHave_int (by simp [Deployment.render, List.lookup_append]) h.replicas
  containers := ⟨_, Deployment.get?_template_render h, _, Deployment.get?_spec_renderTemplate h,
    Value.has_mappings (by simp) h.containers Container.render_ne_nil fun c hc => (h.container c hc).rules⟩

/-! ### Rendering routes -/

theorem RouteTls.Lawful.rules {t : RouteTls} (h : t.Lawful) : RouteTlsRules (.map t.render) where
  termination := ⟨.text t.termination, by simp [RouteTls.render, List.lookup_append], _, rfl, h.termination⟩
  certificate := by
    have hends : (Value.map t.render).get? "termination" = some (.text t.termination) := by
      simp [RouteTls.render, List.lookup_append]
    have hkey : (Value.map t.render).get? "key" = t.key.map .text := by simp [RouteTls.render, List.lookup_append]
    have hcertificate : (Value.map t.render).get? "certificate" = t.certificate.map .text := by
      simp [RouteTls.render, List.lookup_append]
    rw [hends, hkey, hcertificate]
    -- The record passes what is encrypted through, has no key, or has a certificate.
    intro hedge hpresent
    rcases h.certificate with hpassthrough | hnone | hsome
    · simp [hpassthrough] at hedge
    · simp [hnone] at hpresent
    · simpa [Option.isSome_iff_ne_none] using hsome

theorem PortRef.eq_of_get?_render {p : PortRef} {n : Int64}
    (h : (Value.map p.render).get? "targetPort" = some (.int n)) : p = .number n := by
  cases p with
  | number m =>
    obtain rfl : m = n := by simpa [PortRef.render] using h
    rfl
  | name s => simp [PortRef.render] at h

theorem Route.Lawful.rules {r : Route} (h : r.Lawful) : RouteRules (.map r.render) where
  target := by
    obtain ⟨t, ht, hname⟩ := h.target
    exact ⟨.map t.render, by rw [r.get?_to_render, ht]; rfl, Value.has_text t.get?_name_render hname⟩
  targetPort := Value.mayHave_mapping r.get?_port_render fun p hp n hn =>
    h.targetPort n (hp.trans (congrArg some (PortRef.eq_of_get?_render hn)))
  tls := Value.mayHave_mapping r.get?_tls_render fun t ht => (h.tls t ht).rules

/-! ### Rendering build configurations -/

theorem BuildStrategy.type_of_get?_render {s : BuildStrategy}
    (h : (Value.map s.render).get? "type" = some (.text "Source")) : s.type = .source := by
  cases htype : s.type with
  | source => rfl
  | docker => simp [BuildStrategy.render, htype, List.lookup_append] at h

theorem BuildConfig.Lawful.rules {b : BuildConfig} (h : b.Lawful) : BuildConfigRules (.map b.render) where
  source := by
    obtain ⟨source, hsource, huri⟩ := h.source
    exact ⟨_, BuildConfig.get?_source_render hsource, _, source.get?_git_render, .text source.gitUri,
      by simp [List.lookup_append], source.gitUri, rfl, huri⟩
  base := Value.mayHave_mapping b.get?_strategy_render fun s hs htype => by
    have hsource := BuildStrategy.type_of_get?_render htype
    obtain ⟨image, himage⟩ := Option.isSome_iff_exists.mp (h.base s hs hsource)
    have hbase : (Value.map (mapping "from" (renderBase image))).get? "from" = some (.map (renderBase image)) := by
      simp [shown, renderBase, textEntry]
    exact ⟨_, BuildStrategy.get?_sourceStrategy_render hsource himage, _, hbase, .text image,
      by simp [renderBase, List.lookup_append], image, rfl, trivial⟩
  output := by
    obtain ⟨image, himage⟩ := Option.isSome_iff_exists.mp h.output
    have hto : (Value.map (renderOutput image)).get? "to" =
        some (.map (textEntry "kind" "ImageStreamTag" ++ textEntry "name" image)) := by
      simp [renderOutput, shown, textEntry]
    exact ⟨_, BuildConfig.get?_output_render himage, _, hto, .text image, by simp [List.lookup_append], image, rfl,
      trivial⟩

/-! ### Rendering specifications -/

/-- A specification that keeps the rules of its kind is rendered to entries that keep them. -/
theorem Spec.Lawful.rules {s : Spec} (h : s.Lawful) :
    ∃ spec, shown s.render = some spec ∧ SpecRules s.kind spec := by
  cases s with
  | gateway g => exact ⟨_, shown_of_ne_nil (Gateway.render_ne_nil h), Gateway.Lawful.rules h⟩
  | virtualService v => exact ⟨_, shown_of_ne_nil (VirtualService.render_ne_nil h), VirtualService.Lawful.rules h⟩
  | service s => exact ⟨_, shown_of_ne_nil (Service.render_ne_nil h), Service.Lawful.rules h⟩
  | deployment d => exact ⟨_, shown_of_ne_nil (Deployment.render_ne_nil h), Deployment.Lawful.rules h⟩
  | route r => exact ⟨_, shown_of_ne_nil (Route.render_ne_nil h), Route.Lawful.rules h⟩
  | buildConfig b => exact ⟨_, shown_of_ne_nil (BuildConfig.render_ne_nil h), BuildConfig.Lawful.rules h⟩

end Manifests
