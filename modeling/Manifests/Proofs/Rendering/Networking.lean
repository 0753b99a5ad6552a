import Manifests.Proofs.Rendering.Entries
import Manifests.Proofs.Validation
import Manifests.Rendering.Networking

/-! # What stands in rendered gateways, virtual services and routes

The parts that other parts are looked up in. A part that keeps its rules is not empty, so that it is not left out. -/

namespace Manifests

open Rendering

/-! ### Gateways -/

theorem Server.get?_port_render (s : Server) : (Value.map s.render).get? "port" = some (.map s.port.render) := by
  have hport : s.port.render ≠ [] := by simp [ServerPort.render, intEntry]
  simp [Server.render, List.lookup_append, shown_of_ne_nil hport]

theorem Server.get?_hosts_render (s : Server) : (Value.map s.render).get? "hosts" = shownList (s.hosts.map .text) := by
  simp [Server.render, List.lookup_append]

theorem Server.render_ne_nil (s : Server) : s.render ≠ [] := Value.ne_nil_of_get? s.get?_port_render

theorem Gateway.get?_selector_render {g : Gateway} (h : g.selector.entries ≠ []) :
    (Value.map g.render).get? "selector" =
      some (.map (g.selector.entries.map fun entry => (entry.1, .text entry.2))) := by
  have hselector : g.selector.entries.map (fun entry => (entry.1, Value.text entry.2)) ≠ [] := by simpa using h
  simp [Gateway.render, List.lookup_append, shown_of_ne_nil hselector]

theorem Gateway.get?_servers_render (g : Gateway) :
    (Value.map g.render).get? "servers" = shownList (g.servers.filterMap fun s => shown s.render) := by
  simp [Gateway.render, List.lookup_append]

theorem Gateway.render_ne_nil {g : Gateway} (h : g.Lawful) : g.render ≠ [] :=
  Value.ne_nil_of_get? (g.get?_selector_render h.selector)

/-! ### Virtual services -/

theorem Destination.get?_host_render (d : Destination) :
    (Value.map d.render).get? "host" = d.host.map .text := by
  simp [Destination.render, List.lookup_append]

theorem Destination.get?_port_render (d : Destination) :
    (Value.map d.render).get? "port" = d.port.map fun n => .map (intEntry "number" n) := by
  cases hport : d.port <;> simp [Destination.render, List.lookup_append, hport, shown, intEntry]

theorem Destination.render_ne_nil {d : Destination} (h : d.Lawful) : d.render ≠ [] := by
  obtain ⟨host, hhost⟩ := Option.isSome_iff_exists.mp h.host
  exact Value.ne_nil_of_get? (d.get?_host_render.trans (by rw [hhost]; rfl))

theorem WeightedDestination.get?_destination_render {w : WeightedDestination} (h : w.destination.Lawful) :
    (Value.map w.render).get? "destination" = some (.map w.destination.render) := by
  simp [WeightedDestination.render, List.lookup_append, shown_of_ne_nil (Destination.render_ne_nil h)]

theorem WeightedDestination.shown_render {w : WeightedDestination} (h : w.destination.Lawful) :
    shown w.render = some (.map w.render) :=
  shown_of_ne_nil (Value.ne_nil_of_get? (w.get?_destination_render h))

section
variable (h : HttpRoute)

theorem HttpRoute.get?_match_render :
    (Value.map h.render).get? "match" = shownList (h.conditions.filterMap fun m => shown m.render) := by
  simp [HttpRoute.render, List.lookup_append]

theorem HttpRoute.get?_route_render :
    (Value.map h.render).get? "route" = shownList (h.route.filterMap fun w => shown w.render) := by
  simp [HttpRoute.render, List.lookup_append]

theorem HttpRoute.get?_redirect_render :
    (Value.map h.render).get? "redirect" = h.redirect.bind fun a => shown a.render := by
  simp [HttpRoute.render, List.lookup_append]

theorem HttpRoute.get?_rewrite_render :
    (Value.map h.render).get? "rewrite" = h.rewrite.bind fun a => shown a.render := by
  simp [HttpRoute.render, List.lookup_append]

theorem HttpRoute.get?_retries_render :
    (Value.map h.render).get? "retries" = h.retries.bind fun r => shown r.render := by
  simp [HttpRoute.render, List.lookup_append]

theorem HttpRoute.get?_fault_render :
    (Value.map h.render).get? "fault" = h.fault.bind fun f => shown f.render := by
  simp [HttpRoute.render, List.lookup_append]

theorem HttpRoute.get?_mirror_render :
    (Value.map h.render).get? "mirror" = h.mirror.bind fun d => shown d.render := by
  simp [HttpRoute.render, List.lookup_append]

end

theorem FaultInjection.get?_delay_render (f : FaultInjection) :
    (Value.map f.render).get? "delay" = f.delay.bind fun d => shown d.render := by
  simp [FaultInjection.render, List.lookup_append]

theorem FaultInjection.get?_abort_render (f : FaultInjection) :
    (Value.map f.render).get? "abort" = f.abort.bind fun a => shown a.render := by
  simp [FaultInjection.render, List.lookup_append]

theorem VirtualService.get?_hosts_render (v : VirtualService) :
    (Value.map v.render).get? "hosts" = shownList (v.hosts.map .text) := by
  simp [VirtualService.render, List.lookup_append]

theorem VirtualService.get?_http_render (v : VirtualService) :
    (Value.map v.render).get? "http" = shownList (v.http.filterMap fun h => shown h.render) := by
  simp [VirtualService.render, List.lookup_append]

theorem VirtualService.render_ne_nil {v : VirtualService} (h : v.Lawful) : v.render ≠ [] := by
  simp [VirtualService.render, texts, list, h.hosts]

/-! ### Routes -/

theorem RouteTarget.get?_name_render (t : RouteTarget) :
    (Value.map t.render).get? "name" = t.name.map .text := by
  simp [RouteTarget.render, List.lookup_append]

theorem RouteTarget.render_ne_nil (t : RouteTarget) : t.render ≠ [] := by
  simp [RouteTarget.render, textEntry]

theorem Route.get?_to_render (r : Route) :
    (Value.map r.render).get? "to" = r.target.map fun t => .map t.render := by
  cases htarget : r.target <;>
    simp [Route.render, List.lookup_append, htarget, shown_of_ne_nil (RouteTarget.render_ne_nil _)]

theorem Route.get?_port_render (r : Route) :
    (Value.map r.render).get? "port" = r.targetPort.bind fun p => shown p.render := by
  simp [Route.render, List.lookup_append]

theorem Route.get?_tls_render (r : Route) :
    (Value.map r.render).get? "tls" = r.tls.bind fun t => shown t.render := by
  simp [Route.render, List.lookup_append]

theorem Route.render_ne_nil {r : Route} (h : r.Lawful) : r.render ≠ [] := by
  obtain ⟨t, ht, -⟩ := h.target
  exact Value.ne_nil_of_get? (r.get?_to_render.trans (by rw [ht]; rfl))

end Manifests
