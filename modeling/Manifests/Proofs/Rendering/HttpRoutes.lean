import Manifests.Proofs.Composition.Policy
import Manifests.Proofs.Rendering.Networking
import Manifests.Proofs.Rendering.Record

/-! # Routes of virtual services in manifests

What the manifest of a valid virtual service shows of its routes. A redirect without a part of an address is enough
for a route to be valid, but the manifest does not show it, so that each route directs requests in the manifest exactly
if there is no such redirect (`ValidRecord.showsDirections`). Of what a route asks of requests, the manifest shows each
alternative that asks for something, and leaves out the others (`ValidRecord.showsConditions`). -/

namespace Manifests

open Rendering

/-! ### The list of routes -/

/-- The entries of the list of HTTP routes in a manifest. -/
def Rendered.httpEntries (tree : Value) : List Value := ((tree.get? "spec").map (·.itemsAt "http")).getD []

open Rendered

section
variable {r : ValidRecord} {v : VirtualService}

theorem ValidRecord.virtualService_lawful (hspec : r.record.spec = .virtualService v) : v.Lawful := by
  obtain ⟨-, hlawful⟩ := Record.valid_iff.mp r.valid
  rwa [hspec] at hlawful

theorem ValidRecord.httpEntries_render (hspec : r.record.spec = .virtualService v) :
    httpEntries r.record.render = v.http.filterMap fun h => shown h.render := by
  have hshown : shown r.record.spec.render = some (.map v.render) := by
    rw [hspec]
    exact shown_of_ne_nil (VirtualService.render_ne_nil (virtualService_lawful hspec))
  rw [httpEntries, Record.get?_spec_render, hshown, Option.map_some, Option.getD_some,
    Value.itemsAt_eq v.get?_http_render]

end

/-! ### Where a route directs requests -/

/-- A redirect or a rewrite that has no part of an address. -/
def AddressParts.blank : AddressParts := ⟨none, none⟩

theorem AddressParts.render_eq_nil_iff {a : AddressParts} : a.render = [] ↔ a = .blank := by
  obtain ⟨uri, authority⟩ := a
  simp [AddressParts.render, AddressParts.blank, optionalText_eq_nil_iff]

theorem AddressParts.bind_shown_render (part : Option AddressParts) :
    (part.bind fun a => shown a.render) = (part.filter (· ≠ .blank)).map fun a => .map a.render := by
  cases part with
  | none => rfl
  | some a =>
    by_cases ha : a = .blank
    · simp [ha, Option.filter_some, shown, AddressParts.render_eq_nil_iff.mpr]
    · simp [ha, Option.filter_some, shown_of_ne_nil (mt AddressParts.render_eq_nil_iff.mp ha)]

/-- An entry directs requests one way: to destinations or to another address. -/
def Rendered.Directs (entry : Value) : Prop := Xor (entry.get? "route" ≠ none) (entry.get? "redirect" ≠ none)

/-- The entry of a route shows where the route directs requests: all of its destinations, in order, and its redirect,
    if that has a part of an address. -/
structure HttpRoute.ShowsDirection (h : HttpRoute) (entry : Value) : Prop where
  rendered : entry = .map h.render
  route : entry.get? "route" = shownList (h.route.map fun w => .map w.render)
  redirect : entry.get? "redirect" = (h.redirect.filter (· ≠ .blank)).map fun a => .map a.render
  directs : Directs entry ↔ h.redirect ≠ some .blank

theorem WeightedDestination.filterMap_shown_render {ws : List WeightedDestination}
    (h : ∀ w ∈ ws, w.destination.Lawful) :
    ws.filterMap (fun w => shown w.render) = ws.map fun w => Value.map w.render := by
  rw [← List.filterMap_eq_map]
  exact List.filterMap_congr fun w hw => WeightedDestination.shown_render (h w hw)

theorem HttpRoute.Lawful.showsDirection {h : HttpRoute} (hlawful : h.Lawful) : h.ShowsDirection (.map h.render) := by
  have hroute := h.get?_route_render
  rw [WeightedDestination.filterMap_shown_render hlawful.destinations] at hroute
  have hredirect := h.get?_redirect_render
  rw [AddressParts.bind_shown_render] at hredirect
  refine ⟨rfl, hroute, hredirect, ?_⟩
  rw [Directs, hroute, hredirect]
  -- One of the two is absent from the record, and the other is not.
  rcases hlawful.notBoth with hnone | hnone
  · obtain ⟨a, ha⟩ := Option.isSome_iff_exists.mp (hlawful.routeOrRedirect.resolve_left (not_not_intro hnone))
    simp [hnone, ha, Option.filter_some, shownList, Xor]
  · have hsome : h.route ≠ [] := hlawful.routeOrRedirect.resolve_right (by simp [hnone])
    simp [hnone, hsome, shownList, Xor]

/-- A route is left out only for a redirect that is not shown. -/
theorem HttpRoute.Lawful.redirect_of_render_eq_nil {h : HttpRoute} (hlawful : h.Lawful) (hnil : h.render = []) :
    h.redirect = some .blank := by
  by_contra hblank
  have hdirects := hlawful.showsDirection.directs.mpr hblank
  simp [hnil, Directs, Xor] at hdirects

/-- The entries show where the routes of a virtual service direct requests. Each route has an entry that directs them
    one way exactly if no redirect is without a part of an address. -/
structure VirtualService.ShowsDirections (v : VirtualService) (entries : List Value) : Prop where
  inOrder : List.Forall₂ HttpRoute.ShowsDirection (v.http.filter fun h => !h.render.isEmpty) entries
  leftOut : ∀ h ∈ v.http, h.render = [] → h.redirect = some .blank
  complete : (∀ h ∈ v.http, h.redirect ≠ some .blank) →
    List.Forall₂ (fun h entry => h.ShowsDirection entry ∧ Directs entry) v.http entries
  only : entries.length = v.http.length → (∀ entry ∈ entries, Directs entry) →
    ∀ h ∈ v.http, h.redirect ≠ some .blank

theorem ValidRecord.showsDirections {r : ValidRecord} {v : VirtualService} (hspec : r.record.spec = .virtualService v) :
    v.ShowsDirections (httpEntries r.record.render) := by
  have hlawful := (virtualService_lawful hspec).http
  have hinOrder := forall₂_filterMap_shown fun h hmem => (hlawful h hmem).showsDirection
  have hleftOut (h : HttpRoute) (hmem : h ∈ v.http) := (hlawful h hmem).redirect_of_render_eq_nil
  rw [httpEntries_render hspec]
  refine ⟨hinOrder, hleftOut, fun hblank => ?_, fun hlength hdirects => ?_⟩
  · have hkept : v.http.filter (fun h => !h.render.isEmpty) = v.http :=
      List.filter_eq_self.mpr fun h hmem => by simpa using mt (hleftOut h hmem) (hblank h hmem)
    have hboth : List.Forall₂ (fun h entry => h.ShowsDirection entry ∧ Directs entry)
        (v.http.filter fun h => !h.render.isEmpty) (v.http.filterMap fun h => shown h.render) :=
      forall₂_filterMap_shown fun h hmem =>
        have hshows := (hlawful h hmem).showsDirection
        ⟨hshows, hshows.directs.mpr (hblank h hmem)⟩
    rwa [hkept] at hboth
  · -- No entry is missing, so no route is left out, and each has an entry that directs requests.
    have hkept : v.http.filter (fun h => !h.render.isEmpty) = v.http := by
      rw [List.filter_eq_self, ← List.length_filter_eq_length_iff, hinOrder.length_eq, hlength]
    rw [hkept] at hinOrder
    intro h hmem
    obtain ⟨entry, hzip, hentry⟩ := exists_mem_zip_of_forall₂ hinOrder hmem
    exact hentry.directs.mp (hdirects entry (List.of_mem_zip hzip).2)

/-- A virtual service with these routes, as it is declared. -/
def declaredFront (routes : List Value) : Declaration :=
  ⟨.virtualService, some "front", [("http", .list routes)], ⟨"app.yaml", 0⟩⟩

/-- The record of a virtual service with these routes, with its gaps filled in. -/
def front (routes : List HttpRoute) : Record :=
  ⟨"front", "front", none, {}, {}, .virtualService ⟨["*"], [], routes⟩, ⟨"app.yaml", 0⟩⟩

/-- A route that nothing is declared of. -/
def HttpRoute.undeclared : HttpRoute := ⟨[], [], none, none, none, none, none, none, none, {}⟩

/-- A route to a destination, and one that is redirected. -/
def directedRoutes : List HttpRoute :=
  [{ HttpRoute.undeclared with route := [⟨⟨some "a", none, none, none⟩, none⟩] },
   { HttpRoute.undeclared with redirect := some ⟨some "/new", none⟩ }]

theorem directedRoutes_showsDirections :
    ∃ r : ValidRecord, r.record = front directedRoutes ∧
      VirtualService.ShowsDirections ⟨["*"], [], directedRoutes⟩ (httpEntries r.record.render) ∧
      List.Forall₂ (fun h entry => h.ShowsDirection entry ∧ Directs entry) directedRoutes
        (httpEntries r.record.render) := by
  have hshows := ValidRecord.showsDirections (r := ⟨front directedRoutes, rfl⟩) rfl
  exact ⟨_, rfl, hshows, hshows.complete (by decide)⟩

/-- Two redirects without a part of an address, the second with a time limit. -/
def blankRedirects : List HttpRoute :=
  [{ HttpRoute.undeclared with redirect := some .blank },
   { HttpRoute.undeclared with redirect := some .blank, timeout := some "5s" }]

/-- The one route is left out, and the entry of the other directs requests nowhere. -/
theorem blankRedirects_not_directed :
    ∃ (r : ValidRecord) (report : Report) (entry : Value),
      compose ⟨.keepGoing, none⟩ [declaredFront [.map [("redirect", .map [])],
        .map [("redirect", .map []), ("timeout", .text "5s")]]] = .ok report ∧
      report.manifests = [.ofRecord r] ∧ r.record = front blankRedirects ∧
      httpEntries r.record.render = [entry] ∧ ¬ Directs entry ∧
      ¬ List.Forall₂ (fun _ entry => Directs entry) blankRedirects [entry] := by
  refine ⟨⟨front blankRedirects, rfl⟩, _, .map [("timeout", .text "5s")], compose_keepGoing none _, rfl, rfl, rfl,
    by simp [Directs, Xor], fun hall => ?_⟩
  simp [blankRedirects] at hall

/-! ### What a route asks of requests -/

/-- The request that asks for nothing, which every request is. -/
def MatchRequest.unconditional : MatchRequest := ⟨none, none, none, none, {}, none⟩

theorem StringMatch.render_ne_nil (s : StringMatch) : s.render ≠ [] := by
  cases s <;> simp [StringMatch.render, textEntry]

theorem StringMatch.optionalMapping_eq_nil {key : String} {s : Option StringMatch} :
    optionalMapping key s StringMatch.render = [] ↔ s = none := by
  cases s <;> simp [optionalMapping_eq_nil_iff, StringMatch.render_ne_nil]

theorem StringMatch.flatMap_mapping (conditions : List (String × StringMatch)) :
    conditions.flatMap (fun entry => mapping entry.1 entry.2.render) =
      conditions.map fun entry => (entry.1, .map entry.2.render) := by
  have hentry (entry : String × StringMatch) : mapping entry.1 entry.2.render = [(entry.1, .map entry.2.render)] := by
    simp [mapping, render_ne_nil]
  simp only [hentry, List.map_eq_flatMap]

theorem MatchRequest.render_eq_nil_iff {m : MatchRequest} : m.render = [] ↔ m = .unconditional := by
  obtain ⟨uri, scheme, method, authority, headers, port⟩ := m
  simp [MatchRequest.render, MatchRequest.unconditional, TextMap.eq_empty_iff, mapping_eq_nil_iff,
    optionalInt_eq_nil_iff, StringMatch.optionalMapping_eq_nil, StringMatch.flatMap_mapping]

/-- The entry of a request shows all that is asked of it. -/
structure MatchRequest.ShownAs (m : MatchRequest) (entry : Value) : Prop where
  uri : entry.get? "uri" = m.uri.map fun s => .map s.render
  scheme : entry.get? "scheme" = m.scheme.map fun s => .map s.render
  method : entry.get? "method" = m.method.map fun s => .map s.render
  authority : entry.get? "authority" = m.authority.map fun s => .map s.render
  headers : entry.get? "headers" = shown (m.headers.entries.map fun header => (header.1, .map header.2.render))
  port : entry.get? "port" = m.port.map .int

theorem MatchRequest.shownAs_render (m : MatchRequest) : m.ShownAs (.map m.render) := by
  have hpart (s : Option StringMatch) : (s.bind fun s => shown s.render) = s.map fun s => Value.map s.render := by
    cases s <;> simp [shown_of_ne_nil (StringMatch.render_ne_nil _)]
  constructor <;> simp [MatchRequest.render, List.lookup_append, hpart, StringMatch.flatMap_mapping]

/-- The entry of a route shows what the route asks of requests: what asks for something, in order. -/
structure HttpRoute.ShowsConditions (h : HttpRoute) (entry : Value) : Prop where
  rendered : entry = .map h.render
  inOrder : List.Forall₂ MatchRequest.ShownAs (h.conditions.filter (· ≠ .unconditional)) (entry.itemsAt "match")
  absent : (∀ m ∈ h.conditions, m = .unconditional) → entry.get? "match" = none
  complete : (entry.itemsAt "match").length = h.conditions.length ↔ ∀ m ∈ h.conditions, m ≠ .unconditional

theorem HttpRoute.showsConditions_render (h : HttpRoute) : h.ShowsConditions (.map h.render) := by
  have hinOrder : List.Forall₂ MatchRequest.ShownAs (h.conditions.filter (· ≠ .unconditional))
      ((Value.map h.render).itemsAt "match") := by
    have hkeep : h.conditions.filter (fun m => !m.render.isEmpty) = h.conditions.filter (· ≠ .unconditional) := by
      refine List.filter_congr fun m _ => ?_
      by_cases hm : m = .unconditional <;> simp [hm, MatchRequest.render_eq_nil_iff]
    rw [Value.itemsAt_eq h.get?_match_render, ← hkeep]
    exact forall₂_filterMap_shown fun m _ => m.shownAs_render
  refine ⟨rfl, hinOrder, fun hall => ?_, ?_⟩
  · rw [h.get?_match_render, List.filterMap_eq_nil_iff.mpr fun m hm => ?_]
    · rfl
    · rw [MatchRequest.render_eq_nil_iff.mpr (hall m hm)]
      rfl
  · rw [← hinOrder.length_eq, List.length_filter_eq_length_iff]
    simp

/-- The entries show what the routes of a virtual service ask of requests. A route without an entry asks for
    nothing. -/
structure VirtualService.ShowsConditions (v : VirtualService) (entries : List Value) : Prop where
  inOrder : List.Forall₂ HttpRoute.ShowsConditions (v.http.filter fun h => !h.render.isEmpty) entries
  leftOut : ∀ h ∈ v.http, h.render = [] → ∀ m ∈ h.conditions, m = .unconditional

theorem ValidRecord.showsConditions {r : ValidRecord} {v : VirtualService} (hspec : r.record.spec = .virtualService v) :
    v.ShowsConditions (httpEntries r.record.render) := by
  rw [httpEntries_render hspec]
  refine ⟨forall₂_filterMap_shown fun h _ => h.showsConditions_render, fun h _ hnil m hm => ?_⟩
  have hinOrder := h.showsConditions_render.inOrder
  rw [hnil] at hinOrder
  have hnone : h.conditions.filter (· ≠ .unconditional) = [] := List.forall₂_nil_right_iff.mp hinOrder
  simpa using List.filter_eq_nil_iff.mp hnone m hm

/-- A route with two alternatives. Every request is of the second one. -/
def openAlternatives : List HttpRoute :=
  [{ HttpRoute.undeclared with
      conditions := [{ MatchRequest.unconditional with uri := some (.start "/a") }, .unconditional]
      route := [⟨⟨some "a", none, none, none⟩, none⟩] }]

theorem openAlternatives_showsConditions :
    ∃ r : ValidRecord, r.record = front openAlternatives ∧
      VirtualService.ShowsConditions ⟨["*"], [], openAlternatives⟩ (httpEntries r.record.render) :=
  ⟨_, rfl, ValidRecord.showsConditions (r := ⟨front openAlternatives, rfl⟩) rfl⟩

/-- The manifest shows the first alternative only. -/
theorem openAlternatives_not_kept :
    ∃ (r : ValidRecord) (report : Report) (entry : Value),
      compose ⟨.keepGoing, none⟩ [declaredFront [.map
        [("match", .list [.map [("uri", .map [("prefix", .text "/a")])], .map []]),
         ("route", .list [.map [("destination", .map [("host", .text "a")])]])]]] = .ok report ∧
      report.manifests = [.ofRecord r] ∧ r.record = front openAlternatives ∧
      httpEntries r.record.render = [entry] ∧
      entry.itemsAt "match" = [.map [("uri", .map [("prefix", .text "/a")])]] ∧
      ¬ List.Forall₂ (fun h entry => (entry.itemsAt "match").length = h.conditions.length) openAlternatives [entry] := by
  refine ⟨⟨front openAlternatives, rfl⟩, _, _, compose_keepGoing none _, rfl, rfl, rfl, rfl, ?_⟩
  rintro (_ | ⟨hlength, -⟩)
  have honeTwo : 1 = 2 := hlength
  cases honeTwo

end Manifests
