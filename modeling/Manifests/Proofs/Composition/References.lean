import Manifests.Proofs.Composition.FileNames
import Manifests.Proofs.Composition.Registration
import Manifests.Proofs.Extraction.References
import Manifests.Proofs.Lists
import Manifests.Proofs.Rendering.Networking
import Manifests.Proofs.Resolution

/-! # References within a report

In a report without failures, each declared reference to a service is replaced by the name that the manifest of this
service has. The name is carried from the registered record of the service into the manifest that refers to it, and
from the same record into the manifest of the service itself: neither filling in nor resolving changes it. -/

namespace Manifests

open Extraction Rendering

/-! ### Rendered references -/

/-- How a declared value that names a service is rendered, where the services with an identifier have the names in
    `names`. The name stands under the key. -/
structure NamesService (names : String → String → Prop) (key : String) (declared rendered : Value) : Prop where
  /-- A name that is declared is kept, whatever the reference is. -/
  given : ∀ name, declaredText? key declared.entries = some name → rendered.get? key = some (.text name)
  /-- Without one, it is that of the service that is referred to. -/
  referred : declaredText? key declared.entries = none →
    ∀ id, declaredText? "serviceName" declared.entries = some id →
      ∃ name, names id name ∧ rendered.get? key = some (.text name)
  /-- The reference itself is not rendered. -/
  unreferenced : rendered.get? "serviceName" = none

/-- How a declared route for HTTP requests is rendered: each destination by the name of its host, in order, and the
    mirror likewise. -/
structure HttpRouteNames (names : String → String → Prop) (declared rendered : Value) : Prop where
  route : List.Forall₂ (fun item item' => ∃ destination destination',
      declared? "destination" item.entries = some destination ∧ item'.get? "destination" = some destination' ∧
        NamesService names "host" destination destination')
    (declaredItems "route" declared.entries) (rendered.itemsAt "route")
  mirror : Option.Rel (NamesService names "host") (declared? "mirror" declared.entries) (rendered.get? "mirror")

/-- How the routes of a declared virtual service are rendered. A route that renders to an empty mapping is left out
    of the list. -/
def VirtualServiceNames (names : String → String → Prop) (declared : List Entry) (tree : Value) : Prop :=
  ∃ spec rendered, tree.get? "spec" = some spec ∧ spec.itemsAt "http" = rendered.reduceOption ∧
    List.Forall₂ (fun item item' => HttpRouteNames names item (item'.getD (.map [])))
      (declaredItems "http" declared) rendered

/-- How the target of a declared route is rendered. -/
def RouteNames (names : String → String → Prop) (declared : List Entry) (tree : Value) : Prop :=
  ∃ spec, tree.get? "spec" = some spec ∧
    Option.Rel (NamesService names "name") (declared? "to" declared) (spec.get? "to")

section
variable {services : ServiceNames} {names : String → String → Prop}

theorem ResolvesTo.namesService {key : String} {declared rendered : Value} {name : Option String}
    (h : ResolvesTo services (declaredText? key declared.entries) (declaredText? "serviceName" declared.entries) name)
    (hnames : ∀ id name, services id = some name → names id name) (hname : rendered.get? key = name.map .text)
    (hreference : rendered.get? "serviceName" = none) : NamesService names key declared rendered := by
  generalize hgiven : declaredText? key declared.entries = given at h
  generalize href : declaredText? "serviceName" declared.entries = reference at h
  refine ⟨fun text htext => ?_, fun hnone id hid => ?_, hreference⟩
  · obtain rfl := hgiven.symm.trans htext
    cases h
    exact hname
  · obtain rfl := hgiven.symm.trans hnone
    obtain rfl := href.symm.trans hid
    cases h with
    | referred hservice => exact ⟨_, hnames _ _ hservice, hname⟩

/-! ### Virtual services -/

theorem Destination.namesService {value : Value} {d d' : Destination} (hread : Reads readDestination value d)
    (hresolve : d.resolve services = .ok d') (hnames : ∀ id name, services id = some name → names id name) :
    NamesService names "host" value (.map d'.render) := by
  obtain ⟨host, hhost, rfl⟩ := Destination.resolve_eq_ok_iff.mp hresolve
  obtain ⟨hgiven, hreference⟩ := readDestination_eq_ok hread
  rw [hgiven, hreference] at hhost
  exact hhost.namesService hnames (by simp [Destination.render, List.lookup_append])
    (by simp [Destination.render, List.lookup_append])

theorem HttpRoute.namesServices {value : Value} {h h' : HttpRoute} (hread : Reads readHttpRoute value h)
    (hresolve : h.resolve services = .ok h') (hlawful : h'.Lawful)
    (hnames : ∀ id name, services id = some name → names id name) :
    HttpRouteNames names value (.map h'.render) := by
  obtain ⟨route, hroute, mirror, hmirror, rfl⟩ := HttpRoute.resolve_eq_ok_iff.mp hresolve
  obtain ⟨hreadRoute, hreadMirror⟩ := readHttpRoute_eq_ok hread
  constructor
  · rw [Value.itemsAt_eq (HttpRoute.get?_route_render _)]
    refine forall₂_filterMap_right (forall₂_mem_right (forall₂_comp hreadRoute hroute)) ?_
    rintro item w' ⟨hmem, w, hw, hw'⟩
    obtain ⟨d, hd, hreadDestination⟩ := readWeightedDestination_eq_ok hw
    obtain ⟨d', hd', rfl⟩ := WeightedDestination.resolve_eq_ok_iff.mp hw'
    -- The rules ask for a host, so no destination renders to an empty mapping and is left out.
    have hdestination := hlawful.destinations _ hmem
    exact ⟨_, WeightedDestination.shown_render hdestination, d, _, hd,
      WeightedDestination.get?_destination_render hdestination,
      Destination.namesService hreadDestination hd' hnames⟩
  · rw [HttpRoute.get?_mirror_render]
    refine option_rel_bind_right (option_rel_comp hreadMirror hmirror) ?_
    rintro item d' hmem ⟨d, hd, hd'⟩
    exact ⟨_, shown_of_ne_nil (Destination.render_ne_nil (hlawful.mirror d' hmem)),
      Destination.namesService hd hd' hnames⟩

/-! ### Routes -/

theorem RouteTarget.namesService {value : Value} {t t' : RouteTarget} (hread : Reads readRouteTarget value t)
    (hresolve : t.resolve services = .ok t') (hnames : ∀ id name, services id = some name → names id name) :
    NamesService names "name" value (.map t'.render) := by
  obtain ⟨name, hname, rfl⟩ := RouteTarget.resolve_eq_ok_iff.mp hresolve
  obtain ⟨hgiven, hreference⟩ := readRouteTarget_eq_ok hread
  rw [hgiven, hreference] at hname
  exact hname.namesService hnames (by simp [RouteTarget.render, List.lookup_append])
    (by simp [RouteTarget.render, List.lookup_append])

/-! ### Declarations -/

section
variable {defaultNamespace : Option String} {d : Declaration} {record : Record} {m : Manifest}

theorem virtualServiceNames_of_finish (hextract : d.extract = .ok record) (hkind : d.kind = .virtualService)
    (hfinish : finish services defaultNamespace record = .ok m)
    (hnames : ∀ id name, services id = some name → names id name) :
    VirtualServiceNames names d.entries m.tree := by
  obtain ⟨v, hv, hread⟩ := Declaration.extract_virtualService hextract hkind
  obtain ⟨spec, hspec, hlawful, htree⟩ := finish_spec hfinish
  rw [hv] at hspec
  obtain ⟨v', hv', rfl⟩ := Spec.resolve_virtualService_eq_ok_iff.mp hspec
  obtain ⟨http, hhttp, rfl⟩ := VirtualService.resolve_eq_ok_iff.mp hv'
  -- Filling in leaves the routes, so those that are resolved are those that were read.
  rw [VirtualService.withDefaults_http] at hhttp
  refine ⟨.map (VirtualService.render { v.withDefaults with http }), http.map fun h => shown h.render,
    htree.trans (shown_of_ne_nil (VirtualService.render_ne_nil hlawful)), ?_, ?_⟩
  · have hleft : (http.map fun h => shown h.render).reduceOption = http.filterMap fun h => shown h.render :=
      List.filterMap_map
    rw [Value.itemsAt_eq (VirtualService.get?_http_render _), hleft]
  · rw [List.forall₂_map_right_iff]
    refine (forall₂_mem_right (forall₂_comp hread hhttp)).imp ?_
    rintro item h' ⟨hmem, h, hitem, hresolve⟩
    rw [shown_getD]
    exact HttpRoute.namesServices hitem hresolve (hlawful.http h' hmem) hnames

theorem routeNames_of_finish (hextract : d.extract = .ok record) (hkind : d.kind = .route)
    (hfinish : finish services defaultNamespace record = .ok m)
    (hnames : ∀ id name, services id = some name → names id name) : RouteNames names d.entries m.tree := by
  obtain ⟨r, hr, hread⟩ := Declaration.extract_route hextract hkind
  obtain ⟨spec, hspec, hlawful, htree⟩ := finish_spec hfinish
  rw [hr] at hspec
  obtain ⟨r', hr', rfl⟩ := Spec.resolve_route_eq_ok_iff.mp hspec
  obtain ⟨target, htarget, rfl⟩ := Route.resolve_eq_ok_iff.mp hr'
  refine ⟨.map (Route.render { r with target }), htree.trans (shown_of_ne_nil (Route.render_ne_nil hlawful)), ?_⟩
  rw [Route.get?_to_render, Option.map_eq_bind]
  refine option_rel_bind_right (option_rel_comp hread htarget) ?_
  rintro item t' - ⟨t, ht, ht'⟩
  exact ⟨_, rfl, RouteTarget.namesService ht ht' hnames⟩

end

end

/-! ### Reports -/

/-- A declaration is that of a service with the identifier. -/
def Declaration.isServiceCalled (id : String) (d : Declaration) : Bool :=
  d.kind = .service && d.extract.toOption.map (·.id) = some id

/-- A name is that of the manifest of the one service with the identifier among declarations, each of which comes with
    its manifest. -/
def IsServiceName (composed : List (Declaration × Manifest)) (id name : String) : Prop :=
  ∃ d m, composed.filter (·.1.isServiceCalled id) = [(d, m)] ∧ m.tree.at? ["metadata", "name"] = some (.text name)

/-- What a manifest says of its declaration, where the services with an identifier have the names in `names`. -/
structure Manifest.NamesServices (names : String → String → Prop) (d : Declaration) (m : Manifest) : Prop where
  kind : m.tree.get? "kind" = some (.text d.kind.name)
  name : ∃ record, d.extract = .ok record ∧ m.tree.at? ["metadata", "name"] = some (.text record.name)
  virtualService : d.kind = .virtualService → VirtualServiceNames names d.entries m.tree
  route : d.kind = .route → RouteNames names d.entries m.tree

/-- In a report without failures all declarations were accepted, and each has a manifest. -/
theorem compose_without_failures {options : Options} {ds : List Declaration} {r : Report}
    (h : compose options ds = .ok r) (hr : r.failures = []) :
    ∃ earlier, earlier.map (·.1) = ds ∧ (registryAfter {} ds).Holds earlier ∧
      List.Forall₂ (fun e m =>
        finish (registryAfter {} ds).serviceNames options.defaultNamespace e.2 = .ok m) earlier r.manifests := by
  have hfailures : (endings options.defaultNamespace ds).filterMap (·.failure?) = [] := by
    rw [compose_eq_ok h] at hr
    exact hr
  -- No declaration failed to enroll, and no record failed after that.
  rw [endings, List.filterMap_append, List.append_eq_nil_iff] at hfailures
  obtain ⟨hrejected, hfinished⟩ := hfailures
  refine ⟨accepted (enrollments {} ds), ?_, Registry.holds_empty.registryAfter ds, ?_⟩
  · rw [map_fst_accepted (rejections_eq_nil hrejected), map_fst_enrollments]
  · rw [compose_manifests h, ← map_snd_accepted, List.filterMap_map]
    rw [← map_snd_accepted, List.map_map, List.filterMap_map, List.filterMap_eq_nil_iff] at hfinished
    have hsame : List.Forall₂ (fun e (e' : Declaration × Record) =>
        e = e' ∧ (finishing _ _ e'.2).failure? = none) _ _ :=
      List.forall₂_same.mpr fun e he => ⟨rfl, hfinished e he⟩
    refine forall₂_filterMap_right hsame ?_
    rintro e _ ⟨rfl, hnone⟩
    cases hfinish : finish (registryAfter {} ds).serviceNames options.defaultNamespace e.2 with
    | ok m => exact ⟨m, by simp [finishing, hfinish], rfl⟩
    | error failure => simp [finishing, hfinish] at hnone

section
variable {registry : Registry} {earlier : List (Declaration × Record)} {ms : List Manifest}

theorem Registry.Holds.isServiceCalled_iff (h : registry.Holds earlier) {e : Declaration × Record} (he : e ∈ earlier)
    (id : String) : e.1.isServiceCalled id = true ↔ e.1.kind = .service ∧ e.2.id = id := by
  simp [Declaration.isServiceCalled, h.extract e he, Except.toOption]

/-- What a reference is resolved to is the name of the manifest of the one service that it is to. -/
theorem Registry.Holds.isServiceName (h : registry.Holds earlier) {defaultNamespace : Option String}
    (hfinish : List.Forall₂ (fun e m => finish registry.serviceNames defaultNamespace e.2 = .ok m) earlier ms)
    {id name : String} (hname : registry.serviceNames id = some name) :
    IsServiceName ((earlier.map (·.1)).zip ms) id name := by
  obtain ⟨record, hlookup, rfl⟩ := Option.map_eq_some_iff.mp hname
  obtain ⟨d, hmem, hkind, hid⟩ := h.lookup?_eq_some_iff.mp hlookup
  obtain ⟨m, hzip, hm⟩ := exists_mem_zip_of_forall₂ hfinish hmem
  refine ⟨d, m, filter_eq_singleton ?_ ?_ ?_, (finish_shows hm).2⟩
  · -- The declarations in the list are accepted ones, no two of which have the kind and the identifier in common.
    have hpairwise : (earlier.zip ms).Pairwise fun a b => (a.1.1.kind, a.1.2.id) ≠ (b.1.1.kind, b.1.2.id) := by
      have hearlier := h.pairwise
      rwa [← List.map_fst_zip (Nat.le_of_eq hfinish.length_eq), List.pairwise_map] at hearlier
    rw [List.zip_map_left, List.pairwise_map]
    refine hpairwise.imp_of_mem fun {a b} ha hb hne hkeep => ?_
    have ha' := (h.isServiceCalled_iff (List.of_mem_zip ha).1 id).mp hkeep
    refine Bool.eq_false_iff.mpr fun hkeep' => hne ?_
    have hb' := (h.isServiceCalled_iff (List.of_mem_zip hb).1 id).mp hkeep'
    rw [ha'.1, ha'.2, hb'.1, hb'.2]
  · rw [List.zip_map_left]
    exact List.mem_map.mpr ⟨_, hzip, rfl⟩
  · exact (h.isServiceCalled_iff hmem id).mpr ⟨hkind, hid⟩

end

/-- In a report without failures every declaration has its manifest, and references are closed within the report: a
    destination of a virtual service or its mirror, and the target of a route, that refers to a service is rendered
    with the name that stands in the manifest of the one service that is declared with the identifier, wherever that
    is. A host or a name that is declared is kept, and no reference is rendered. -/
theorem compose_namesServices {options : Options} {ds : List Declaration} {r : Report}
    (h : compose options ds = .ok r) (hr : r.failures = []) :
    List.Forall₂ (fun d m => m.NamesServices (IsServiceName (ds.zip r.manifests)) d) ds r.manifests := by
  obtain ⟨earlier, rfl, hholds, hfinish⟩ := compose_without_failures h hr
  rw [List.forall₂_map_left_iff]
  refine ((List.forall₂_and_left _ _).mpr ⟨hholds.extract, hfinish⟩).imp ?_
  rintro e m ⟨hextract, hm⟩
  obtain ⟨hkind, hname⟩ := finish_shows hm
  rw [Declaration.extract_kind hextract] at hkind
  have hnames (id name : String) (h : (registryAfter {} (earlier.map (·.1))).serviceNames id = some name) :=
    hholds.isServiceName hfinish h
  exact {
    kind := hkind
    name := ⟨e.2, hextract, hname⟩
    virtualService := fun hvirtual => virtualServiceNames_of_finish hextract hvirtual hm hnames
    route := fun hroute => routeNames_of_finish hextract hroute hm hnames }

/-- A virtual service and a route that refer to a service declared after them. One destination has a host of its own
    besides, and the mirror has none. -/
def forwardReferences : List Declaration :=
  [⟨.virtualService, some "front", [("http", .list [.map
      [("route", .list
        [.map [("destination", .map [("serviceName", .text "svcA")])],
         .map [("destination", .map [("host", .text "a.example"), ("serviceName", .text "svcA")])]]),
       ("mirror", .map [("serviceName", .text "svcA")])]])], ⟨"app.yaml", 0⟩⟩,
   ⟨.route, some "edge", [("to", .map [("serviceName", .text "svcA")])], ⟨"app.yaml", 1⟩⟩,
   ⟨.service, some "svcA", [("ports", .list [.map [("port", .int 80)]])], ⟨"app.yaml", 2⟩⟩]

theorem forwardReferences_namesServices :
    ∃ r, compose ⟨.keepGoing, none⟩ forwardReferences = .ok r ∧ r.failures = [] ∧
      r.manifests.map (·.tree.at? ["spec", "to", "name"]) = [none, some (.text "svc-a"), none] ∧
      List.Forall₂ (fun d m => m.NamesServices (IsServiceName (forwardReferences.zip r.manifests)) d) forwardReferences
        r.manifests :=
  ⟨_, compose_keepGoing none forwardReferences, rfl, rfl,
    compose_namesServices (compose_keepGoing none forwardReferences) rfl⟩

end Manifests
