import Manifests.Proofs.Except
import Manifests.Proofs.Lists
import Manifests.Resolution

/-! # What resolving gives

Resolving succeeds exactly if it does for each destination of a virtual service, or for the target of a route. Then
it changes the hosts of the destinations, or the name of the target, and nothing else. -/

namespace Manifests

variable {services : ServiceNames}

/-- What a name is resolved to, by the name that is given and the reference. -/
inductive ResolvesTo (services : ServiceNames) : (given reference name : Option String) → Prop
  /-- A name that is given is kept, whatever the reference is. -/
  | given (name : String) (reference : Option String) : ResolvesTo services (some name) reference (some name)
  /-- Without a name, it is that of the service that the reference is to. -/
  | referred {reference name : String} : services reference = some name →
      ResolvesTo services none (some reference) (some name)
  /-- Without a name and without a reference, there is none. -/
  | neither : ResolvesTo services none none none

theorem resolveName_eq_ok_iff {given reference name : Option String} :
    resolveName services given reference = .ok name ↔ ResolvesTo services given reference name := by
  constructor
  · intro h
    unfold resolveName at h
    split at h
    · obtain rfl := Except.ok.inj h
      exact .given _ _
    · obtain rfl := Except.ok.inj h
      exact .neither
    · split at h
      · obtain rfl := Except.ok.inj h
        exact .referred ‹_›
      · cases h
  · intro h
    cases h with
    | given => rfl
    | referred hname => simp [resolveName, hname]
    | neither => rfl

theorem Destination.resolve_eq_ok_iff {d d' : Destination} :
    d.resolve services = .ok d' ↔ ∃ host, ResolvesTo services d.host d.serviceName host ∧ { d with host } = d' := by
  simp only [Destination.resolve, bind_eq_ok_iff, resolveName_eq_ok_iff, pure_eq_ok_iff]

theorem WeightedDestination.resolve_eq_ok_iff {w w' : WeightedDestination} :
    w.resolve services = .ok w' ↔
      ∃ destination, w.destination.resolve services = .ok destination ∧ { w with destination } = w' := by
  simp only [WeightedDestination.resolve, bind_eq_ok_iff, pure_eq_ok_iff]

theorem HttpRoute.resolve_eq_ok_iff {h h' : HttpRoute} :
    h.resolve services = .ok h' ↔
      ∃ route, List.Forall₂ (fun w w' => WeightedDestination.resolve services w = .ok w') h.route route ∧
        ∃ mirror, Option.Rel (fun d d' => Destination.resolve services d = .ok d') h.mirror mirror ∧
          { h with route, mirror } = h' := by
  simp only [HttpRoute.resolve, bind_eq_ok_iff, mapM_eq_ok_iff, option_mapM_eq_ok_iff, pure_eq_ok_iff]

theorem VirtualService.resolve_eq_ok_iff {v v' : VirtualService} :
    v.resolve services = .ok v' ↔
      ∃ http, List.Forall₂ (fun h h' => HttpRoute.resolve services h = .ok h') v.http http ∧
        { v with http } = v' := by
  simp only [VirtualService.resolve, bind_eq_ok_iff, mapM_eq_ok_iff, pure_eq_ok_iff]

theorem RouteTarget.resolve_eq_ok_iff {t t' : RouteTarget} :
    t.resolve services = .ok t' ↔ ∃ name, ResolvesTo services t.name t.serviceName name ∧ { t with name } = t' := by
  simp only [RouteTarget.resolve, bind_eq_ok_iff, resolveName_eq_ok_iff, pure_eq_ok_iff]

theorem Route.resolve_eq_ok_iff {r r' : Route} :
    r.resolve services = .ok r' ↔
      ∃ target, Option.Rel (fun t t' => RouteTarget.resolve services t = .ok t') r.target target ∧
        { r with target } = r' := by
  simp only [Route.resolve, bind_eq_ok_iff, option_mapM_eq_ok_iff, pure_eq_ok_iff]

theorem Spec.resolve_virtualService_eq_ok_iff {v : VirtualService} {spec : Spec} :
    (Spec.virtualService v).resolve services = .ok spec ↔
      ∃ v', v.resolve services = .ok v' ∧ .virtualService v' = spec := by
  simp only [Spec.resolve, bind_eq_ok_iff, pure_eq_ok_iff]

theorem Spec.resolve_route_eq_ok_iff {r : Route} {spec : Spec} :
    (Spec.route r).resolve services = .ok spec ↔ ∃ r', r.resolve services = .ok r' ∧ .route r' = spec := by
  simp only [Spec.resolve, bind_eq_ok_iff, pure_eq_ok_iff]

/-! ### More services

What is resolved with some services is resolved alike with these and others. -/

/-- Services with all the names that others have. -/
def ServiceNames.Extends (services' services : ServiceNames) : Prop :=
  ∀ reference name, services reference = some name → services' reference = some name

section
variable {services' : ServiceNames}

theorem ResolvesTo.mono {given reference name : Option String} (h : ResolvesTo services given reference name)
    (hext : services'.Extends services) : ResolvesTo services' given reference name := by
  cases h with
  | given => exact .given _ _
  | referred hname => exact .referred (hext _ _ hname)
  | neither => exact .neither

theorem Destination.resolve_mono {d d' : Destination} (h : d.resolve services = .ok d')
    (hext : services'.Extends services) : d.resolve services' = .ok d' := by
  obtain ⟨host, hhost, rfl⟩ := Destination.resolve_eq_ok_iff.mp h
  exact Destination.resolve_eq_ok_iff.mpr ⟨host, hhost.mono hext, rfl⟩

theorem WeightedDestination.resolve_mono {w w' : WeightedDestination} (h : w.resolve services = .ok w')
    (hext : services'.Extends services) : w.resolve services' = .ok w' := by
  obtain ⟨destination, hd, rfl⟩ := WeightedDestination.resolve_eq_ok_iff.mp h
  exact WeightedDestination.resolve_eq_ok_iff.mpr ⟨destination, Destination.resolve_mono hd hext, rfl⟩

theorem HttpRoute.resolve_mono {h h' : HttpRoute} (hresolve : h.resolve services = .ok h')
    (hext : services'.Extends services) : h.resolve services' = .ok h' := by
  obtain ⟨route, hroute, mirror, hmirror, rfl⟩ := HttpRoute.resolve_eq_ok_iff.mp hresolve
  refine HttpRoute.resolve_eq_ok_iff.mpr ⟨route, hroute.imp ?_, mirror, option_rel_imp hmirror ?_, rfl⟩
  · exact fun _ _ hw => WeightedDestination.resolve_mono hw hext
  · exact fun _ _ hd => Destination.resolve_mono hd hext

theorem VirtualService.resolve_mono {v v' : VirtualService} (h : v.resolve services = .ok v')
    (hext : services'.Extends services) : v.resolve services' = .ok v' := by
  obtain ⟨http, hhttp, rfl⟩ := VirtualService.resolve_eq_ok_iff.mp h
  exact VirtualService.resolve_eq_ok_iff.mpr
    ⟨http, hhttp.imp fun _ _ hroute => HttpRoute.resolve_mono hroute hext, rfl⟩

theorem RouteTarget.resolve_mono {t t' : RouteTarget} (h : t.resolve services = .ok t')
    (hext : services'.Extends services) : t.resolve services' = .ok t' := by
  obtain ⟨name, hname, rfl⟩ := RouteTarget.resolve_eq_ok_iff.mp h
  exact RouteTarget.resolve_eq_ok_iff.mpr ⟨name, hname.mono hext, rfl⟩

theorem Route.resolve_mono {r r' : Route} (h : r.resolve services = .ok r')
    (hext : services'.Extends services) : r.resolve services' = .ok r' := by
  obtain ⟨target, htarget, rfl⟩ := Route.resolve_eq_ok_iff.mp h
  exact Route.resolve_eq_ok_iff.mpr
    ⟨target, option_rel_imp htarget fun _ _ ht => RouteTarget.resolve_mono ht hext, rfl⟩

theorem Spec.resolve_mono {s s' : Spec} (h : s.resolve services = .ok s') (hext : services'.Extends services) :
    s.resolve services' = .ok s' := by
  cases s with
  | virtualService v =>
    obtain ⟨v', hv, rfl⟩ := Spec.resolve_virtualService_eq_ok_iff.mp h
    exact Spec.resolve_virtualService_eq_ok_iff.mpr ⟨v', VirtualService.resolve_mono hv hext, rfl⟩
  | route r =>
    obtain ⟨r', hr, rfl⟩ := Spec.resolve_route_eq_ok_iff.mp h
    exact Spec.resolve_route_eq_ok_iff.mpr ⟨r', Route.resolve_mono hr hext, rfl⟩
  | gateway | service | deployment | buildConfig => exact h

end

end Manifests
