import Manifests.Registry

/-! # Resolution of references

A destination without a host, and the target of a route without a name, may refer to a service by its identifier.
Resolving puts the name of that service in. What is named already is kept, and its reference is not looked up. -/

namespace Manifests

/-- The names of services by what references call them. -/
abbrev ServiceNames := String → Option String

/-- What resolving gives: a value, or the first reference that names no service. -/
abbrev Resolving (α : Type) := Except String α

def Registry.serviceNames (r : Registry) : ServiceNames := fun reference => (r.lookup? .service reference).map (·.name)

/-- A name that is given, or else the name of the service referred to, if there is a reference. -/
def resolveName (services : ServiceNames) (given reference : Option String) : Resolving (Option String) :=
  match given, reference with
  | some name, _ => .ok (some name)
  | none, none => .ok none
  | none, some reference =>
    match services reference with
    | some name => .ok (some name)
    | none => .error reference

def Destination.resolve (services : ServiceNames) (d : Destination) : Resolving Destination := do
  return { d with host := ← resolveName services d.host d.serviceName }

def WeightedDestination.resolve (services : ServiceNames) (w : WeightedDestination) :
    Resolving WeightedDestination := do
  return { w with destination := ← w.destination.resolve services }

/-- A route for HTTP requests with its hosts: first those of its destinations, then that of its mirror. -/
def HttpRoute.resolve (services : ServiceNames) (h : HttpRoute) : Resolving HttpRoute := do
  let route ← h.route.mapM (·.resolve services)
  let mirror ← h.mirror.mapM (·.resolve services)
  return { h with route, mirror }

def VirtualService.resolve (services : ServiceNames) (v : VirtualService) : Resolving VirtualService := do
  return { v with http := ← v.http.mapM (·.resolve services) }

def RouteTarget.resolve (services : ServiceNames) (t : RouteTarget) : Resolving RouteTarget := do
  return { t with name := ← resolveName services t.name t.serviceName }

def Route.resolve (services : ServiceNames) (r : Route) : Resolving Route := do
  return { r with target := ← r.target.mapM (·.resolve services) }

/-- A specification with its references resolved. -/
def Spec.resolve (services : ServiceNames) : Spec → Resolving Spec
  | .virtualService v => do return .virtualService (← v.resolve services)
  | .route r => do return .route (← r.resolve services)
  | other => .ok other

def Record.resolve (services : ServiceNames) (r : Record) : Resolving Record := do
  return { r with spec := ← r.spec.resolve services }

end Manifests
