import Manifests.Extraction.Fields
import Manifests.Spec.Route

/-! # Reading routes -/

namespace Manifests.Extraction

def routeTargetFields : List (Field RouteTarget) :=
  [.of "name" readText fun t s => { s with name := some t },
   .of "serviceName" readText fun t s => { s with serviceName := some t },
   .of "weight" readOptionalInt fun n s => { s with weight := n }]

def readRouteTarget : Reader RouteTarget := readRecord routeTargetFields ⟨none, none, none⟩

/-- A port by its number, or by the text of any other scalar as its name. -/
def readPortRef : Reader PortRef
  | _, .int n => .ok (.number n)
  | path, other => do return .name (← readText path other)

/-- A route's encryption while it is read. -/
structure RouteTlsDraft where
  termination : Option String
  certificate : Option String
  key : Option String
  caCertificate : Option String
  insecureEdgeTerminationPolicy : Option String

/-- The fields of a route's encryption. -/
def routeTlsFields : List (Field RouteTlsDraft) :=
  [.of "termination" readText fun t s => { s with termination := some t },
   .of "certificate" readText fun t s => { s with certificate := some t },
   .of "key" readText fun t s => { s with key := some t },
   .of "caCertificate" readText fun t s => { s with caCertificate := some t },
   .of "insecureEdgeTerminationPolicy" readText fun t s => { s with insecureEdgeTerminationPolicy := some t }]

/-- A route's encryption. -/
def readRouteTls : Reader RouteTls := fun path value => do
  let d ← readRecord routeTlsFields ⟨none, none, none, none, none⟩ path value
  let termination ← required (path.field "termination") d.termination
  return ⟨termination, d.certificate, d.key, d.caCertificate, d.insecureEdgeTerminationPolicy⟩

def routeFields : List (Field Route) :=
  [.of "host" readText fun t s => { s with host := some t },
   .of "path" readText fun t s => { s with path := some t },
   .of "to" readRouteTarget fun t s => { s with target := some t },
   .of "targetPort" readPortRef fun p s => { s with targetPort := some p },
   .of "tls" readRouteTls fun t s => { s with tls := some t }]

def readRoute (entries : List Entry) : Result Route :=
  readFields routeFields [] entries ⟨none, none, none, none, none⟩

end Manifests.Extraction
