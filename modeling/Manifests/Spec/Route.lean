/-! # Routes

What a route is declared with: the address it serves, the service behind it, and its encryption. -/

namespace Manifests

/-- The service behind a route: its name, or the reference that names it. -/
structure RouteTarget where
  name : Option String
  serviceName : Option String
  weight : Option Int64
  deriving DecidableEq

/-- A port by its number or by its name. -/
inductive PortRef where
  | number (n : Int64)
  | name (s : String)
  deriving DecidableEq

/-- The encryption of a route. -/
structure RouteTls where
  termination : String
  certificate : Option String
  key : Option String
  caCertificate : Option String
  insecureEdgeTerminationPolicy : Option String
  deriving DecidableEq

/-- A route. -/
structure Route where
  host : Option String
  path : Option String
  target : Option RouteTarget
  targetPort : Option PortRef
  tls : Option RouteTls
  deriving DecidableEq

end Manifests
