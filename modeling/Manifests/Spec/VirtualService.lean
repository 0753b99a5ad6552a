import Manifests.TextMap

/-! # Virtual services

What a virtual service is declared with: hosts, gateways, and the routes that HTTP requests take. -/

namespace Manifests

/-- A condition on a text. -/
inductive StringMatch where
  | exact (s : String)
  | start (s : String)
  | regex (s : String)
  deriving DecidableEq

/-- A condition on a request; all its parts must hold. -/
structure MatchRequest where
  uri : Option StringMatch
  scheme : Option StringMatch
  method : Option StringMatch
  authority : Option StringMatch
  headers : TextMap StringMatch
  port : Option Int64
  deriving DecidableEq

/-- Where requests go: a host, or the service that a reference names. -/
structure Destination where
  host : Option String
  subset : Option String
  port : Option Int64
  serviceName : Option String
  deriving DecidableEq

/-- A destination with its share of the requests. -/
structure WeightedDestination where
  destination : Destination
  weight : Option Int64
  deriving DecidableEq

/-- The parts of an address that a redirect or a rewrite sets. -/
structure AddressParts where
  uri : Option String
  authority : Option String
  deriving DecidableEq

/-- How often and how long a request is tried. -/
structure Retries where
  attempts : Int64
  perTryTimeout : Option String
  deriving DecidableEq

/-- A delay put in on purpose. -/
structure FaultDelay where
  percent : Option Int64
  fixedDelay : String
  deriving DecidableEq

/-- A failure put in on purpose. -/
structure FaultAbort where
  percent : Option Int64
  httpStatus : Int64
  deriving DecidableEq

/-- Faults put in on purpose. -/
structure FaultInjection where
  delay : Option FaultDelay
  abort : Option FaultAbort
  deriving DecidableEq

/-- Which other origins may use a host. -/
structure CorsPolicy where
  allowOrigin : List String
  allowMethods : List String
  allowHeaders : List String
  exposeHeaders : List String
  maxAge : Option String
  allowCredentials : Option Bool
  deriving DecidableEq

/-- A route for HTTP requests. -/
structure HttpRoute where
  conditions : List MatchRequest
  route : List WeightedDestination
  redirect : Option AddressParts
  rewrite : Option AddressParts
  timeout : Option String
  retries : Option Retries
  fault : Option FaultInjection
  mirror : Option Destination
  corsPolicy : Option CorsPolicy
  appendHeaders : TextMap String
  deriving DecidableEq

/-- A virtual service. -/
structure VirtualService where
  hosts : List String
  gateways : List String
  http : List HttpRoute
  deriving DecidableEq

end Manifests
