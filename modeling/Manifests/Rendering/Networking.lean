import Manifests.Rendering.Entries
import Manifests.Spec.Gateway
import Manifests.Spec.Route
import Manifests.Spec.VirtualService

/-! # Manifests of gateways, virtual services and routes

The entries of each part in the order in which a manifest has them. -/

namespace Manifests

open Rendering

/-! ### Gateways -/

/-- The entries of a server's encryption. -/
def ServerTls.render (t : ServerTls) : List Entry :=
  optionalBool "httpsRedirect" t.httpsRedirect ++
    textEntry "mode" t.mode.name ++
    optionalText "serverCertificate" t.serverCertificate ++
    optionalText "privateKey" t.privateKey ++
    optionalText "caCertificates" t.caCertificates ++
    texts "subjectAltNames" t.subjectAltNames

def ServerPort.render (p : ServerPort) : List Entry :=
  intEntry "number" p.number ++ textEntry "protocol" p.protocol ++ optionalText "name" p.name

def Server.render (s : Server) : List Entry :=
  mapping "port" s.port.render ++ texts "hosts" s.hosts ++ optionalMapping "tls" s.tls ServerTls.render

def Gateway.render (g : Gateway) : List Entry :=
  textMap "selector" g.selector ++ mappings "servers" g.servers Server.render

/-! ### Virtual services -/

/-- The entry of a condition on a text. -/
def StringMatch.render : StringMatch → List Entry
  | .exact s => textEntry "exact" s
  | .start s => textEntry "prefix" s
  | .regex s => textEntry "regex" s

def MatchRequest.render (m : MatchRequest) : List Entry :=
  optionalMapping "uri" m.uri StringMatch.render ++
    optionalMapping "scheme" m.scheme StringMatch.render ++
    optionalMapping "method" m.method StringMatch.render ++
    optionalMapping "authority" m.authority StringMatch.render ++
    mapping "headers" (m.headers.entries.flatMap fun entry => mapping entry.1 entry.2.render) ++
    optionalInt "port" m.port

/-- The entries of a destination. Its reference is not among them. -/
def Destination.render (d : Destination) : List Entry :=
  optionalText "host" d.host ++
    optionalText "subset" d.subset ++
    optionalMapping "port" d.port (intEntry "number")

def WeightedDestination.render (w : WeightedDestination) : List Entry :=
  mapping "destination" w.destination.render ++ optionalInt "weight" w.weight

/-- The entries of a redirect or a rewrite. -/
def AddressParts.render (a : AddressParts) : List Entry :=
  optionalText "uri" a.uri ++ optionalText "authority" a.authority

def Retries.render (r : Retries) : List Entry :=
  intEntry "attempts" r.attempts ++ optionalText "perTryTimeout" r.perTryTimeout

def FaultDelay.render (d : FaultDelay) : List Entry :=
  optionalInt "percent" d.percent ++ textEntry "fixedDelay" d.fixedDelay

def FaultAbort.render (a : FaultAbort) : List Entry :=
  optionalInt "percent" a.percent ++ intEntry "httpStatus" a.httpStatus

def FaultInjection.render (f : FaultInjection) : List Entry :=
  optionalMapping "delay" f.delay FaultDelay.render ++ optionalMapping "abort" f.abort FaultAbort.render

/-- The entries of a policy for other origins. -/
def CorsPolicy.render (c : CorsPolicy) : List Entry :=
  texts "allowOrigin" c.allowOrigin ++
    texts "allowMethods" c.allowMethods ++
    texts "allowHeaders" c.allowHeaders ++
    texts "exposeHeaders" c.exposeHeaders ++
    optionalText "maxAge" c.maxAge ++
    optionalBool "allowCredentials" c.allowCredentials

def HttpRoute.render (h : HttpRoute) : List Entry :=
  mappings "match" h.conditions MatchRequest.render ++
    mappings "route" h.route WeightedDestination.render ++
    optionalMapping "redirect" h.redirect AddressParts.render ++
    optionalMapping "rewrite" h.rewrite AddressParts.render ++
    optionalText "timeout" h.timeout ++
    optionalMapping "retries" h.retries Retries.render ++
    optionalMapping "fault" h.fault FaultInjection.render ++
    optionalMapping "mirror" h.mirror Destination.render ++
    optionalMapping "corsPolicy" h.corsPolicy CorsPolicy.render ++
    textMap "appendHeaders" h.appendHeaders

def VirtualService.render (v : VirtualService) : List Entry :=
  texts "hosts" v.hosts ++ texts "gateways" v.gateways ++ mappings "http" v.http HttpRoute.render

/-! ### Routes -/

def RouteTarget.render (t : RouteTarget) : List Entry :=
  textEntry "kind" "Service" ++ optionalText "name" t.name ++ optionalInt "weight" t.weight

/-- The entry of a route's port. -/
def PortRef.render : PortRef → List Entry
  | .number n => intEntry "targetPort" n
  | .name s => textEntry "targetPort" s

/-- The entries of a route's encryption. -/
def RouteTls.render (t : RouteTls) : List Entry :=
  textEntry "termination" t.termination ++
    optionalText "certificate" t.certificate ++
    optionalText "key" t.key ++
    optionalText "caCertificate" t.caCertificate ++
    optionalText "insecureEdgeTerminationPolicy" t.insecureEdgeTerminationPolicy

def Route.render (r : Route) : List Entry :=
  optionalText "host" r.host ++
    optionalText "path" r.path ++
    optionalMapping "to" r.target RouteTarget.render ++
    optionalMapping "port" r.targetPort PortRef.render ++
    optionalMapping "tls" r.tls RouteTls.render

end Manifests
