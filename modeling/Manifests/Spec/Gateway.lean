import Manifests.TextMap

/-! # Gateways

What a gateway is declared with: the pods that carry it, and the servers it opens. -/

namespace Manifests

/-- How a server ends encrypted connections. -/
inductive TlsMode where
  | simple
  | mutual
  | passthrough
  | autoPassthrough
  | istioMutual
  deriving DecidableEq

namespace TlsMode

def all : List TlsMode := [.simple, .mutual, .passthrough, .autoPassthrough, .istioMutual]

def name : TlsMode → String
  | .simple => "SIMPLE"
  | .mutual => "MUTUAL"
  | .passthrough => "PASSTHROUGH"
  | .autoPassthrough => "AUTO_PASSTHROUGH"
  | .istioMutual => "ISTIO_MUTUAL"

def ofName? (name : String) : Option TlsMode := all.find? (·.name = name)

theorem ofName?_name (mode : TlsMode) : ofName? mode.name = some mode := by
  cases mode <;> decide

end TlsMode

/-- The encryption of a server. A redirect that is absent counts as `false`, and one that is declared is kept. -/
structure ServerTls where
  mode : TlsMode
  serverCertificate : Option String
  privateKey : Option String
  caCertificates : Option String
  subjectAltNames : List String
  httpsRedirect : Option Bool
  deriving DecidableEq

/-- The port of a server. -/
structure ServerPort where
  number : Int64
  protocol : String
  name : Option String
  deriving DecidableEq

/-- A server of a gateway. The hosts are distinct and in the order of their declaration. -/
structure Server where
  port : ServerPort
  hosts : List String
  tls : Option ServerTls
  deriving DecidableEq

/-- A gateway. -/
structure Gateway where
  selector : TextMap String
  servers : List Server
  deriving DecidableEq

end Manifests
