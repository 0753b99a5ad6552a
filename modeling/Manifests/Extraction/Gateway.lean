import Manifests.Extraction.Fields
import Manifests.Spec.Gateway

/-! # Reading gateways -/

namespace Manifests.Extraction

/-! ### Ports -/

/-- A server's port while it is read. -/
structure ServerPortDraft where
  number : Option Int64
  protocol : Option String
  name : Option String

def serverPortFields : List (Field ServerPortDraft) :=
  [.of "number" readInt fun n s => { s with number := some n },
   .of "protocol" readText fun t s => { s with protocol := some t },
   .of "name" readText fun t s => { s with name := some t }]

def readServerPort : Reader ServerPort := fun path value => do
  let d ← readRecord serverPortFields ⟨none, none, none⟩ path value
  let number ← required (path.field "number") d.number
  let protocol ← required (path.field "protocol") d.protocol
  return ⟨number, protocol, d.name⟩

/-! ### Encryption -/

def readTlsMode : Reader TlsMode := fun path value => do
  let name ← readText path value
  match TlsMode.ofName? name with
  | some mode => return mode
  | none => throw ⟨path, .unknownTlsMode name⟩

/-- A server's encryption while it is read. -/
structure ServerTlsDraft where
  mode : Option TlsMode
  serverCertificate : Option String
  privateKey : Option String
  caCertificates : Option String
  subjectAltNames : List String
  httpsRedirect : Option Bool

/-- The fields of a server's encryption. -/
def serverTlsFields : List (Field ServerTlsDraft) :=
  [.of "mode" readTlsMode fun m s => { s with mode := some m },
   .of "serverCertificate" readText fun t s => { s with serverCertificate := some t },
   .of "privateKey" readText fun t s => { s with privateKey := some t },
   .of "caCertificates" readText fun t s => { s with caCertificates := some t },
   .of "subjectAltNames" readTextSet fun ts s => { s with subjectAltNames := ts },
   .of "httpsRedirect" readBool fun b s => { s with httpsRedirect := some b }]

/-- A server's encryption. -/
def readServerTls : Reader ServerTls := fun path value => do
  let d ← readRecord serverTlsFields ⟨none, none, none, none, [], none⟩ path value
  let mode ← required (path.field "mode") d.mode
  return ⟨mode, d.serverCertificate, d.privateKey, d.caCertificates, d.subjectAltNames, d.httpsRedirect⟩

/-! ### Servers -/

/-- A server while it is read. -/
structure ServerDraft where
  port : Option ServerPort
  hosts : List String
  tls : Option ServerTls

def serverFields : List (Field ServerDraft) :=
  [.of "port" readServerPort fun p s => { s with port := some p },
   .of "hosts" readTextSet fun ts s => { s with hosts := ts },
   .of "tls" readServerTls fun t s => { s with tls := some t }]

def readServer : Reader Server := fun path value => do
  let d ← readRecord serverFields ⟨none, [], none⟩ path value
  return ⟨← required (path.field "port") d.port, d.hosts, d.tls⟩

/-- The fields of a gateway. Servers of a repeated field add up. -/
def gatewayFields : List (Field Gateway) :=
  [.of "selector" readTextMap fun m s => { s with selector := m },
   .of "servers" (readItems readServer) fun xs s => { s with servers := s.servers ++ xs }]

def readGateway (entries : List Entry) : Result Gateway := readFields gatewayFields [] entries ⟨{}, []⟩

end Manifests.Extraction
