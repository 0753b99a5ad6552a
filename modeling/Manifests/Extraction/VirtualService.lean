import Manifests.Extraction.Fields
import Manifests.Spec.VirtualService

/-! # Reading virtual services -/

namespace Manifests.Extraction

/-! ### Conditions -/

def conditionForms : List (String × (String → StringMatch)) :=
  [("exact", .exact), ("prefix", .start), ("regex", .regex)]

/-- A condition on a text, in one form. -/
def readStringMatch : Reader StringMatch := fun path value => do
  match ← classify (fun key => conditionForms.lookup key) path (← readMapping path value) with
  | [(form, path, value)] => return form (← readText path value)
  | _ => throw ⟨path, .notOneCondition⟩

/-- Adds the entries of a mapping with conditions to a map. -/
def readHeaderEntries (path : FieldPath) : List Entry → TextMap StringMatch → Result (TextMap StringMatch)
  | [], m => .ok m
  | (key, value) :: entries, m => do
    readHeaderEntries path entries (m.insert key (← readStringMatch (path.field key) value))

def readHeaders (path : FieldPath) (value : Value) (m : TextMap StringMatch) : Result (TextMap StringMatch) := do
  readHeaderEntries path (← readMapping path value) m

/-- The fields of a condition on a request. Headers of a repeated field add up. -/
def matchRequestFields : List (Field MatchRequest) :=
  [.of "uri" readStringMatch fun m s => { s with uri := some m },
   .of "scheme" readStringMatch fun m s => { s with scheme := some m },
   .of "method" readStringMatch fun m s => { s with method := some m },
   .of "authority" readStringMatch fun m s => { s with authority := some m },
   ⟨"headers", fun path value s => do return { s with headers := ← readHeaders path value s.headers }⟩,
   .of "port" readOptionalInt fun n s => { s with port := n }]

def readMatchRequest : Reader MatchRequest := readRecord matchRequestFields ⟨none, none, none, none, {}, none⟩

/-! ### Destinations -/

/-- The fields of a port given as a mapping. -/
def portSelectorFields : List (Field (Option Int64)) := [.of "number" readOptionalInt fun n _ => n]

/-- A destination's port: a number, or a mapping with the number. -/
def readDestinationPort : Reader (Option Int64) := fun path value =>
  match value with
  | .map entries => readFields portSelectorFields path entries none
  | other => readOptionalInt path other

def destinationFields : List (Field Destination) :=
  [.of "host" readText fun t s => { s with host := some t },
   .of "subset" readText fun t s => { s with subset := some t },
   .of "port" readDestinationPort fun n s => { s with port := n },
   .of "serviceName" readText fun t s => { s with serviceName := some t }]

def readDestination : Reader Destination := readRecord destinationFields ⟨none, none, none, none⟩

/-- A weighted destination while it is read. -/
structure WeightedDestinationDraft where
  destination : Option Destination
  weight : Option Int64

def weightedDestinationFields : List (Field WeightedDestinationDraft) :=
  [.of "destination" readDestination fun d s => { s with destination := some d },
   .of "weight" readOptionalInt fun n s => { s with weight := n }]

def readWeightedDestination : Reader WeightedDestination := fun path value => do
  let d ← readRecord weightedDestinationFields ⟨none, none⟩ path value
  return ⟨← required (path.field "destination") d.destination, d.weight⟩

/-! ### Parts of a route -/

/-- The fields of a redirect or a rewrite. -/
def addressPartsFields : List (Field AddressParts) :=
  [.of "uri" readText fun t s => { s with uri := some t },
   .of "authority" readText fun t s => { s with authority := some t }]

/-- A redirect or a rewrite. -/
def readAddressParts : Reader AddressParts := readRecord addressPartsFields ⟨none, none⟩

/-- Retries while they are read. -/
structure RetriesDraft where
  attempts : Option Int64
  perTryTimeout : Option String

def retriesFields : List (Field RetriesDraft) :=
  [.of "attempts" readInt fun n s => { s with attempts := some n },
   .of "perTryTimeout" readText fun t s => { s with perTryTimeout := some t }]

def readRetries : Reader Retries := fun path value => do
  let d ← readRecord retriesFields ⟨none, none⟩ path value
  return ⟨← required (path.field "attempts") d.attempts, d.perTryTimeout⟩

/-- A delay while it is read. -/
structure FaultDelayDraft where
  percent : Option Int64
  fixedDelay : Option String

def faultDelayFields : List (Field FaultDelayDraft) :=
  [.of "percent" readOptionalInt fun n s => { s with percent := n },
   .of "fixedDelay" readText fun t s => { s with fixedDelay := some t }]

def readFaultDelay : Reader FaultDelay := fun path value => do
  let d ← readRecord faultDelayFields ⟨none, none⟩ path value
  return ⟨d.percent, ← required (path.field "fixedDelay") d.fixedDelay⟩

/-- An abort while it is read. -/
structure FaultAbortDraft where
  percent : Option Int64
  httpStatus : Option Int64

def faultAbortFields : List (Field FaultAbortDraft) :=
  [.of "percent" readOptionalInt fun n s => { s with percent := n },
   .of "httpStatus" readInt fun n s => { s with httpStatus := some n }]

def readFaultAbort : Reader FaultAbort := fun path value => do
  let d ← readRecord faultAbortFields ⟨none, none⟩ path value
  return ⟨d.percent, ← required (path.field "httpStatus") d.httpStatus⟩

def faultInjectionFields : List (Field FaultInjection) :=
  [.of "delay" readFaultDelay fun d s => { s with delay := some d },
   .of "abort" readFaultAbort fun a s => { s with abort := some a }]

def readFaultInjection : Reader FaultInjection := readRecord faultInjectionFields ⟨none, none⟩

/-- The fields of a policy for other origins. -/
def corsPolicyFields : List (Field CorsPolicy) :=
  [.of "allowOrigin" readTexts fun ts s => { s with allowOrigin := ts },
   .of "allowMethods" readTexts fun ts s => { s with allowMethods := ts },
   .of "allowHeaders" readTexts fun ts s => { s with allowHeaders := ts },
   .of "exposeHeaders" readTexts fun ts s => { s with exposeHeaders := ts },
   .of "maxAge" readText fun t s => { s with maxAge := some t },
   .of "allowCredentials" readBool fun b s => { s with allowCredentials := some b }]

/-- A policy for other origins. -/
def readCorsPolicy : Reader CorsPolicy := readRecord corsPolicyFields ⟨[], [], [], [], none, none⟩

/-! ### Routes -/

/-- The fields of a route for HTTP requests. Conditions and destinations of a repeated field add up. -/
def httpRouteFields : List (Field HttpRoute) :=
  [.of "match" (readItems readMatchRequest) fun xs s => { s with conditions := s.conditions ++ xs },
   .of "route" (readItems readWeightedDestination) fun xs s => { s with route := s.route ++ xs },
   .of "redirect" readAddressParts fun a s => { s with redirect := some a },
   .of "rewrite" readAddressParts fun a s => { s with rewrite := some a },
   .of "timeout" readText fun t s => { s with timeout := some t },
   .of "retries" readRetries fun r s => { s with retries := some r },
   .of "fault" readFaultInjection fun f s => { s with fault := some f },
   .of "mirror" readDestination fun d s => { s with mirror := some d },
   .of "corsPolicy" readCorsPolicy fun c s => { s with corsPolicy := some c },
   .of "appendHeaders" readTextMap fun m s => { s with appendHeaders := m }]

def readHttpRoute : Reader HttpRoute :=
  readRecord httpRouteFields ⟨[], [], none, none, none, none, none, none, none, {}⟩

/-- The fields of a virtual service. Routes of a repeated field add up. -/
def virtualServiceFields : List (Field VirtualService) :=
  [.of "hosts" readTextSet fun ts s => { s with hosts := ts },
   .of "gateways" readTextSet fun ts s => { s with gateways := ts },
   .of "http" (readItems readHttpRoute) fun xs s => { s with http := s.http ++ xs }]

def readVirtualService (entries : List Entry) : Result VirtualService :=
  readFields virtualServiceFields [] entries ⟨[], [], []⟩

end Manifests.Extraction
