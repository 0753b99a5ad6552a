import Manifests.Kind
import Manifests.Proofs.ByteOrder
import Manifests.Proofs.Lists
import Manifests.Value

/-! # The layout of manifests

What stands at each place of a manifest, as data: scalars, lists, tables with keys of the declarer's choice, and records
whose keys stand in one order, which depends on the kind of record alone. `Layout.Fits` says which values are laid out
like this, and `Kind.layout` is the layout of the manifests of a kind. In a value that fits a layout nothing is null or
empty. -/

namespace Manifests

/-- What stands at a place of a manifest. -/
inductive Layout where
  /-- A text, a number or a truth value. -/
  | scalar
  | list (item : Layout)
  /-- A mapping whose keys are chosen freely. -/
  | table (value : Layout)
  /-- A list of named texts. -/
  | environment
  /-- A mapping with some of the keys, in this order. -/
  | record (fields : List (String × Layout))

/-- Nothing in the value, at any depth, is null or an empty mapping or list. -/
inductive Value.Full : Value → Prop
  | scalar {v : Value} : v.scalarText?.isSome → Full v
  | map {entries : List Entry} : entries ≠ [] → (∀ e ∈ entries, Full e.2) → Full (.map entries)
  | list {items : List Value} : items ≠ [] → (∀ v ∈ items, Full v) → Full (.list items)

namespace Layout

/-! ### Values of a layout -/

/-- A value is laid out like this. Keys of the declarer's choice are in increasing order of their bytes, and so are the
    names of variables. -/
inductive Fits : Layout → Value → Prop
  | scalar {v : Value} : v.scalarText?.isSome → Fits .scalar v
  | list {item : Layout} {items : List Value} : items ≠ [] → (∀ v ∈ items, Fits item v) →
      Fits (.list item) (.list items)
  | table {value : Layout} {entries : List Entry} : entries ≠ [] → InByteOrder (entries.map (·.1)) →
      (∀ e ∈ entries, Fits value e.2) → Fits (.table value) (.map entries)
  | environment {vars : List (String × String)} : vars ≠ [] → InByteOrder (vars.map (·.1)) →
      Fits .environment (.list (vars.map fun var => .map [("name", .text var.1), ("value", .text var.2)]))
  | record {fields : List (String × Layout)} {entries : List Entry} : entries ≠ [] →
      (entries.map (·.1)).Sublist (fields.map (·.1)) →
      (∀ e ∈ entries, ∀ layout, fields.lookup e.1 = some layout → Fits layout e.2) →
      Fits (.record fields) (.map entries)

theorem Fits.full {layout : Layout} {v : Value} (h : layout.Fits v) : v.Full := by
  induction h with
  | scalar h => exact .scalar h
  | list hne _ ih => exact .list hne ih
  | table hne _ _ ih => exact .map hne ih
  | @environment vars hne _ =>
    have htext (text : String) : (Value.text text).Full := .scalar rfl
    refine .list (by simpa using hne) (List.forall_mem_map.mpr fun var _ => ?_)
    exact .map (List.cons_ne_nil _ _) (by simp [htext])
  | @record fields entries hne hkeys _ ih =>
    refine .map hne fun e he => ?_
    obtain ⟨layout, hlayout⟩ : ∃ layout, fields.lookup e.1 = some layout :=
      Option.isSome_iff_exists.mp (lookup_isSome_iff_mem.mpr (hkeys.subset (List.mem_map_of_mem he)))
    exact ih e he layout hlayout

/-! ### Gateways -/

/-- Texts under keys of the declarer's choice. -/
def texts : Layout := .table .scalar

def serverPort : List (String × Layout) := [("number", .scalar), ("protocol", .scalar), ("name", .scalar)]

def serverTls : List (String × Layout) :=
  [("httpsRedirect", .scalar), ("mode", .scalar), ("serverCertificate", .scalar), ("privateKey", .scalar),
   ("caCertificates", .scalar), ("subjectAltNames", .list .scalar)]

def server : List (String × Layout) :=
  [("port", .record serverPort), ("hosts", .list .scalar), ("tls", .record serverTls)]

def gateway : List (String × Layout) := [("selector", texts), ("servers", .list (.record server))]

/-! ### Virtual services -/

/-- A condition on a text. -/
def condition : List (String × Layout) := [("exact", .scalar), ("prefix", .scalar), ("regex", .scalar)]

def matchRequest : List (String × Layout) :=
  [("uri", .record condition), ("scheme", .record condition), ("method", .record condition),
   ("authority", .record condition), ("headers", .table (.record condition)), ("port", .scalar)]

def destination : List (String × Layout) :=
  [("host", .scalar), ("subset", .scalar), ("port", .record [("number", .scalar)])]

def weightedDestination : List (String × Layout) := [("destination", .record destination), ("weight", .scalar)]

/-- A redirect or a rewrite. -/
def addressParts : List (String × Layout) := [("uri", .scalar), ("authority", .scalar)]

def retries : List (String × Layout) := [("attempts", .scalar), ("perTryTimeout", .scalar)]

def faultDelay : List (String × Layout) := [("percent", .scalar), ("fixedDelay", .scalar)]

def faultAbort : List (String × Layout) := [("percent", .scalar), ("httpStatus", .scalar)]

def faultInjection : List (String × Layout) := [("delay", .record faultDelay), ("abort", .record faultAbort)]

def corsPolicy : List (String × Layout) :=
  [("allowOrigin", .list .scalar), ("allowMethods", .list .scalar), ("allowHeaders", .list .scalar),
   ("exposeHeaders", .list .scalar), ("maxAge", .scalar), ("allowCredentials", .scalar)]

def httpRoute : List (String × Layout) :=
  [("match", .list (.record matchRequest)), ("route", .list (.record weightedDestination)),
   ("redirect", .record addressParts), ("rewrite", .record addressParts), ("timeout", .scalar),
   ("retries", .record retries), ("fault", .record faultInjection), ("mirror", .record destination),
   ("corsPolicy", .record corsPolicy), ("appendHeaders", texts)]

def virtualService : List (String × Layout) :=
  [("hosts", .list .scalar), ("gateways", .list .scalar), ("http", .list (.record httpRoute))]

/-! ### Services and deployments -/

def servicePort : List (String × Layout) :=
  [("name", .scalar), ("port", .scalar), ("targetPort", .scalar), ("protocol", .scalar)]

def service : List (String × Layout) :=
  [("type", .scalar), ("selector", texts), ("ports", .list (.record servicePort))]

def containerPort : List (String × Layout) := [("containerPort", .scalar), ("name", .scalar), ("protocol", .scalar)]

def container : List (String × Layout) :=
  [("name", .scalar), ("image", .scalar), ("imagePullPolicy", .scalar), ("command", .list .scalar),
   ("args", .list .scalar), ("ports", .list (.record containerPort)), ("env", .environment)]

/-- The pods of a deployment. -/
def template : List (String × Layout) :=
  [("metadata", .record [("labels", texts)]), ("spec", .record [("containers", .list (.record container))])]

def deployment : List (String × Layout) :=
  [("replicas", .scalar), ("selector", .record [("matchLabels", texts)]), ("template", .record template)]

/-! ### Routes -/

def routeTarget : List (String × Layout) := [("kind", .scalar), ("name", .scalar), ("weight", .scalar)]

def routeTls : List (String × Layout) :=
  [("termination", .scalar), ("certificate", .scalar), ("key", .scalar), ("caCertificate", .scalar),
   ("insecureEdgeTerminationPolicy", .scalar)]

def route : List (String × Layout) :=
  [("host", .scalar), ("path", .scalar), ("to", .record routeTarget), ("port", .record [("targetPort", .scalar)]),
   ("tls", .record routeTls)]

/-! ### Build configurations -/

/-- An image by its kind and name. -/
def image : List (String × Layout) := [("kind", .scalar), ("name", .scalar)]

def buildSource : List (String × Layout) :=
  [("type", .scalar), ("git", .record [("uri", .scalar), ("ref", .scalar)]), ("contextDir", .scalar)]

/-- What a strategy says besides its type. -/
def strategyDetails : List (String × Layout) := [("from", .record image), ("dockerfilePath", .scalar)]

def buildStrategy : List (String × Layout) :=
  [("type", .scalar), ("dockerStrategy", .record strategyDetails), ("sourceStrategy", .record strategyDetails)]

def buildConfig : List (String × Layout) :=
  [("source", .record buildSource), ("strategy", .record buildStrategy), ("output", .record [("to", .record image)]),
   ("triggers", .list (.record [("type", .scalar)]))]

/-! ### Manifests -/

def metadata : List (String × Layout) :=
  [("name", .scalar), ("namespace", .scalar), ("labels", texts), ("annotations", texts)]

end Layout

/-- The layout of the specification of a kind. -/
def Kind.specLayout : Kind → List (String × Layout)
  | .gateway => Layout.gateway
  | .virtualService => Layout.virtualService
  | .service => Layout.service
  | .deployment => Layout.deployment
  | .route => Layout.route
  | .buildConfig => Layout.buildConfig

/-- The parts of the manifests of a kind. -/
def Kind.manifestLayout (kind : Kind) : List (String × Layout) :=
  [("apiVersion", .scalar), ("kind", .scalar), ("metadata", .record Layout.metadata), ("spec", .record kind.specLayout)]

/-- The layout of the manifests of a kind. -/
def Kind.layout (kind : Kind) : Layout := .record kind.manifestLayout

end Manifests
