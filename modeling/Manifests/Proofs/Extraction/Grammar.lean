import Manifests.Declaration
import Manifests.Proofs.Integer
import Manifests.Proofs.Lists
import Manifests.Proofs.Value

/-! # The grammar of declarations

What the fields of a declaration may hold, as data: scalars, lists, tables with keys of the declarer's choice, and
records with a closed set of fields, some of which are needed. `Grammar.Conforms` says which values a grammar is for,
and `Kind.grammar` is that of the declarations of a kind. -/

namespace Manifests

/-- What a field may hold. -/
inductive Grammar where
  /-- A scalar of any type, which counts as its text. -/
  | text
  /-- An integer, or a text that writes one. -/
  | integer
  /-- A truth value. -/
  | truth
  /-- A scalar whose text is one of the words. -/
  | word (words : List String)
  | list (item : Grammar)
  /-- A mapping whose keys are chosen freely, and whose values may be null or not. -/
  | table (value : Grammar) (nulls : Bool)
  /-- A mapping that gives a text for exactly one of the keys. -/
  | choice (keys : List String)
  /-- A mapping with some of the fields, among them what the paths of keys lead to. -/
  | record (fields : List (String × Grammar)) (needed : List (List String))
  /-- An integer, or a value of the other grammar. -/
  | orInteger (other : Grammar)

namespace Grammar

/-! ### Values of a grammar -/

/-- Along the keys there is a value other than null. -/
def Provides (entries : List Entry) : List String → Prop
  | [] => True
  | key :: keys => ∃ v, (key, v) ∈ entries ∧ v ≠ .null ∧ Provides v.entries keys

/-- A value is one of the grammar. -/
inductive Conforms : Grammar → Value → Prop
  | bool (b : Bool) : Conforms .text (.bool b)
  | int (i : Int64) : Conforms .text (.int i)
  | float (x : Binary64) : Conforms .text (.float x)
  | text (s : String) : Conforms .text (.text s)
  | integer (i : Int64) : Conforms .integer (.int i)
  /-- The text is that of a 64-bit number between blanks. -/
  | integerText {s : String} {inner : List Char} : Text.Pads s.toList inner → Number.IsInt64 inner →
      Conforms .integer (.text s)
  | truth (b : Bool) : Conforms .truth (.bool b)
  | word {words : List String} {v : Value} {s : String} : v.scalarText? = some s → s ∈ words →
      Conforms (.word words) v
  /-- No item is null, unless that is one of the grammar. -/
  | list {item : Grammar} {items : List Value} : (∀ v ∈ items, Conforms item v) → Conforms (.list item) (.list items)
  | table {value : Grammar} {nulls : Bool} {entries : List Entry} :
      (∀ e ∈ entries, e.2 = .null → nulls = true) → (∀ e ∈ entries, e.2 ≠ .null → Conforms value e.2) →
      Conforms (.table value nulls) (.map entries)
  | choice {keys : List String} {entries : List Entry} {chosen : Entry} : (∀ e ∈ entries, e.1 ∈ keys) →
      entries.filter (!·.2.isNull) = [chosen] → Conforms .text chosen.2 → Conforms (.choice keys) (.map entries)
  /-- Every key is that of a field, also if its value is null, and every other value is as its field asks for. -/
  | record {fields : List (String × Grammar)} {needed : List (List String)} {entries : List Entry} :
      (∀ e ∈ entries, e.1 ∈ fields.map (·.1)) →
      (∀ e ∈ entries, e.2 ≠ .null → ∀ g, fields.lookup e.1 = some g → Conforms g e.2) →
      (∀ keys ∈ needed, Provides entries keys) → Conforms (.record fields needed) (.map entries)
  | number {other : Grammar} {v : Value} : Conforms .integer v → Conforms (.orInteger other) v
  | other {other : Grammar} {v : Value} : Conforms other v → Conforms (.orInteger other) v

/-! ### Leaving null values out -/

/-- What the grammar of a mapping asks for under a key, if the key is one of its own. -/
def field? : Grammar → String → Option Grammar
  | .record fields _, key => fields.lookup key
  | .table value _, _ => some value
  | .choice keys, key => if key ∈ keys then some .text else none
  | _, _ => none

theorem field?_choice_eq_some {keys : List String} {key : String} {g : Grammar}
    (h : (Grammar.choice keys).field? key = some g) : key ∈ keys ∧ g = .text := by
  rw [field?] at h
  split at h
  · exact ⟨‹_›, (Option.some.inj h).symm⟩
  · cases h

/-- A mapping of the grammar may have null values. -/
def TakesNull : Grammar → Prop
  | .table _ nulls => nulls = true
  | _ => True

/-- One null value is left out, with its key, of a mapping at any depth. The key is one of the mapping's grammar, which
    has the property `P`. -/
inductive Omits (P : Grammar → Prop) : Grammar → Value → Value → Prop
  | entry {g : Grammar} {key : String} {before after : List Entry} : P g → (g.field? key).isSome →
      Omits P g (.map (before ++ (key, .null) :: after)) (.map (before ++ after))
  | inside {g inner : Grammar} {key : String} {v v' : Value} {before after : List Entry} :
      g.field? key = some inner → Omits P inner v v' →
      Omits P g (.map (before ++ (key, v) :: after)) (.map (before ++ (key, v') :: after))
  | item {g : Grammar} {v v' : Value} {before after : List Value} : Omits P g v v' →
      Omits P (.list g) (.list (before ++ v :: after)) (.list (before ++ v' :: after))
  | other {other : Grammar} {v v' : Value} : Omits P other v v' → Omits P (.orInteger other) v v'

theorem conforms_text_iff {v : Value} : Conforms .text v ↔ v.scalarText?.isSome := by
  constructor
  · intro h
    cases h <;> rfl
  · intro h
    cases v with
    | bool b => exact .bool b
    | int i => exact .int i
    | float x => exact .float x
    | text s => exact .text s
    | null | map | list => cases h

/-- The values of the grammar have no parts. -/
def IsScalar : Grammar → Prop
  | .text | .integer | .truth | .word _ => True
  | _ => False

theorem not_omits_of_isScalar {P : Grammar → Prop} {g : Grammar} {v v' : Value} (hg : g.IsScalar) :
    ¬ g.Omits P v v' := by
  have hfield : ∀ key, g.field? key = none := fun key => by
    cases g with
    | text | integer | truth | word => rfl
    | list | table | choice | record | orInteger => exact hg.elim
  intro h
  cases h with
  | entry _ hkey => simp [hfield] at hkey
  | inside hkey _ => simp [hfield] at hkey
  | item _ => exact hg
  | other _ => exact hg

/-- What null values can be left out of is no scalar. -/
theorem Omits.scalarText?_eq_none {P : Grammar → Prop} {g : Grammar} {v v' : Value} (h : g.Omits P v v') :
    v.scalarText? = none ∧ v'.scalarText? = none := by
  induction h with
  | entry | inside | item => exact ⟨rfl, rfl⟩
  | other _ ih => exact ih

theorem Omits.ne_null {P : Grammar → Prop} {g : Grammar} {v v' : Value} (h : g.Omits P v v') :
    v ≠ .null ∧ v' ≠ .null := by
  induction h with
  | entry | inside | item => exact ⟨nofun, nofun⟩
  | other _ ih => exact ih

theorem Omits.of_record {P : Grammar → Prop} {fields : List (String × Grammar)} {needed : List (List String)}
    {v v' : Value} (h : (Grammar.record fields needed).Omits P v v') :
    ∃ entries entries', v = .map entries ∧ v' = .map entries' := by
  cases h with
  | entry | inside => exact ⟨_, _, rfl, rfl⟩

/-! ### Records entry by entry -/

theorem conforms_record_iff {fields : List (String × Grammar)} {entries : List Entry} :
    (Grammar.record fields []).Conforms (.map entries) ↔
      ∀ e ∈ entries, ∃ g, fields.lookup e.1 = some g ∧ (e.2 ≠ .null → g.Conforms e.2) := by
  constructor
  · intro h e he
    cases h with
    | record hkeys hvalues _ =>
      obtain ⟨g, hg⟩ := Option.isSome_iff_exists.mp (lookup_isSome_iff_mem.mpr (hkeys e he))
      exact ⟨g, hg, fun hne => hvalues e he hne g hg⟩
  · intro h
    refine .record (fun e he => ?_) (fun e he hne g hg => ?_) nofun
    · obtain ⟨g, hg, -⟩ := h e he
      exact lookup_isSome_iff_mem.mp (Option.isSome_of_eq_some hg)
    · obtain ⟨g', hg', hvalue⟩ := h e he
      obtain rfl := Option.some.inj (hg.symm.trans hg')
      exact hvalue hne

section
variable {gs gs' : List (String × Grammar)} {own : Entry → Bool}

/-- A key that is one of the first fields is looked up among these, and any other among the second ones. -/
theorem lookup_append_of_own (hown : ∀ e, own e = true ↔ (gs.lookup e.1).isSome) (e : Entry) :
    (gs ++ gs').lookup e.1 = if own e then gs.lookup e.1 else gs'.lookup e.1 := by
  rw [List.lookup_append]
  cases h : own e with
  | true =>
    obtain ⟨g, hg⟩ := Option.isSome_iff_exists.mp ((hown e).mp h)
    rw [hg, if_pos rfl, Option.some_or]
  | false =>
    have hnone : gs.lookup e.1 = none := by
      rw [← Option.not_isSome_iff_eq_none, ← hown e, h]
      exact Bool.false_ne_true
    rw [hnone, if_neg Bool.false_ne_true, Option.none_or]

/-- A record with more fields is two records, one with the first fields and one with the others. -/
theorem conforms_record_append (hown : ∀ e, own e = true ↔ (gs.lookup e.1).isSome) {entries : List Entry} :
    (Grammar.record (gs ++ gs') []).Conforms (.map entries) ↔
      (Grammar.record gs []).Conforms (.map (entries.filter own)) ∧
        (Grammar.record gs' []).Conforms (.map (entries.filter fun e => !own e)) := by
  simp only [conforms_record_iff, List.forall_mem_filter, lookup_append_of_own hown]
  constructor
  · intro h
    refine ⟨fun e he hthis => ?_, fun e he hother => ?_⟩
    · simpa only [hthis, if_true] using h e he
    · rw [Bool.not_eq_true'] at hother
      simpa only [hother, Bool.false_eq_true, if_false] using h e he
  · rintro ⟨hfirst, hsecond⟩ e he
    cases hthis : own e with
    | true => simpa only [if_true] using hfirst e he hthis
    | false =>
      simpa only [Bool.false_eq_true, if_false] using hsecond e he (by rw [hthis, Bool.not_false])

end

/-! ### Parts of several kinds -/

/-- A table of texts, where a null value counts as none. -/
def texts : Grammar := .table .text true

/-- A condition on a text, in one of three forms. -/
def condition : Grammar := .choice ["exact", "prefix", "regex"]

/-- The fields that all kinds have. -/
def metadata : List (String × Grammar) :=
  [("name", .text), ("namespace", .text), ("labels", texts), ("annotations", texts)]

/-! ### Gateways -/

def serverPort : Grammar :=
  .record [("number", .integer), ("protocol", .text), ("name", .text)] [["number"], ["protocol"]]

def serverTls : Grammar :=
  .record
    [("mode", .word ["SIMPLE", "MUTUAL", "PASSTHROUGH", "AUTO_PASSTHROUGH", "ISTIO_MUTUAL"]),
     ("serverCertificate", .text), ("privateKey", .text), ("caCertificates", .text),
     ("subjectAltNames", .list .text), ("httpsRedirect", .truth)]
    [["mode"]]

def server : Grammar := .record [("port", serverPort), ("hosts", .list .text), ("tls", serverTls)] [["port"]]

def gateway : List (String × Grammar) := [("selector", texts), ("servers", .list server)]

/-! ### Virtual services -/

def matchRequest : Grammar :=
  .record
    [("uri", condition), ("scheme", condition), ("method", condition), ("authority", condition),
     ("headers", .table condition false), ("port", .integer)]
    []

/-- A destination's port: a number, or a mapping with the number. -/
def destinationPort : Grammar := .orInteger (.record [("number", .integer)] [])

def destination : Grammar :=
  .record [("host", .text), ("subset", .text), ("port", destinationPort), ("serviceName", .text)] []

def weightedDestination : Grammar :=
  .record [("destination", destination), ("weight", .integer)] [["destination"]]

/-- A redirect or a rewrite. -/
def addressParts : Grammar := .record [("uri", .text), ("authority", .text)] []

def retries : Grammar := .record [("attempts", .integer), ("perTryTimeout", .text)] [["attempts"]]

def faultInjection : Grammar :=
  .record
    [("delay", .record [("percent", .integer), ("fixedDelay", .text)] [["fixedDelay"]]),
     ("abort", .record [("percent", .integer), ("httpStatus", .integer)] [["httpStatus"]])]
    []

def corsPolicy : Grammar :=
  .record
    [("allowOrigin", .list .text), ("allowMethods", .list .text), ("allowHeaders", .list .text),
     ("exposeHeaders", .list .text), ("maxAge", .text), ("allowCredentials", .truth)]
    []

def httpRoute : Grammar :=
  .record
    [("match", .list matchRequest), ("route", .list weightedDestination), ("redirect", addressParts),
     ("rewrite", addressParts), ("timeout", .text), ("retries", retries), ("fault", faultInjection),
     ("mirror", destination), ("corsPolicy", corsPolicy), ("appendHeaders", texts)]
    []

def virtualService : List (String × Grammar) :=
  [("hosts", .list .text), ("gateways", .list .text), ("http", .list httpRoute)]

/-! ### Services and deployments -/

def servicePort : Grammar :=
  .record [("name", .text), ("port", .integer), ("targetPort", .integer), ("protocol", .text)] [["port"]]

def service : List (String × Grammar) := [("type", .text), ("selector", texts), ("ports", .list servicePort)]

def containerPort : Grammar :=
  .record [("name", .text), ("containerPort", .integer), ("protocol", .text)] [["containerPort"]]

def container : Grammar :=
  .record
    [("name", .text), ("image", .text), ("imagePullPolicy", .text), ("ports", .list containerPort), ("env", texts),
     ("command", .list .text), ("args", .list .text)]
    [["name"], ["image"]]

def deployment : List (String × Grammar) :=
  [("replicas", .integer), ("selector", texts), ("containers", .list container)]

/-! ### Routes -/

def routeTarget : Grammar := .record [("name", .text), ("serviceName", .text), ("weight", .integer)] []

def routeTls : Grammar :=
  .record
    [("termination", .text), ("certificate", .text), ("key", .text), ("caCertificate", .text),
     ("insecureEdgeTerminationPolicy", .text)]
    [["termination"]]

def route : List (String × Grammar) :=
  [("host", .text), ("path", .text), ("to", routeTarget), ("targetPort", .text), ("tls", routeTls)]

/-! ### Build configurations -/

/-- The source of a build. It needs the address of a repository. -/
def buildSource : Grammar :=
  .record [("git", .record [("uri", .text), ("ref", .text)] []), ("contextDir", .text)] [["git", "uri"]]

def buildStrategy : Grammar :=
  .record [("type", .word ["Docker", "Source"]), ("from", .text), ("dockerfilePath", .text)] [["type"]]

def buildConfig : List (String × Grammar) :=
  [("source", buildSource), ("strategy", buildStrategy), ("output", .record [("to", .text)] []),
   ("triggers", .list .text)]

end Grammar

/-! ### Declarations -/

/-- The fields that declarations of a kind have besides those of all kinds. -/
def Kind.fields : Kind → List (String × Grammar)
  | .gateway => Grammar.gateway
  | .virtualService => Grammar.virtualService
  | .service => Grammar.service
  | .deployment => Grammar.deployment
  | .route => Grammar.route
  | .buildConfig => Grammar.buildConfig

/-- The entries of a declaration of a kind. -/
def Kind.grammar (kind : Kind) : Grammar := .record (Grammar.metadata ++ kind.fields) []

/-- A declaration is one of the grammar of a kind, and it has a name or an identifier. -/
structure Declaration.Conforms (d : Declaration) (kind : Kind) : Prop where
  named : d.id.isSome ∨ Grammar.Provides d.entries ["name"]
  entries : kind.grammar.Conforms (.map d.entries)

/-- One null value is left out of a declaration, read as one of a kind. -/
def Declaration.Omits (P : Grammar → Prop) (kind : Kind) (d d' : Declaration) : Prop :=
  ∃ entries, kind.grammar.Omits P (.map d.entries) (.map entries) ∧ d' = { d with entries }

end Manifests
