import Manifests.FieldPath
import Manifests.Spec.Gateway

/-! # Violations

The rules that a record may break, and where it breaks them. -/

namespace Manifests.Validation

/-- What a record lacks. -/
inductive Rule where
  /-- The name has a character that may stand in one. -/
  | named
  /-- A list, map or text is not empty. -/
  | notEmpty
  /-- A port is between 1 and 65535. -/
  | portRange (found : Int64)
  /-- A percentage is between 0 and 100. -/
  | percentRange (found : Int64)
  /-- A number is not negative. -/
  | notNegative
  /-- A field is present. -/
  | present
  /-- The mode of encryption comes with its material. -/
  | material (mode : TlsMode)
  /-- A route has destinations or a redirect. -/
  | routeOrRedirect
  /-- A route with destinations has no redirect. -/
  | notBoth
  /-- A redirect comes without a rewrite. -/
  | noRewrite
  /-- A destination has a host. -/
  | host
  /-- A target has a name. -/
  | targetName
  /-- The encryption of a route ends in one of the known ways. -/
  | termination (found : String)
  /-- A key comes with its certificate. -/
  | certificate (ending : String)
  /-- The `Source` strategy has an image to build from. -/
  | base
  deriving DecidableEq

/-- How the encryption of a route may end. -/
def terminations : List String := ["edge", "passthrough", "reencrypt"]

/-- The message for a broken rule. -/
def Rule.message : Rule → String
  | .named => "must contain at least one DNS-safe character after normalization"
  | .notEmpty => "must not be empty"
  | .portRange found => "port number must be between 1 and 65535, got " ++ Number.decimal found.toInt
  | .percentRange found => "must be between 0 and 100, got " ++ Number.decimal found.toInt
  | .notNegative => "must not be negative"
  | .present => "is required"
  | .material mode => "is required when TLS mode is " ++ mode.name
  | .routeOrRedirect => "one of 'route' or 'redirect' is required"
  | .notBoth => "'route' and 'redirect' are mutually exclusive"
  | .noRewrite => "cannot be combined with 'redirect'"
  | .host => "is required (declare 'host' or a resolvable 'serviceName')"
  | .targetName => "is required (declare 'name' or a resolvable 'serviceName')"
  | .termination found => "must be one of " ++ String.intercalate ", " terminations ++ ", got '" ++ found ++ "'"
  | .certificate ending => "is required with 'key' for " ++ ending ++ " termination"
  | .base => "is required for the Source strategy"

/-- A broken rule with the path of its field. -/
structure Violation where
  path : FieldPath
  rule : Rule
  deriving DecidableEq

/-! ### Checks -/

/-- A rule that holds, or else is broken at a path. -/
def check (path : FieldPath) (rule : Rule) (holds : Bool) : List Violation := if holds then [] else [⟨path, rule⟩]

/-- A number is a port. -/
def isPort (n : Int64) : Bool := 1 ≤ n.toInt && n.toInt ≤ 65535

/-- A number is a percentage. -/
def isPercent (n : Int64) : Bool := 0 ≤ n.toInt && n.toInt ≤ 100

/-- A number is a port, if it is there. -/
def checkPort (path : FieldPath) (n : Int64) : List Violation := check path (.portRange n) (isPort n)

/-- An absent value breaks no rule. -/
def checkOptional {α : Type} (value : Option α) (violations : α → List Violation) : List Violation :=
  match value with
  | some a => violations a
  | none => []

/-- The violations of the items of a list, the first of which has the index `i`. -/
def checkItemsFrom {α : Type} (path : FieldPath) (violations : FieldPath → α → List Violation) :
    Nat → List α → List Violation
  | _, [] => []
  | i, a :: items => violations (path.item i) a ++ checkItemsFrom path violations (i + 1) items

def checkItems {α : Type} (path : FieldPath) (items : List α) (violations : FieldPath → α → List Violation) :
    List Violation :=
  checkItemsFrom path violations 0 items

end Manifests.Validation
