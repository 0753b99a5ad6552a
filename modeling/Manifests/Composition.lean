import Manifests.Defaults
import Manifests.Extraction.Record
import Manifests.Failure
import Manifests.Manifest
import Manifests.Resolution

/-! # Composition

From declarations to manifests. First all declarations are read and enrolled, and then each record that was
enrolled is filled in, resolved, validated and rendered, so that a reference finds its service wherever that stands.
A resource that fails either ends the run or is left out. -/

namespace Manifests

/-! ### Runs -/

/-- What becomes of a run when a resource fails. -/
inductive FailurePolicy where
  | failFast
  | keepGoing
  deriving DecidableEq

namespace FailurePolicy

def name : FailurePolicy → String
  | .failFast => "fail-fast"
  | .keepGoing => "continue"

def ofName? (name : String) : Option FailurePolicy := [failFast, keepGoing].find? (·.name = name)

theorem ofName?_name (policy : FailurePolicy) : ofName? policy.name = some policy := by
  cases policy <;> decide

end FailurePolicy

/-- The settings of a run. -/
structure Options where
  failurePolicy : FailurePolicy
  defaultNamespace : Option String
  deriving DecidableEq

/-- A run ends at its first failure, and there is no default namespace. -/
def Options.default : Options := ⟨.failFast, none⟩

/-- A resource is done: the how-manieth it is, of how many, what it is called, and whether it was composed. -/
structure Progress where
  processed : Nat
  total : Nat
  resource : String
  ok : Bool
  deriving DecidableEq

/-- What a run gave, each list in the order in which it grew. -/
structure Report where
  manifests : List Manifest
  failures : List Failure
  progress : List Progress

/-- A run that ended at a failure. -/
structure Halt where
  failure : Failure
  progress : List Progress

namespace Report

/-- The report of a run that has not begun. -/
def empty : Report := ⟨[], [], []⟩

/-- No resource failed. -/
def isSuccess (r : Report) : Bool := r.failures.isEmpty

/-- The progress when one more resource is done. Each resource that is done makes one step, so the number of the next
    one is read off the steps: a counter would have the same number (`Books.compose_eq`). -/
def progressWith (r : Report) (total : Nat) (resource : String) (ok : Bool) : List Progress :=
  r.progress ++ [⟨r.progress.length + 1, total, resource, ok⟩]

/-- A resource was composed. -/
def succeed (r : Report) (total : Nat) (resource : String) (manifest : Manifest) : Report :=
  { r with manifests := r.manifests ++ [manifest], progress := r.progressWith total resource true }

/-- A resource failed, which ends the run or is reported. -/
def fail (policy : FailurePolicy) (r : Report) (total : Nat) (resource : String) (failure : Failure) :
    Except Halt Report :=
  let progress := r.progressWith total resource false
  match policy with
  | .failFast => .error ⟨failure, progress⟩
  | .keepGoing => .ok { r with failures := r.failures ++ [failure], progress }

end Report

/-! ### Enrolling -/

/-- The registered record of the kind with the name. -/
def Registry.named? (r : Registry) (kind : Kind) (name : String) : Option Record :=
  (r.entries.find? fun entry => entry.2.kind = kind && entry.2.name = name).map (·.2)

/-- The record of a declaration whose identifier and name no registered record of its kind has. The file and the
    identifier of the first one are read off its record: tables of them would have the same (`Books.compose_eq`). -/
def enroll (registry : Registry) (d : Declaration) : Except Failure Record := do
  let record ← d.extract.mapError (.defect d.kind d.label)
  match registry.lookup? d.kind record.id, registry.named? d.kind record.name with
  | some first, _ => throw (.duplicateIdentifier d.kind record.id first.provenance.file)
  | none, some first => throw (.nameCollision d.kind record.id record.name first.id)
  | none, none => return record

/-- Enrolls declarations one after the other. The records that were enrolled are given in order. -/
def enrollAll (policy : FailurePolicy) (total : Nat) :
    List Declaration → Registry → Report → Except Halt (List Record × Registry × Report)
  | [], registry, report => .ok ([], registry, report)
  | d :: ds, registry, report =>
    match enroll registry d with
    | .ok record => do
      let (records, registry, report) ← enrollAll policy total ds (registry.register record.id record) report
      return (record :: records, registry, report)
    | .error failure => do enrollAll policy total ds registry (← report.fail policy total d.label failure)

/-! ### Finishing -/

def finish (services : ServiceNames) (defaultNamespace : Option String) (r : Record) : Except Failure Manifest := do
  let resolved ← ((r.withDefaults defaultNamespace).resolve services).mapError (.unresolvedReference r.kind r.name)
  let valid ← resolved.validate.mapError (.violation r.kind resolved.subject)
  return .ofRecord valid

/-- Finishes records one after the other. -/
def finishAll (policy : FailurePolicy) (total : Nat) (services : ServiceNames) (defaultNamespace : Option String) :
    List Record → Report → Except Halt Report
  | [], report => .ok report
  | r :: rs, report =>
    match finish services defaultNamespace r with
    | .ok manifest =>
      finishAll policy total services defaultNamespace rs (report.succeed total r.name manifest)
    | .error failure => do
      finishAll policy total services defaultNamespace rs (← report.fail policy total r.name failure)

def compose (options : Options) (declarations : List Declaration) : Except Halt Report := do
  let total := declarations.length
  let (records, registry, report) ← enrollAll options.failurePolicy total declarations {} .empty
  finishAll options.failurePolicy total registry.serviceNames options.defaultNamespace records report

end Manifests
