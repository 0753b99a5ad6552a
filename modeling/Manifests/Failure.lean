import Manifests.Diagnostic
import Manifests.Extraction.Defect
import Manifests.Kind
import Manifests.Loading
import Manifests.Validation.Violation

/-! # Failures of resources

Why a resource is not composed, and the diagnostic that reports it. -/

namespace Manifests

/-- Why a resource is not composed. -/
inductive Failure where
  /-- The declaration cannot be read. -/
  | defect (kind : Kind) (resource : String) (defect : Extraction.Defect)
  /-- Another resource of the kind has the identifier. -/
  | duplicateIdentifier (kind : Kind) (id : String) (firstFile : String)
  /-- Another resource of the kind has the name. -/
  | nameCollision (kind : Kind) (id : String) (name : String) (firstId : String)
  /-- A reference names no service. -/
  | unresolvedReference (kind : Kind) (resource : String) (service : String)
  /-- The record breaks a rule. -/
  | violation (kind : Kind) (resource : String) (violation : Validation.Violation)
  deriving DecidableEq

def Failure.diagnostic : Failure → Diagnostic
  | .defect kind resource ⟨path, .unrecognized⟩ => .unrecognizedField kind.name resource path.text
  | .defect kind resource ⟨path, fault⟩ => .declaration kind.name resource path.text fault.message
  | .duplicateIdentifier kind id firstFile => .duplicateIdentifier kind.name id firstFile
  | .nameCollision kind id name firstId => .nameCollision kind.name id name firstId
  | .unresolvedReference kind resource service => .reference kind.name resource service
  | .violation kind resource v => .validation kind.name resource v.path.text v.rule.message

/-- The stage in which a resource fails. -/
def Failure.stage (f : Failure) : Stage := f.diagnostic.stage

/-- The diagnostic of a file that cannot be loaded. -/
def LoadFailure.diagnostic (f : LoadFailure) : Diagnostic := .load f.file f.cause.message

end Manifests
