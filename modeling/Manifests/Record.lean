import Manifests.Declaration
import Manifests.Spec.BuildConfig
import Manifests.Spec.Gateway
import Manifests.Spec.Route
import Manifests.Spec.VirtualService
import Manifests.Spec.Workload

/-! # Records

A declared resource with its fields read: what it is called, its labels and annotations, and what its kind
asks for. -/

namespace Manifests

/-- What a resource is declared with beyond its metadata, by kind. -/
inductive Spec where
  | gateway (g : Gateway)
  | virtualService (v : VirtualService)
  | service (s : Service)
  | deployment (d : Deployment)
  | route (r : Route)
  | buildConfig (b : BuildConfig)
  deriving DecidableEq

/-- The kind that a specification is for. -/
def Spec.kind : Spec → Kind
  | .gateway _ => .gateway
  | .virtualService _ => .virtualService
  | .service _ => .service
  | .deployment _ => .deployment
  | .route _ => .route
  | .buildConfig _ => .buildConfig

/-- A resource. The identifier is what references name, and the name is the canonical one. -/
structure Record where
  id : String
  name : String
  namespaceName : Option String
  labels : TextMap String
  annotations : TextMap String
  spec : Spec
  provenance : Provenance
  deriving DecidableEq

def Record.kind (r : Record) : Kind := r.spec.kind

end Manifests
