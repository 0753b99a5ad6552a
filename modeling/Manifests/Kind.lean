/-! # Kinds of resources

The kinds that can be declared, with the version of the interface each belongs to and the word its manifest's
file name starts with. -/

namespace Manifests

/-- The kind of a resource. -/
inductive Kind where
  | gateway
  | virtualService
  | service
  | deployment
  | route
  | buildConfig
  deriving DecidableEq

namespace Kind

/-- All kinds, in the order diagnostics list them. -/
def all : List Kind := [.gateway, .virtualService, .service, .deployment, .route, .buildConfig]

def name : Kind → String
  | .gateway => "Gateway"
  | .virtualService => "VirtualService"
  | .service => "Service"
  | .deployment => "Deployment"
  | .route => "Route"
  | .buildConfig => "BuildConfig"

def ofName? (name : String) : Option Kind := all.find? (·.name = name)

/-- The version of the interface that defines the kind. -/
def apiVersion : Kind → String
  | .gateway | .virtualService => "networking.istio.io/v1alpha3"
  | .service => "v1"
  | .deployment => "apps/v1"
  | .route => "route.openshift.io/v1"
  | .buildConfig => "build.openshift.io/v1"

/-- The word in front of the name in the file name of a manifest. -/
def fileWord : Kind → String
  | .gateway => "gateway"
  | .virtualService => "virtualservice"
  | .service => "service"
  | .deployment => "deployment"
  | .route => "route"
  | .buildConfig => "buildconfig"

def fileName (kind : Kind) (resource : String) : String := kind.fileWord ++ "-" ++ resource ++ ".yaml"

theorem ofName?_name (kind : Kind) : ofName? kind.name = some kind := by
  cases kind <;> decide

end Kind

end Manifests
