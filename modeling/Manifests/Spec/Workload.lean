import Manifests.TextMap

/-! # Services and deployments

What runs and under which address: a service names ports of the pods it selects, and a deployment describes the
pods. -/

namespace Manifests

/-- A port of a service. -/
structure ServicePort where
  name : Option String
  port : Int64
  targetPort : Option Int64
  protocol : Option String
  deriving DecidableEq

/-- A service. -/
structure Service where
  type : Option String
  selector : TextMap String
  ports : List ServicePort
  deriving DecidableEq

/-- A port that a container listens on. -/
structure ContainerPort where
  name : Option String
  containerPort : Int64
  protocol : Option String
  deriving DecidableEq

/-- A container. -/
structure Container where
  name : String
  image : String
  imagePullPolicy : Option String
  ports : List ContainerPort
  env : TextMap String
  command : List String
  args : List String
  deriving DecidableEq

/-- A deployment. -/
structure Deployment where
  replicas : Option Int64
  selector : TextMap String
  containers : List Container
  deriving DecidableEq

end Manifests
