import Manifests.Extraction.Fields
import Manifests.Spec.Workload

/-! # Reading services and deployments -/

namespace Manifests.Extraction

/-! ### Services -/

/-- A service's port while it is read. -/
structure ServicePortDraft where
  name : Option String
  port : Option Int64
  targetPort : Option Int64
  protocol : Option String

def servicePortFields : List (Field ServicePortDraft) :=
  [.of "name" readText fun t s => { s with name := some t },
   .of "port" readInt fun n s => { s with port := some n },
   .of "targetPort" readOptionalInt fun n s => { s with targetPort := n },
   .of "protocol" readText fun t s => { s with protocol := some t }]

def readServicePort : Reader ServicePort := fun path value => do
  let d ← readRecord servicePortFields ⟨none, none, none, none⟩ path value
  return ⟨d.name, ← required (path.field "port") d.port, d.targetPort, d.protocol⟩

/-- The fields of a service. Ports of a repeated field add up. -/
def serviceFields : List (Field Service) :=
  [.of "type" readText fun t s => { s with type := some t },
   .of "selector" readTextMap fun m s => { s with selector := m },
   .of "ports" (readItems readServicePort) fun xs s => { s with ports := s.ports ++ xs }]

def readService (entries : List Entry) : Result Service := readFields serviceFields [] entries ⟨none, {}, []⟩

/-! ### Deployments -/

/-- A container's port while it is read. -/
structure ContainerPortDraft where
  name : Option String
  containerPort : Option Int64
  protocol : Option String

def containerPortFields : List (Field ContainerPortDraft) :=
  [.of "name" readText fun t s => { s with name := some t },
   .of "containerPort" readInt fun n s => { s with containerPort := some n },
   .of "protocol" readText fun t s => { s with protocol := some t }]

def readContainerPort : Reader ContainerPort := fun path value => do
  let d ← readRecord containerPortFields ⟨none, none, none⟩ path value
  return ⟨d.name, ← required (path.field "containerPort") d.containerPort, d.protocol⟩

/-- A container while it is read. -/
structure ContainerDraft where
  name : Option String
  image : Option String
  imagePullPolicy : Option String
  ports : List ContainerPort
  env : TextMap String
  command : List String
  args : List String

/-- The fields of a container. Ports of a repeated field add up. -/
def containerFields : List (Field ContainerDraft) :=
  [.of "name" readText fun t s => { s with name := some t },
   .of "image" readText fun t s => { s with image := some t },
   .of "imagePullPolicy" readText fun t s => { s with imagePullPolicy := some t },
   .of "ports" (readItems readContainerPort) fun xs s => { s with ports := s.ports ++ xs },
   .of "env" readTextMap fun m s => { s with env := m },
   .of "command" readTexts fun ts s => { s with command := ts },
   .of "args" readTexts fun ts s => { s with args := ts }]

def readContainer : Reader Container := fun path value => do
  let d ← readRecord containerFields ⟨none, none, none, [], {}, [], []⟩ path value
  let name ← required (path.field "name") d.name
  let image ← required (path.field "image") d.image
  return ⟨name, image, d.imagePullPolicy, d.ports, d.env, d.command, d.args⟩

/-- The fields of a deployment. Containers of a repeated field add up. -/
def deploymentFields : List (Field Deployment) :=
  [.of "replicas" readInt fun n s => { s with replicas := some n },
   .of "selector" readTextMap fun m s => { s with selector := m },
   .of "containers" (readItems readContainer) fun xs s => { s with containers := s.containers ++ xs }]

def readDeployment (entries : List Entry) : Result Deployment :=
  readFields deploymentFields [] entries ⟨none, {}, []⟩

end Manifests.Extraction
