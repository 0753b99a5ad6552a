import Manifests.Rendering.Entries
import Manifests.Spec.BuildConfig
import Manifests.Spec.Workload

/-! # Manifests of services, deployments and build configurations

The entries of each part in the order in which a manifest has them. -/

namespace Manifests

open Rendering

/-! ### Services -/

def ServicePort.render (p : ServicePort) : List Entry :=
  optionalText "name" p.name ++
    intEntry "port" p.port ++
    optionalInt "targetPort" p.targetPort ++
    optionalText "protocol" p.protocol

def Service.render (s : Service) : List Entry :=
  optionalText "type" s.type ++ textMap "selector" s.selector ++ mappings "ports" s.ports ServicePort.render

/-! ### Deployments -/

def ContainerPort.render (p : ContainerPort) : List Entry :=
  intEntry "containerPort" p.containerPort ++ optionalText "name" p.name ++ optionalText "protocol" p.protocol

/-- The entries of a variable of the environment. -/
def renderEnv (entry : String × String) : List Entry := textEntry "name" entry.1 ++ textEntry "value" entry.2

def Container.render (c : Container) : List Entry :=
  textEntry "name" c.name ++
    textEntry "image" c.image ++
    optionalText "imagePullPolicy" c.imagePullPolicy ++
    texts "command" c.command ++
    texts "args" c.args ++
    mappings "ports" c.ports ContainerPort.render ++
    mappings "env" c.env.entries renderEnv

/-- The entries of a deployment's pods, which carry the labels that it selects. -/
def Deployment.renderTemplate (d : Deployment) : List Entry :=
  mapping "metadata" (textMap "labels" d.selector) ++
    mapping "spec" (mappings "containers" d.containers Container.render)

def Deployment.render (d : Deployment) : List Entry :=
  optionalInt "replicas" d.replicas ++
    mapping "selector" (textMap "matchLabels" d.selector) ++
    mapping "template" d.renderTemplate

/-! ### Build configurations -/

def BuildSource.render (s : BuildSource) : List Entry :=
  textEntry "type" "Git" ++
    mapping "git" (textEntry "uri" s.gitUri ++ optionalText "ref" s.gitRef) ++
    optionalText "contextDir" s.contextDir

/-- The entries of the image that a build starts from. -/
def renderBase (image : String) : List Entry := textEntry "kind" "DockerImage" ++ textEntry "name" image

/-- The entries of a strategy. A strategy that builds from source has no file of its own. -/
def BuildStrategy.render (s : BuildStrategy) : List Entry :=
  let base := optionalMapping "from" s.base renderBase
  match s.type with
  | .docker =>
    textEntry "type" "Docker" ++
      mapping "dockerStrategy" (base ++ optionalText "dockerfilePath" s.dockerfilePath)
  | .source => textEntry "type" "Source" ++ mapping "sourceStrategy" base

/-- The entries of the image that a build goes to. -/
def renderOutput (image : String) : List Entry :=
  mapping "to" (textEntry "kind" "ImageStreamTag" ++ textEntry "name" image)

def BuildConfig.render (b : BuildConfig) : List Entry :=
  optionalMapping "source" b.source BuildSource.render ++
    optionalMapping "strategy" b.strategy BuildStrategy.render ++
    optionalMapping "output" b.output renderOutput ++
    mappings "triggers" b.triggers (textEntry "type")

end Manifests
