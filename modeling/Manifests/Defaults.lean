import Manifests.Record

/-! # Defaults

What a record gets where its declaration leaves a gap: a server for a gateway without any, the host `*` for a
virtual service without hosts, the label `app` for a build configuration, and the namespace of the run. Nothing
that was declared changes. -/

namespace Manifests

/-- The server of a gateway without any: HTTP on port 80 for all hosts. -/
def Server.default : Server := ⟨⟨80, "HTTP", some "http"⟩, ["*"], none⟩

def Gateway.withDefaults (g : Gateway) : Gateway :=
  if g.servers.isEmpty then { g with servers := [Server.default] } else g

def VirtualService.withDefaults (v : VirtualService) : VirtualService :=
  if v.hosts.isEmpty then { v with hosts := ["*"] } else v

/-- A specification without gaps. -/
def Spec.withDefaults : Spec → Spec
  | .gateway g => .gateway g.withDefaults
  | .virtualService v => .virtualService v.withDefaults
  | other => other

namespace Record

/-- The labels of a record without gaps: a build configuration is labelled with its name. -/
def labelsWithDefaults (r : Record) : TextMap String :=
  match r.spec with
  | .buildConfig _ => if r.labels.contains "app" then r.labels else r.labels.insert "app" r.name
  | _ => r.labels

/-- A record without gaps, in the given namespace if it declares none. -/
def withDefaults (r : Record) (defaultNamespace : Option String) : Record :=
  { r with
    namespaceName := r.namespaceName <|> defaultNamespace
    labels := r.labelsWithDefaults
    spec := r.spec.withDefaults }

end Record

end Manifests
