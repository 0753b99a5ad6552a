import Manifests.Extraction.Fields
import Manifests.Spec.BuildConfig

/-! # Reading build configurations -/

namespace Manifests.Extraction

/-! ### Sources -/

/-- A build's source while it is read. -/
structure BuildSourceDraft where
  gitUri : Option String
  gitRef : Option String
  contextDir : Option String

def gitFields : List (Field BuildSourceDraft) :=
  [.of "uri" readText fun t s => { s with gitUri := some t },
   .of "ref" readText fun t s => { s with gitRef := some t }]

/-- The fields of a build's source. The repository's fields go into the same record. -/
def buildSourceFields : List (Field BuildSourceDraft) :=
  [⟨"git", fun path value s => readRecord gitFields s path value⟩,
   .of "contextDir" readText fun t s => { s with contextDir := some t }]

def readBuildSource : Reader BuildSource := fun path value => do
  let d ← readRecord buildSourceFields ⟨none, none, none⟩ path value
  return ⟨← required ((path.field "git").field "uri") d.gitUri, d.gitRef, d.contextDir⟩

/-! ### Strategies -/

def readStrategyType : Reader StrategyType := fun path value => do
  let name ← readText path value
  match StrategyType.ofName? name with
  | some type => return type
  | none => throw ⟨path, .unknownStrategy name⟩

/-- A strategy while it is read. -/
structure BuildStrategyDraft where
  type : Option StrategyType
  base : Option String
  dockerfilePath : Option String

def buildStrategyFields : List (Field BuildStrategyDraft) :=
  [.of "type" readStrategyType fun t s => { s with type := some t },
   .of "from" readText fun t s => { s with base := some t },
   .of "dockerfilePath" readText fun t s => { s with dockerfilePath := some t }]

def readBuildStrategy : Reader BuildStrategy := fun path value => do
  let d ← readRecord buildStrategyFields ⟨none, none, none⟩ path value
  return ⟨← required (path.field "type") d.type, d.base, d.dockerfilePath⟩

/-! ### Build configurations -/

def outputFields : List (Field (Option String)) := [.of "to" readText fun t _ => some t]

def buildConfigFields : List (Field BuildConfig) :=
  [.of "source" readBuildSource fun b s => { s with source := some b },
   .of "strategy" readBuildStrategy fun b s => { s with strategy := some b },
   .of "output" (readRecord outputFields none) fun o s => { s with output := o },
   .of "triggers" readTextSet fun ts s => { s with triggers := ts }]

def readBuildConfig (entries : List Entry) : Result BuildConfig :=
  readFields buildConfigFields [] entries ⟨none, none, none, []⟩

end Manifests.Extraction
