/-! # Build configurations

What a build is declared with: where its source is, how it is built, where the image goes, and what starts it. -/

namespace Manifests

/-- Where the source of a build is. -/
structure BuildSource where
  gitUri : String
  gitRef : Option String
  contextDir : Option String
  deriving DecidableEq

/-- How an image is built. -/
inductive StrategyType where
  | docker
  | source
  deriving DecidableEq

namespace StrategyType

def name : StrategyType → String
  | .docker => "Docker"
  | .source => "Source"

def ofName? (name : String) : Option StrategyType := [docker, source].find? (·.name = name)

theorem ofName?_name (type : StrategyType) : ofName? type.name = some type := by
  cases type <;> decide

end StrategyType

/-- A strategy with its parts. -/
structure BuildStrategy where
  type : StrategyType
  base : Option String
  dockerfilePath : Option String
  deriving DecidableEq

/-- A build configuration. -/
structure BuildConfig where
  source : Option BuildSource
  strategy : Option BuildStrategy
  output : Option String
  triggers : List String
  deriving DecidableEq

end Manifests
