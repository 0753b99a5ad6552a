import Manifests.Composition

/-! # Settings

The settings of a project, from a tree of values: the section `compose` with the settings of a run, and the section
`output` with the directory that manifests go to. Every setting may be left out and no other key is allowed. A
section may also be a list of its settings in their order. -/

namespace Manifests

/-- The values of the keys of a section, which has no other keys. -/
def sectionValues? (keys : List String) : Value → Option (List (Option Value))
  | .map entries =>
    if entries.all fun entry => keys.contains entry.1 then some (keys.map fun key => entries.lookup key) else none
  | .list items =>
    if items.length ≤ keys.length then some (items.map some ++ List.replicate (keys.length - items.length) none)
    else none
  | _ => none

/-- A value that stands for nothing more. -/
def isUnit : Value → Bool
  | .null | .map [] | .list [] => true
  | _ => false

/-- A policy: its name, or an entry of that name with nothing in it. -/
def FailurePolicy.ofValue? : Value → Option FailurePolicy
  | .text name => ofName? name
  | .map [(name, value)] => if isUnit value then ofName? name else none
  | _ => none

/-- A text that may be null. -/
def optionalText? : Value → Option (Option String)
  | .null => some none
  | .text s => some (some s)
  | _ => none

/-- A setting, or its default if it is left out. -/
def settingOr? {α : Type} (default : α) (read : Value → Option α) : Option Value → Option α
  | some value => read value
  | none => some default

/-- The settings of a run. -/
def Options.ofValue? (value : Value) : Option Options := do
  match ← sectionValues? ["failure_policy", "default_namespace"] value with
  | [policy, defaultNamespace] =>
    return ⟨← settingOr? .failFast FailurePolicy.ofValue? policy, ← settingOr? none optionalText? defaultNamespace⟩
  | _ => none

/-- The settings of a project. -/
structure Settings where
  options : Options
  outputDirectory : Option String
  deriving DecidableEq

namespace Settings

/-- The settings of a project that sets nothing. -/
def default : Settings := ⟨.default, none⟩

/-- The directory of the section `output`. -/
def outputDirectory? (value : Value) : Option (Option String) := do
  match ← sectionValues? ["dir"] value with
  | [dir] => settingOr? none optionalText? dir
  | _ => none

/-- The settings in a tree of values. -/
def ofValue? (value : Value) : Option Settings := do
  match ← sectionValues? ["compose", "output"] value with
  | [run, output] =>
    return ⟨← settingOr? .default Options.ofValue? run, ← settingOr? none outputDirectory? output⟩
  | _ => none

end Settings

end Manifests
