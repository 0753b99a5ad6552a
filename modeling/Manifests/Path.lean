/-! # Paths

Paths of a Unix file system, taken apart at their slashes. Repeated slashes count as one, and a slash at the end
counts as a step to the directory itself. -/

namespace Manifests

/-- One step of a path. -/
inductive Step where
  | current
  | parent
  | name (s : String)
  deriving DecidableEq

def Step.text : Step → String
  | .current => "."
  | .parent => ".."
  | .name s => s

/-- The step that a text between slashes writes. -/
def Step.ofText (s : String) : Step := if s = "." then .current else if s = ".." then .parent else .name s

/-- A path from the root, or from a directory that is left open. -/
structure Path where
  absolute : Bool
  steps : List Step
  deriving DecidableEq

namespace Path

/-! ### Text -/

/-- The runs of characters between slashes. -/
def pieces : List Char → List (List Char)
  | [] => [[]]
  | c :: cs =>
    match pieces cs with
    | [] => [[c]]
    | piece :: rest => if c = '/' then [] :: piece :: rest else (c :: piece) :: rest

/-- The steps of a text without the slash at its end. -/
def stepsOf (cs : List Char) : List Step :=
  ((pieces cs).filter (!·.isEmpty)).map fun piece => Step.ofText (String.ofList piece)

/-- The path that a text writes. -/
def ofText (text : String) : Path :=
  let cs := text.toList
  let steps := stepsOf cs
  let closing := if !steps.isEmpty && cs.getLast? = some '/' then [Step.current] else []
  ⟨cs.head? = some '/', steps ++ closing⟩

/-- The path that a text writes where a directory is to stand: a slash at its end says nothing more. -/
def ofDirectoryText (text : String) : Path := ⟨text.toList.head? = some '/', stepsOf text.toList⟩

def text (p : Path) : String :=
  (if p.absolute then "/" else "") ++ String.intercalate "/" (p.steps.map Step.text)

/-! ### Parts -/

/-- The path without steps, which stands for the directory that is left open. -/
def empty : Path := ⟨false, []⟩

/-- The path without its last step; a path without steps has the empty one. -/
def parent (p : Path) : Path := if p.steps.isEmpty then empty else ⟨p.absolute, p.steps.dropLast⟩

/-- The name that a path ends with. -/
def fileName? (p : Path) : Option String :=
  match p.steps.getLast? with
  | some (.name s) => some s
  | _ => none

/-- What diagnostics call a file: its name, or else the whole path. -/
def label (p : Path) : String := p.fileName?.getD p.text

/-- The path `q` seen from `p`. -/
def join (p q : Path) : Path := if q.absolute then q else ⟨p.absolute, p.steps ++ q.steps⟩

/-- The path begins with the steps of `q`. Every path begins with the empty one. -/
def startsWith (p q : Path) : Bool := q = empty || (p.absolute = q.absolute && q.steps.isPrefixOf p.steps)

/-! ### Normal form -/

/-- One more step after `done`, the steps so far in reverse: a step back takes back a name. -/
def addStep (done : List Step) : Step → List Step
  | .current => done
  | .name s => .name s :: done
  | .parent =>
    match done with
    | .name _ :: rest => rest
    | _ => .parent :: done

/-- The path without steps that stay or that are taken back, found without looking at any file. -/
def normalize (p : Path) : Path := ⟨p.absolute, (p.steps.foldl addStep []).reverse⟩

end Path

end Manifests
