import Manifests.Host

/-! # File trees

A file system as a value: directories and files by their names from the root on, without links. Looking a path up
goes step by step, and every step but the last needs a directory. -/

namespace Manifests

/-- The content of a file. -/
inductive Content where
  | text (s : String)
  | bytes (octets : List UInt8)
  deriving DecidableEq

/-- What stands at a place. -/
inductive Item where
  | directory
  | file (content : Content)
  deriving DecidableEq

/-- The names that lead from the root to a place. -/
abbrev Place := List String

/-- A file tree. The root is a directory of every tree. -/
structure FileTree where
  items : List (Place × Item)

namespace FileTree

/-- What stands at a place. -/
def item? (tree : FileTree) (place : Place) : Option Item :=
  if place = [] then some .directory else tree.items.lookup place

/-- Puts an item at a place, instead of what stood there. -/
def put (tree : FileTree) (place : Place) (item : Item) : FileTree :=
  ⟨tree.items.filter (·.1 ≠ place) ++ [(place, item)]⟩

/-! ### Looking up -/

/-- The most bytes that a name has. -/
def maxNameBytes : Nat := 255

def follow (tree : FileTree) (place : Place) (step : Step) : Except AccessFault Place :=
  match tree.item? place with
  | none => .error .noEntry
  | some (.file _) => .error .notDirectory
  | some .directory =>
    match step with
    | .current => .ok place
    | .parent => .ok place.dropLast
    | .name s =>
      if maxNameBytes < s.utf8ByteSize then .error .nameTooLong
      else if (tree.item? (place ++ [s])).isSome then .ok (place ++ [s])
      else .error .noEntry

/-- A name of the path has a null character. -/
def hasNull (path : Path) : Bool := path.steps.any fun step => step.text.toList.contains '\x00'

/-- The place that steps lead to. Relative paths start in the directory `here`. -/
def walk (tree : FileTree) (here : Place) (path : Path) : Except AccessFault Place :=
  path.steps.foldlM tree.follow (if path.absolute then [] else here)

def locate (tree : FileTree) (here : Place) (path : Path) : Except AccessFault Place :=
  if hasNull path then .error .nulCharacter
  else if path = .empty then .error .noEntry
  else tree.walk here path

/-- A directory stands at a path. -/
def isDirectory (tree : FileTree) (here : Place) (path : Path) : Bool :=
  match tree.locate here path with
  | .ok place => tree.item? place = some .directory
  | .error _ => false

/-- A file stands at a path. -/
def isFile (tree : FileTree) (here : Place) (path : Path) : Bool :=
  match tree.locate here path with
  | .ok place => tree.item? place ≠ some .directory
  | .error _ => false

/-- The text of the file at a path. -/
def read (tree : FileTree) (here : Place) (path : Path) : Except AccessFault String := do
  match tree.item? (← tree.locate here path) with
  | some (.file (.text s)) => return s
  | some (.file (.bytes _)) => throw .notText
  | some .directory => throw .isDirectory
  | none => throw .noEntry

/-- The path from the root that leads to where a path leads. -/
def canonicalize (tree : FileTree) (here : Place) (path : Path) : Except AccessFault Path := do
  return ⟨true, (← tree.locate here path).map .name⟩

/-! ### Changing -/

/-- Makes one directory where the path without its last step leads. -/
def createDirectory (tree : FileTree) (here : Place) (path : Path) : Except AccessFault FileTree :=
  if hasNull path then .error .nulCharacter
  else
    match path.steps.getLast? with
    | none => .error .alreadyThere
    | some last => do
      let above ← tree.walk here ⟨path.absolute, path.steps.dropLast⟩
      if tree.item? above ≠ some .directory then throw .notDirectory
      match last with
      | .current | .parent => throw .alreadyThere
      | .name s =>
        if maxNameBytes < s.utf8ByteSize then throw .nameTooLong
        if (tree.item? (above ++ [s])).isSome then throw .alreadyThere
        return tree.put (above ++ [s]) .directory

/-- Puts a text into the file of the given name in a directory. -/
def write (tree : FileTree) (here : Place) (directory : Path) (name text : String) : Except WriteFault FileTree :=
  match tree.walk here directory with
  | .error fault => .error (.notMade fault)
  | .ok place =>
    if tree.item? (place ++ [name]) = some .directory then .error (.notPlaced .isDirectory)
    else .ok (tree.put (place ++ [name]) (.file (.text text)))

/-! ### As a host -/

/-- Does what changes the tree, or gives the fault and leaves it. -/
def change {ε : Type} (f : FileTree → Except ε FileTree) : StateM FileTree (Except ε Unit) := do
  match f (← get) with
  | .ok tree =>
    set tree
    return .ok ()
  | .error fault => return .error fault

/-- The tree as the file system of commands that run in the directory `here`. -/
def host (tree : FileTree) (here : Place) : Host (StateM FileTree) where
  source :=
    { read := fun path => do return (← get).read here path
      resolve := fun base reference => base.join (Path.ofText reference)
      canonicalize := fun path => do return (← get).canonicalize here path
      fileBound := tree.items.length }
  isFile path := do return (← get).isFile here path
  isDirectory path := do return (← get).isDirectory here path
  createDirectory path := change fun tree => tree.createDirectory here path
  write directory name text := change fun tree => tree.write here directory name text

end FileTree

end Manifests
