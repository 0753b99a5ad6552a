import Manifests.FileTree

/-! # File systems that may refuse

A file tree behind an operating system, which may refuse whatever is attempted. Files are replaced as a whole: the text
goes into a temporary file of the directory, under a name that the system finds, and this file is then moved to where
it belongs. Where that fails, the temporary file is removed. -/

namespace Manifests

namespace FileTree

/-- The tree without what stands at a place. -/
def erase (tree : FileTree) (place : Place) : FileTree := ⟨tree.items.filter (·.1 ≠ place)⟩

/-- Moves a file to a place where no directory stands, instead of a file there. -/
def move (tree : FileTree) (source target : Place) : Except AccessFault FileTree :=
  if tree.item? target = some .directory then .error .isDirectory
  else
    match tree.item? source with
    | some item => .ok ((tree.erase source).put target item)
    | none => .error .noEntry

end FileTree

/-- What is attempted in a file tree. -/
inductive Attempt where
  | read (path : Path)
  | canonicalize (path : Path)
  | look (path : Path)
  | makeDirectory (path : Path)
  /-- Makes a new file without content. -/
  | create (place : Place)
  /-- Puts a text into a new file. -/
  | fill (place : Place) (text : String)
  | move (source target : Place)

/-- An operating system: the names that it finds for temporary files, and what it refuses. -/
structure OperatingSystem where
  temporaryName : FileTree → Place → String
  /-- A temporary file takes the place of nothing. -/
  unused : ∀ (tree : FileTree) (place : Place), tree.item? (place ++ [temporaryName tree place]) = none
  refusal? : FileTree → Attempt → Option AccessFault

namespace OperatingSystem

/-- Finds something out about the tree, unless the system refuses. -/
def observe {α : Type} (os : OperatingSystem) (attempt : Attempt) (f : FileTree → Except AccessFault α) :
    StateM FileTree (Except AccessFault α) := do
  let tree ← get
  match os.refusal? tree attempt with
  | some fault => return .error fault
  | none => return f tree

/-- Finds out whether something stands at a path, which seems not so if the system refuses. -/
def look (os : OperatingSystem) (path : Path) (f : FileTree → Bool) : StateM FileTree Bool := do
  let tree ← get
  return (os.refusal? tree (.look path)).isNone && f tree

/-- Changes the tree, unless the system refuses. -/
def perform (os : OperatingSystem) (attempt : Attempt) (f : FileTree → Except AccessFault FileTree) :
    StateM FileTree (Except AccessFault Unit) :=
  FileTree.change fun tree =>
    match os.refusal? tree attempt with
    | some fault => .error fault
    | none => f tree

/-- Puts a text into a new temporary file and moves that to a place. -/
def replace (os : OperatingSystem) (temporary target : Place) (text : String) :
    StateM FileTree (Except WriteFault Unit) := do
  match ← os.perform (.create temporary) fun tree => .ok (tree.put temporary (.file (.text ""))) with
  | .error fault => return .error (.notMade fault)
  | .ok () =>
    match ← os.perform (.fill temporary text) fun tree => .ok (tree.put temporary (.file (.text text))) with
    | .error fault =>
      modify (·.erase temporary)
      return .error (.notPlaced fault)
    | .ok () =>
      match ← os.perform (.move temporary target) fun tree => tree.move temporary target with
      | .error fault =>
        modify (·.erase temporary)
        return .error (.notPlaced fault)
      | .ok () => return .ok ()

/-- Puts a text into the file of the given name in a directory. -/
def write (os : OperatingSystem) (here : Place) (directory : Path) (name text : String) :
    StateM FileTree (Except WriteFault Unit) := do
  let tree ← get
  match tree.walk here directory with
  | .error fault => return .error (.notMade fault)
  | .ok place => os.replace (place ++ [os.temporaryName tree place]) (place ++ [name]) text

/-- The tree as the file system of commands that run in the directory `here` under the system. -/
def host (os : OperatingSystem) (start : FileTree) (here : Place) : Host (StateM FileTree) where
  source :=
    { read := fun path => os.observe (.read path) fun tree => tree.read here path
      resolve := fun base reference => base.join (Path.ofText reference)
      canonicalize := fun path => os.observe (.canonicalize path) fun tree => tree.canonicalize here path
      fileBound := start.items.length }
  isFile path := os.look path fun tree => tree.isFile here path
  isDirectory path := os.look path fun tree => tree.isDirectory here path
  createDirectory path := os.perform (.makeDirectory path) fun tree => tree.createDirectory here path
  write := os.write here

end OperatingSystem

end Manifests
