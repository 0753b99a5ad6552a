import Manifests.Source

/-! # Hosts

The file system that commands work on, given by its operations in the monad `m` in which they run. -/

namespace Manifests

/-- Why a file is not written. -/
inductive WriteFault where
  /-- The file that is to take its place cannot be made. -/
  | notMade (fault : AccessFault)
  /-- The file cannot be put in its place. -/
  | notPlaced (fault : AccessFault)
  deriving DecidableEq

/-- A file system. -/
structure Host (m : Type → Type) where
  /-- Where declarations are read from. -/
  source : Source m
  /-- A file stands at the path. -/
  isFile : Path → m Bool
  /-- A directory stands at the path. -/
  isDirectory : Path → m Bool
  /-- Makes a directory in one that is there. -/
  createDirectory : Path → m (Except AccessFault Unit)
  /-- Puts a text into the file of the given name in a directory, all at once. -/
  write : (directory : Path) → (name : String) → (text : String) → m (Except WriteFault Unit)

/-- The path without its last move. Steps that stay are left out, but for one that a relative path begins with. -/
def Path.above (p : Path) : Path :=
  match p.absolute, p.steps with
  | false, .current :: rest => ⟨false, (Step.current :: rest.filter (· ≠ .current)).dropLast⟩
  | absolute, steps => ⟨absolute, (steps.filter (· ≠ .current)).dropLast⟩

namespace Host

variable {m : Type → Type} [Monad m]

/-- Makes a directory, unless there is one already. -/
def ensureDirectory (host : Host m) (path : Path) : m (Except AccessFault Unit) := do
  match ← host.createDirectory path with
  | .ok () => return .ok ()
  | .error fault => if ← host.isDirectory path then return .ok () else return .error fault

/-- Makes a directory and those above it that are missing. The fuel is more than the number of steps. -/
def createFrom (host : Host m) : Nat → Path → m (Except AccessFault Unit)
  | 0, _ => return .error .noEntry
  | fuel + 1, path => do
    if path = .empty then return .ok ()
    match ← host.ensureDirectory path with
    | .ok () => return .ok ()
    | .error fault =>
      if fault ≠ .noEntry then return .error fault
      match ← createFrom host fuel path.above with
      | .ok () => host.ensureDirectory path
      | .error fault => return .error fault

/-- Makes a directory and those above it that are missing. -/
def createDirectories (host : Host m) (path : Path) : m (Except AccessFault Unit) :=
  host.createFrom (path.steps.length + 1) path

end Host

end Manifests
