import Manifests.DeclarationFile
import Manifests.Source

/-! # Loading

A file is loaded with all it imports. Imports stand relative to the directory of the file that names them, they may
not leave the directory of the first file, and they may not form a cycle. What a file imports comes before its own
declarations, and a file that is imported again counts once. -/

namespace Manifests

/-- Why declarations cannot be loaded. -/
inductive LoadCause where
  /-- The first file is not there. -/
  | notOpened (fault : AccessFault)
  /-- The directory of the first file is not there. -/
  | noDirectory (fault : AccessFault)
  /-- A file cannot be read. -/
  | notRead (fault : AccessFault)
  /-- A text is no declaration file. -/
  | document (fault : DocumentFault)
  /-- An import is not there. -/
  | unresolved (reference : String) (fault : AccessFault)
  /-- An import is outside the directory of the first file. -/
  | escape (reference : String)
  /-- A file imports itself, through the files in between. -/
  | cycle (files : List String)
  deriving DecidableEq

def LoadCause.message : LoadCause → String
  | .notOpened fault => "cannot open file: " ++ fault.message
  | .noDirectory fault => "cannot canonicalize root directory: " ++ fault.message
  | .notRead fault => "cannot read file: " ++ fault.message
  | .document fault => fault.message
  | .unresolved reference fault => "cannot resolve import '" ++ reference ++ "': " ++ fault.message
  | .escape reference => "import '" ++ reference ++ "' escapes the declaration root directory"
  | .cycle files => "import cycle detected: " ++ String.intercalate " → " files

/-- A cause with the file that diagnostics name. -/
structure LoadFailure where
  file : String
  cause : LoadCause
  deriving DecidableEq

/-- A file that was loaded, with its declarations. -/
structure LoadedFile where
  path : Path
  resources : List Declaration

section

variable {m : Type → Type} [Monad m]

/-- Goes on with what an operation gives, or fails with the cause for its fault. -/
def orFail {α ε : Type} (file : String) (cause : ε → LoadCause) (result : m (Except ε α)) :
    ExceptT LoadFailure m α :=
  ExceptT.mk do return (← result).mapError fun fault => ⟨file, cause fault⟩

namespace Source

/-- The canonical path of what a file imports. -/
def importPath (source : Source m) (directory file : Path) (reference : String) : ExceptT LoadFailure m Path := do
  let imported ← orFail file.label (.unresolved reference)
    (source.canonicalize (source.resolve file.parent reference))
  if imported.startsWith directory then return imported
  else throw ⟨file.label, .escape reference⟩

/-- Loads a file after those in `loaded`, while the files in `stack` are in progress, the outermost first. The fuel
    is more than the files that can still come into progress, so that where it ends a file is in progress twice. -/
def loadFrom (source : Source m) (directory : Path) :
    Nat → List Path → List LoadedFile → Path → ExceptT LoadFailure m (List LoadedFile)
  | 0, stack, _, file => throw ⟨file.label, .cycle ((stack ++ [file]).map Path.label)⟩
  | fuel + 1, stack, loaded, file => do
    if loaded.any (·.path = file) then return loaded
    let text ← orFail file.label .notRead (source.read file)
    let parsed ← orFail file.label .document (pure (DeclarationFile.read file.label text))
    let stack := stack ++ [file]
    let loaded ← parsed.imports.foldlM (fun loaded reference => do
      let imported ← source.importPath directory file reference
      if imported ∈ stack then throw ⟨file.label, .cycle ((stack ++ [imported]).map Path.label)⟩
      loadFrom source directory fuel stack loaded imported) loaded
    return loaded ++ [⟨file, parsed.resources⟩]

/-- Loads a file and all it imports, in the order in which they are finished. -/
def loadFiles (source : Source m) (root : String) : ExceptT LoadFailure m (List LoadedFile) := do
  let file ← orFail root .notOpened (source.canonicalize (Path.ofText root))
  let directory ← orFail root .noDirectory (source.canonicalize file.parent)
  source.loadFrom directory (source.fileBound + 1) [] [] file

/-- The declarations of a file and of all it imports. -/
def load (source : Source m) (root : String) : ExceptT LoadFailure m (List Declaration) := do
  return (← source.loadFiles root).flatMap (·.resources)

end Source

end

end Manifests
