import Manifests.Number.Digits
import Manifests.Path

/-! # Sources of declarations

Where declaration files are read from. A source is given by its operations, in the monad `m` in which they run. -/

namespace Manifests

/-- Why a path cannot be used. -/
inductive AccessFault where
  /-- No text is stored at the path. -/
  | noStoredFile (path : Path)
  /-- No text is stored at the path or below it. -/
  | noStoredPath (path : Path)
  /-- The system refuses, with its words and its number for the reason. -/
  | system (text : String) (code : Nat)
  /-- The content of a file is not text in UTF-8. -/
  | notText
  /-- A name has a null character. -/
  | nulCharacter
  deriving DecidableEq

namespace AccessFault

def message : AccessFault → String
  | .noStoredFile path => "no in-memory file " ++ path.text
  | .noStoredPath path => "no in-memory path " ++ path.text
  | .system text code => text ++ " (os error " ++ Number.decimal code ++ ")"
  | .notText => "stream did not contain valid UTF-8"
  | .nulCharacter => "file name contained an unexpected NUL byte"

/-- The number of a fault of the system. -/
def code? : AccessFault → Option Nat
  | .system _ code => some code
  | _ => none

def noEntry : AccessFault := .system "No such file or directory" 2

/-- Something that is no directory stands where one is needed. -/
def notDirectory : AccessFault := .system "Not a directory" 20

/-- A directory stands where a file is needed. -/
def isDirectory : AccessFault := .system "Is a directory" 21

/-- Something stands where a new entry is needed. -/
def alreadyThere : AccessFault := .system "File exists" 17

/-- A name is longer than the system allows. -/
def nameTooLong : AccessFault := .system "File name too long" 36

end AccessFault

/-- A source of declaration files. -/
structure Source (m : Type → Type) where
  /-- The text at a path. -/
  read : Path → m (Except AccessFault String)
  /-- The path that a file in the directory `base` means by a text. -/
  resolve : (base : Path) → (reference : String) → Path
  /-- The one path that stands for all spellings of a path. -/
  canonicalize : Path → m (Except AccessFault Path)
  /-- At least the number of files that the source has. -/
  fileBound : Nat

end Manifests
