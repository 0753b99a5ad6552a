import Manifests.CommandLine.Run

/-! # The program

Runs commands on the file system of the machine. -/

namespace Manifests

/-- The fault for an error's number. Some operations give the number with the opposite sign. -/
def AccessFault.ofCode (code : UInt32) (words : String) : AccessFault :=
  let n := if code.toInt32 < 0 then (-code.toInt32).toNatClampNeg else code.toNat
  let known : List AccessFault := [.noEntry, .alreadyThere, .notDirectory, .isDirectory, .nameTooLong]
  (known.find? fun fault => fault.code? = some n).getD (.system words n)

/-- The fault for an error of the system. -/
def AccessFault.ofError : IO.Error → AccessFault
  | .alreadyExists _ code details | .interrupted _ code details | .noFileOrDirectory _ code details
  | .invalidArgument _ code details | .permissionDenied _ code details | .resourceExhausted _ code details
  | .inappropriateType _ code details | .noSuchThing _ code details | .otherError code details
  | .resourceBusy code details | .resourceVanished code details | .unsupportedOperation code details
  | .hardwareFault code details | .unsatisfiedConstraints code details | .illegalOperation code details
  | .protocolError code details | .timeExpired code details => .ofCode code details
  | .unexpectedEof => .system "Unexpected end of file" 0
  | .userError message => .system message 0

/-- Does something with a path, and gives the fault if that fails. -/
def atPath {α : Type} (path : Path) (action : String → IO α) : IO (Except AccessFault α) := do
  if path = .empty then return .error .noEntry
  if path.text.toList.contains '\x00' then return .error .nulCharacter
  try return .ok (← action path.text)
  catch error => return .error (.ofError error)

/-- The canonical form of a path. Where there is none, opening the path tells why. -/
def canonicalPath (path : Path) : IO (Except AccessFault Path) := do
  match ← atPath path fun text => IO.FS.realPath text with
  | .ok found => return .ok (Path.ofText found.toString)
  | .error fault =>
    match ← atPath path fun text => IO.FS.Handle.mk text .read with
    | .ok _ => return .error fault
    | .error fault => return .error fault

def readTextFile (path : Path) : IO (Except AccessFault String) := do
  match ← atPath path fun text => IO.FS.readBinFile text with
  | .error fault => return .error fault
  | .ok bytes =>
    match String.fromUTF8? bytes with
    | some text => return .ok text
    | none => return .error .notText

/-- A directory stands at the path, or a file; neither if nothing does. -/
def isDirectory? (path : Path) : IO (Option Bool) := do
  match ← atPath path fun text => do (← IO.FS.realPath text).isDir with
  | .ok found => return some found
  | .error _ => return none

/-- Writes a file beside the one that it then takes the place of. -/
def writeTextFile (directory : Path) (name text : String) : IO (Except WriteFault Unit) := do
  let target := (directory.join ⟨false, [.name name]⟩).text
  let beside := (directory.join ⟨false, [.name ("." ++ name ++ ".new")]⟩).text
  try IO.FS.writeFile beside text
  catch error => return .error (.notMade (.ofError error))
  try
    IO.FS.rename beside target
    return .ok ()
  catch error =>
    IO.FS.removeFile beside
    return .error (.notPlaced (.ofError error))

/-- The file system of the machine. -/
def machine : Host IO where
  source :=
    { read := readTextFile
      resolve := fun base reference => base.join (Path.ofText reference)
      canonicalize := canonicalPath
      fileBound := UInt64.size }
  isFile path := do return (← isDirectory? path) = some false
  isDirectory path := do return (← isDirectory? path) = some true
  createDirectory path := atPath path fun text => IO.FS.createDir text
  write := writeTextFile

end Manifests

open Manifests in
/-- Runs the program. -/
def main (arguments : List String) : IO UInt32 := do
  let outcome ← CommandLine.run machine arguments
  IO.print outcome.stdout
  IO.eprint outcome.stderr
  return UInt32.ofNat outcome.code
