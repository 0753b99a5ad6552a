import Manifests.CommandLine.Output
import Manifests.Settings
import Manifests.Toml.Document

/-! # Commands

What each command reads and writes, on a host of any kind. -/

namespace Manifests.CommandLine

section

variable {m : Type → Type} [Monad m]

/-! ### Settings -/

/-- Why there are no settings. -/
inductive SettingsFault where
  /-- The file cannot be read. -/
  | notRead (path : String) (fault : AccessFault)
  /-- The file is no settings file. -/
  | malformed (path : String)
  deriving DecidableEq

def SettingsFault.message : SettingsFault → String
  | .notRead path fault => "could not read '" ++ path ++ "': " ++ fault.message
  | .malformed path => "could not parse '" ++ path ++ "': not a settings file"

/-- The file of settings that is read if it is there. -/
def settingsFile : String := "manifold.toml"

/-- The directory that manifests go to if none is set. -/
def manifestDirectory : String := "manifests"

def readSettingsFile (host : Host m) (path : String) : m (Except SettingsFault Settings) := do
  match ← host.source.read (Path.ofText path) with
  | .error fault => return .error (.notRead path fault)
  | .ok text =>
    match (Toml.read text).bind Settings.ofValue? with
    | some settings => return .ok settings
    | none => return .error (.malformed path)

/-- The settings of a run: those of the file that is named, or else of the usual file if it is there. -/
def readSettings (host : Host m) (config : Option String) : m (Except SettingsFault Settings) := do
  match config with
  | some path => readSettingsFile host path
  | none =>
    if ← host.isFile (Path.ofText settingsFile) then readSettingsFile host settingsFile
    else return .ok .default

/-! ### Writing -/

/-- Why manifests are not written. -/
inductive OutputFault where
  /-- The directory cannot be made. -/
  | noDirectory (directory : String) (fault : AccessFault)
  /-- A file cannot be written. -/
  | notWritten (directory name : String) (fault : WriteFault)
  deriving DecidableEq

/-- The text of the path of a file in a directory. -/
def fileText (directory name : String) : String :=
  if directory = "" || directory.toList.getLast? = some '/' then directory ++ name else directory ++ "/" ++ name

def OutputFault.message : OutputFault → String
  | .noDirectory directory fault => "could not create '" ++ directory ++ "': " ++ fault.message
  | .notWritten directory _ (.notMade fault) => "could not create temp file in '" ++ directory ++ "': " ++ fault.message
  | .notWritten directory name (.notPlaced fault) =>
    "could not write '" ++ fileText directory name ++ "': " ++ fault.message

/-- Writes manifests into a directory that is there, up to the first that cannot be written. -/
def writeEach (host : Host m) (directory : String) : List Manifest → m (Except OutputFault Unit)
  | [] => return .ok ()
  | manifest :: rest => do
    match ← host.write (Path.ofDirectoryText directory) manifest.fileName manifest.text with
    | .ok () => writeEach host directory rest
    | .error fault => return .error (.notWritten directory manifest.fileName fault)

/-- Makes a directory and writes manifests into it. -/
def writeManifests (host : Host m) (directory : String) (manifests : List Manifest) :
    m (Except OutputFault Unit) := do
  match ← host.createDirectories (Path.ofDirectoryText directory) with
  | .ok () => writeEach host directory manifests
  | .error fault => return .error (.noDirectory directory fault)

/-! ### Commands -/

def exitCode (success : Bool) : Nat := if success then 0 else 1

/-- What a run gives that did not end at a failure. `wrote` is the directory that manifests were written to. -/
def composed (v : Voice) (dryRun : Bool) (wrote : String) (r : Report) : Outcome :=
  match v.output with
  | .json => ⟨exitCode r.isSuccess, line (summaryJson dryRun r).pretty, v.progress r.progress⟩
  | .text =>
    let printed :=
      if dryRun then documents r.manifests
      else if v.quiet then ""
      else line ("wrote " ++ Number.decimal r.manifests.length ++ " manifest(s) to " ++ wrote)
    ⟨exitCode r.isSuccess, printed, v.progress r.progress ++ v.reportAll r.failures⟩

/-- Composes declarations, and writes their manifests unless they are only to be printed. -/
def runCompose (host : Host m) (v : Voice) (options : Options) (directory : String) (dryRun : Bool)
    (ds : List Declaration) : m Outcome := do
  match compose options ds with
  | .error halt => return ⟨1, "", v.progress halt.progress ++ v.report halt.failure.diagnostic⟩
  | .ok r =>
    if dryRun then return composed v dryRun directory r
    match ← writeManifests host directory r.manifests with
    | .ok () => return composed v dryRun directory r
    | .error fault => return ⟨1, "", v.progress r.progress ++ v.complain fault.message⟩

/-- The verdict on a run that went on after failures. -/
def checked (v : Voice) (r : Report) : Outcome :=
  match v.output with
  | .json => ⟨exitCode r.isSuccess, line (verdictJson r).pretty, ""⟩
  | .text =>
    ⟨exitCode r.isSuccess, if r.isSuccess && !v.quiet then line "valid" else "", v.reportAll r.failures⟩

/-- Composes declarations to the last without writing anything. -/
def runCheck (v : Voice) (options : Options) (ds : List Declaration) : Outcome :=
  match compose { options with failurePolicy := .keepGoing } ds with
  | .error halt => ⟨1, "", v.report halt.failure.diagnostic⟩
  | .ok r => checked v r

def runWith (host : Host m) (settings : Settings) (i : Invocation) : m Outcome := do
  match ← (host.source.load i.file).run with
  | .error failure => return ⟨1, "", i.voice.report failure.diagnostic⟩
  | .ok ds =>
    match i.command with
    | .compose outDir dryRun policy =>
      let options := { settings.options with failurePolicy := policy.getD settings.options.failurePolicy }
      let directory := (outDir <|> settings.outputDirectory).getD manifestDirectory
      runCompose host i.voice options directory dryRun ds
    | .check => return runCheck i.voice settings.options ds
    | .list => return ⟨0, listing i.output ds, ""⟩

/-- How the program is called. -/
def usage : String :=
  "Usage: manifold [--output text|json] [--quiet] [-v] [--log-format text|json] [--config FILE] COMMAND FILE\n\n" ++
    "Commands:\n" ++
    "  compose FILE [--out-dir DIR] [--dry-run] [--policy fail-fast|continue]\n" ++
    "  check FILE\n" ++
    "  list FILE\n"

/-- What is given if the words of a command line are not those of a command. -/
def Stop.outcome : Stop → Outcome
  | .help => ⟨0, usage, ""⟩
  | .version => ⟨0, "manifold 0.1.0\n", ""⟩
  | .misuse => ⟨2, "", usage⟩

/-- Runs the program with the words of a command line. -/
def run (host : Host m) (arguments : List String) : m Outcome := do
  match Invocation.read arguments with
  | .error stop => return stop.outcome
  | .ok i =>
    match ← readSettings host i.config with
    | .error fault => return ⟨1, "", i.voice.complain fault.message⟩
    | .ok settings => runWith host settings i

end

end Manifests.CommandLine
