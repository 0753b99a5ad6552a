import Manifests.Composition

/-! # Arguments

The words of a command line: options that every command takes, a command, its own options, and a file. Options may
stand before or after the command, and one that is given after it counts. Words are read from left to right, and
the first that asks for help or for the version, or that is wrong, decides. -/

namespace Manifests.CommandLine

/-! ### Options -/

/-- The options. -/
inductive Flag where
  | output
  | quiet
  | verbose
  | logFormat
  | config
  | outDir
  | dryRun
  | policy
  | help
  | version
  deriving DecidableEq

namespace Flag

/-- The word of an option after its two dashes. -/
def name : Flag → String
  | .output => "output"
  | .quiet => "quiet"
  | .verbose => "verbose"
  | .logFormat => "log-format"
  | .config => "config"
  | .outDir => "out-dir"
  | .dryRun => "dry-run"
  | .policy => "policy"
  | .help => "help"
  | .version => "version"

/-- The letter of an option after one dash. -/
def letter? : Flag → Option Char
  | .verbose => some 'v'
  | .help => some 'h'
  | .version => some 'V'
  | _ => none

/-- What may be given to an option that takes a value. -/
def accepts? : Flag → Option (String → Bool)
  | .output | .logFormat => some fun value => value = "text" || value = "json"
  | .policy => some fun value => (FailurePolicy.ofName? value).isSome
  | .config | .outDir => some fun value => value ≠ ""
  | .quiet | .verbose | .dryRun | .help | .version => none

/-- The option may be given again. -/
def repeats (flag : Flag) : Bool := flag = .verbose

/-- The options that may stand before the command as well as after it. -/
def everywhere : List Flag := [.output, .quiet, .verbose, .logFormat, .config, .help]

end Flag

/-! ### Reading -/

/-- What ends the reading of words early. -/
inductive Stop where
  | help
  | version
  | misuse
  deriving DecidableEq

/-- What was given on one side of the command: options with their values, and words that are no options. -/
structure Given where
  flags : List (Flag × String)
  words : List String

namespace Given

/-- Nothing was given. -/
def empty : Given := ⟨[], []⟩

/-- One more option, with the empty value if it takes none. -/
def addFlag (given : Given) (flag : Flag) (value : String) : Except Stop Given :=
  match flag with
  | .help => .error .help
  | .version => .error .version
  | flag =>
    if !flag.repeats && given.flags.any (·.1 = flag) then .error .misuse
    else if flag.accepts?.all (· value) then .ok { given with flags := given.flags ++ [(flag, value)] }
    else .error .misuse

/-- One more word, of at most `limit`. No word is empty. -/
def addWord (limit : Nat) (given : Given) (word : String) : Except Stop Given :=
  if given.words.length < limit && word ≠ "" then .ok { given with words := given.words ++ [word] }
  else .error .misuse

def value? (given : Given) (flag : Flag) : Option String := given.flags.lookup flag

end Given

/-- Options of one letter each. None of them takes a value. -/
def addLetters (known : List Flag) : List Char → Given → Except Stop Given
  | [], given => .ok given
  | c :: cs, given => do
    match known.find? (·.letter? = some c) with
    | some flag => addLetters known cs (← given.addFlag flag "")
    | none => throw .misuse

/-- The parts of a word before and after its first equals sign. -/
def splitAtEquals (cs : List Char) : List Char × Option (List Char) :=
  match cs.dropWhile (· ≠ '=') with
  | _ :: value => (cs.takeWhile (· ≠ '='), some value)
  | [] => (cs, none)

/-- A word that begins with a dash, which is no value. A lone dash is none of these. -/
def isDashed (word : String) : Bool := word.toList.head? = some '-' && word ≠ "-"

/-- A long option, perhaps with its value after an equals sign or in the next word; the words after it. -/
def addLong (known : List Flag) (cs : List Char) (rest : List String) (given : Given) :
    Except Stop (Given × List String) := do
  let (name, attached) := splitAtEquals cs
  match known.find? (·.name = String.ofList name) with
  | none => throw .misuse
  | some flag =>
    match flag.accepts?.isSome, attached, rest with
    | false, none, _ => return (← given.addFlag flag "", rest)
    | false, some _, _ => throw .misuse
    | true, some value, _ => return (← given.addFlag flag (String.ofList value), rest)
    | true, none, value :: rest =>
      if isDashed value then throw .misuse else return (← given.addFlag flag value, rest)
    | true, none, [] => throw .misuse

/-- Reads words with the known options, and at most `limit` others, until one is among the commands. After two
    dashes alone, all words are taken as they are. The fuel is more than the number of words. -/
def readWords (known : List Flag) (commands : List String) (limit : Nat) :
    Nat → List String → Given → Except Stop (Given × List String)
  | 0, _, _ => throw .misuse
  | _ + 1, [], given => return (given, [])
  | fuel + 1, word :: rest, given => do
    if commands.contains word then return (given, word :: rest)
    match word.toList with
    | ['-', '-'] => return (← rest.foldlM (Given.addWord limit) given, [])
    | '-' :: '-' :: cs =>
      let (given, rest) ← addLong known cs rest given
      readWords known commands limit fuel rest given
    | '-' :: c :: cs => readWords known commands limit fuel rest (← addLetters known (c :: cs) given)
    | _ => readWords known commands limit fuel rest (← given.addWord limit word)

/-! ### Commands -/

/-- What is asked for. -/
inductive Command where
  /-- Write manifests, or print them. -/
  | compose (outDir : Option String) (dryRun : Bool) (policy : Option FailurePolicy)
  /-- Look for failures. -/
  | check
  /-- List what is declared. -/
  | list
  deriving DecidableEq

def commandNames : List String := ["compose", "check", "list", "help"]

/-- The options of a command besides those of all commands. -/
def commandFlags (name : String) : List Flag := if name = "compose" then [.outDir, .dryRun, .policy] else []

/-- How results are printed. -/
inductive OutputFormat where
  | text
  | json
  deriving DecidableEq

/-- A command line. -/
structure Invocation where
  output : OutputFormat
  quiet : Bool
  config : Option String
  command : Command
  file : String
  deriving DecidableEq

def command? (name : String) (given : Given) : Option Command :=
  match name with
  | "compose" =>
    some (.compose (given.value? .outDir) (given.value? .dryRun).isSome
      ((given.value? .policy).bind FailurePolicy.ofName?))
  | "check" => some .check
  | "list" => some .list
  | _ => none

/-- The help that is asked for: of one command, or of all. -/
def helpStop (words : List String) : Stop :=
  match words with
  | [] => .help
  | [name] => if commandNames.contains name then .help else .misuse
  | _ => .misuse

def Invocation.ofGiven? (name : String) (before after : Given) : Option Invocation := do
  let value? (flag : Flag) : Option String := after.value? flag <|> before.value? flag
  let command ← command? name after
  let file ← after.words.head?
  let output := if value? .output = some "json" then .json else .text
  return ⟨output, (value? .quiet).isSome, value? .config, command, file⟩

/-- The invocation that the words of a command line ask for. -/
def Invocation.read (arguments : List String) : Except Stop Invocation := do
  let fuel := arguments.length + 1
  let (before, rest) ← readWords (.version :: Flag.everywhere) commandNames 0 fuel arguments .empty
  match rest with
  | [] => throw .misuse
  | name :: rest =>
    if name = "help" then throw (helpStop rest)
    let (after, _) ← readWords (commandFlags name ++ Flag.everywhere) [] 1 fuel rest .empty
    match Invocation.ofGiven? name before after with
    | some invocation => return invocation
    | none => throw .misuse

end Manifests.CommandLine
