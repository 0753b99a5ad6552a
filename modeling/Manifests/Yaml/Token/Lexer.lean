import Manifests.Yaml.Scalar
import Manifests.Yaml.Tag
import Manifests.Yaml.Token

/-! # From characters to tokens

The lexer goes through the text once. A mapping key needs no indicator: where one could start, the lexer notes a
*candidate*, and when a colon follows on the same line within 1024 characters it puts the key token, and the
start of a block mapping if the key opens one, in front of what was read since. Indentation opens and closes
block collections: a deeper entry or key opens one, and a line that starts to the left closes those deeper
than it. Inside flow collections indentation does not count. -/

namespace Manifests.Yaml

/-- A place where a mapping key may have started. -/
structure Candidate where
  /-- How many tokens were read before it. -/
  position : Nat
  /-- It starts a line of the block it is in, so that a key must come of it. -/
  required : Bool
  line : Nat
  column : Nat
  index : Nat

/-- The state of the lexer. -/
structure Lexer where
  cursor : Cursor
  /-- The tokens read, last first. -/
  tokens : List Token
  /-- How many tokens were read. -/
  count : Nat
  /-- The column of the block collection the lexer is in, `-1` outside all. -/
  indent : Int
  /-- The columns of the enclosing block collections, innermost first. -/
  indents : List Int
  /-- A key may start here. -/
  keyAllowed : Bool
  /-- The candidate of the flow collection the lexer is in, or of the block if it is in none. -/
  candidate : Option Candidate
  /-- The candidates of the enclosing flow collections and of the block, innermost first. -/
  outer : List (Option Candidate)

namespace Lexer

def start (text : List Char) : Lexer := ⟨Cursor.start text, [], 0, -1, [], true, none, []⟩

/-- The lexer is inside a flow collection. -/
def inFlow (l : Lexer) : Bool := !l.outer.isEmpty

/-- The column of the next character. -/
def column (l : Lexer) : Int := l.cursor.column

/-- Adds a token at the end. -/
def push (l : Lexer) (t : Token) : Lexer := { l with tokens := t :: l.tokens, count := l.count + 1 }

/-- Adds a token behind the first `position` tokens. -/
def pushAt (l : Lexer) (position : Nat) (t : Token) : Lexer :=
  let since := l.count - position
  { l with tokens := l.tokens.take since ++ t :: l.tokens.drop since, count := l.count + 1 }

def moveTo (l : Lexer) (c : Cursor) : Lexer := { l with cursor := c }

/-! ### Candidates for keys -/

/-- Gives a candidate up, which is a fault if a key must come of it. -/
def giveUp (candidate : Option Candidate) : Except Fault (Option Candidate) :=
  match candidate with
  | some k => if k.required then .error .unfinishedKey else .ok none
  | none => .ok none

/-- Drops the candidate of this level. -/
def dropCandidate (l : Lexer) : Except Fault Lexer := do
  return { l with candidate := ← giveUp l.candidate }

/-- The candidate is on an earlier line or too far back for its colon. -/
def Candidate.isStale (k : Candidate) (c : Cursor) : Bool := k.line < c.line || k.index + 1024 < c.index

/-- Gives up a candidate that is too old. -/
def giveUpStale (c : Cursor) (candidate : Option Candidate) : Except Fault (Option Candidate) :=
  match candidate with
  | some k => if Candidate.isStale k c then giveUp candidate else .ok candidate
  | none => .ok none

/-- Gives up the candidates of all levels that are too old. -/
def dropStale (l : Lexer) : Except Fault Lexer := do
  let candidate ← giveUpStale l.cursor l.candidate
  let outer ← l.outer.mapM (giveUpStale l.cursor)
  return { l with candidate, outer }

/-- Notes a candidate here if a key may start. -/
def noteCandidate (l : Lexer) : Except Fault Lexer :=
  if l.keyAllowed then do
    let l ← l.dropCandidate
    let required := !l.inFlow && l.indent = l.column
    return { l with candidate := some ⟨l.count, required, l.cursor.line, l.cursor.column, l.cursor.index⟩ }
  else .ok l

/-! ### Block collections by indentation -/

/-- Opens a block collection at `column` if it is deeper than the one the lexer is in. -/
def openBlock (l : Lexer) (column : Int) (position : Nat) (t : Token) : Lexer :=
  if !l.inFlow && l.indent < column then
    { l.pushAt position t with indent := column, indents := l.indent :: l.indents }
  else l

/-- Closes the block collections deeper than `column`. -/
def closeBlocks (column : Int) : List Int → Lexer → Lexer
  | [], l => l
  | outer :: rest, l =>
    if l.indent > column then
      closeBlocks column rest { l.push .blockEnd with indent := outer, indents := rest }
    else l

/-- Closes the block collections deeper than `column`; inside a flow collection none is. -/
def unindent (l : Lexer) (column : Int) : Lexer :=
  if l.inFlow then l else closeBlocks column l.indents l

/-! ### Single tokens -/

def readDirective (l : Lexer) : Except Fault Lexer := do
  let l ← (l.unindent (-1)).dropCandidate
  let (name, c) := (l.cursor.skip 1).takeWhile isWord
  if name.isEmpty || !c.endsWordAt 0 then throw .malformedDirective
  let l := { l with keyAllowed := false }
  if name = "YAML".toList then
    let (major, minor, c) ← Tag.readVersion c
    return (l.push (.versionDirective major minor)).moveTo (← Tag.readDirectiveEnd c)
  else if name = "TAG".toList then
    let (handle, stem, c) ← Tag.readDeclaration c
    return (l.push (.tagDirective handle stem)).moveTo (← Tag.readDirectiveEnd c)
  else throw .malformedDirective

/-- A document marker. -/
def readMarker (l : Lexer) (t : Token) : Except Fault Lexer := do
  let l ← (l.unindent (-1)).dropCandidate
  return ({ l with keyAllowed := false }.push t).moveTo (l.cursor.skip 3)

/-- The start of a flow collection. -/
def openFlow (l : Lexer) (t : Token) : Except Fault Lexer := do
  let l ← l.noteCandidate
  let l := { l with outer := l.candidate :: l.outer, candidate := none, keyAllowed := true }
  return (l.push t).moveTo (l.cursor.skip 1)

/-- The end of a flow collection. -/
def closeFlow (l : Lexer) (t : Token) : Except Fault Lexer := do
  let l ← l.dropCandidate
  let l :=
    match l.outer with
    | candidate :: outer => { l with candidate, outer }
    | [] => l
  return ({ l with keyAllowed := false }.push t).moveTo (l.cursor.skip 1)

/-- A comma of a flow collection. -/
def readFlowEntry (l : Lexer) : Except Fault Lexer := do
  let l ← l.dropCandidate
  return ({ l with keyAllowed := true }.push .flowEntry).moveTo (l.cursor.skip 1)

/-- The dash of a block sequence's entry. -/
def readBlockEntry (l : Lexer) : Except Fault Lexer := do
  if !l.inFlow && !l.keyAllowed then throw .misplacedIndicator
  let l ← (l.openBlock l.column l.count .blockSequenceStart).dropCandidate
  return ({ l with keyAllowed := true }.push .blockEntry).moveTo (l.cursor.skip 1)

/-- The question mark of a key. -/
def readKey (l : Lexer) : Except Fault Lexer := do
  if !l.inFlow && !l.keyAllowed then throw .misplacedIndicator
  let l ← (l.openBlock l.column l.count .blockMappingStart).dropCandidate
  return ({ l with keyAllowed := !l.inFlow }.push .key).moveTo (l.cursor.skip 1)

/-- The colon of a value: of the candidate's key, or of a key marked as such or left out. -/
def readValue (l : Lexer) : Except Fault Lexer := do
  match l.candidate with
  | some k =>
    let l := (l.pushAt k.position .key).openBlock k.column k.position .blockMappingStart
    return ({ l with candidate := none, keyAllowed := false }.push .value).moveTo (l.cursor.skip 1)
  | none =>
    if !l.inFlow && !l.keyAllowed then throw .misplacedIndicator
    let l := l.openBlock l.column l.count .blockMappingStart
    return ({ l with keyAllowed := !l.inFlow }.push .value).moveTo (l.cursor.skip 1)

/-- The characters that may follow the name of an anchor or alias besides blanks and breaks. -/
def endsName (c : Char) : Bool := "?:,]\x7d%@\x60".toList.contains c

/-- An anchor or an alias. -/
def readAnchor (l : Lexer) (t : String → Token) : Except Fault Lexer := do
  let l ← l.noteCandidate
  let (name, c) := (l.cursor.skip 1).takeWhile isWord
  if name.isEmpty || !(c.endsWordAt 0 || c.nextIs endsName) then throw .malformedAnchor
  return ({ l with keyAllowed := false }.push (t (String.ofList name))).moveTo c

def readTag (l : Lexer) : Except Fault Lexer := do
  let l ← l.noteCandidate
  let (handle, suffix, c) ← Tag.read l.inFlow l.cursor
  return ({ l with keyAllowed := false }.push (.tag handle suffix)).moveTo c

def readBlockScalar (l : Lexer) (literal : Bool) : Except Fault Lexer := do
  let l ← l.dropCandidate
  let (text, c) ← Scalar.readBlock literal l.indent l.cursor
  return ({ l with keyAllowed := true }.push (.scalar text false)).moveTo c

def readQuotedScalar (l : Lexer) (single : Bool) : Except Fault Lexer := do
  let l ← l.noteCandidate
  let (text, c) ← Scalar.readQuoted single l.cursor
  return ({ l with keyAllowed := false }.push (.scalar text false)).moveTo c

/-- A plain scalar. A key may start after one that a line break follows. -/
def readPlainScalar (l : Lexer) : Except Fault Lexer := do
  let l ← l.noteCandidate
  let (text, broken, c) ← Scalar.readPlain l.inFlow (l.indent + 1) l.cursor
  return ({ l with keyAllowed := broken }.push (.scalar text true)).moveTo c

/-! ### The whole text -/

/-- Past blanks, comments and line breaks to the next token. A tab counts as a blank only where no key may
    start, and a line break outside flow collections allows a key. A byte order mark may start a line. -/
def toNextToken (inFlow : Bool) : Nat → Bool → Cursor → Bool × Cursor
  | 0, keyAllowed, c => (keyAllowed, c)
  | fuel + 1, keyAllowed, c =>
    let c := if c.column = 0 && c.nextIs (· = byteOrderMark) then c.skip 1 else c
    let c := c.skipWhile fun ch => ch = ' ' || ((inFlow || !keyAllowed) && ch = '\t')
    let c := if c.nextIs (· = '#') then c.skipWhile (fun ch => !isBreak ch) else c
    if c.nextIs isBreak then toNextToken inFlow fuel (keyAllowed || !inFlow) c.skipBreak else (keyAllowed, c)

/-- The characters that start no plain scalar, but for a dash, a question mark or a colon in some places. -/
def isIndicator (c : Char) : Bool := isBlank c || "-?:,[]\x7b\x7d#&*!|>'\"%@\x60".toList.contains c

/-- A plain scalar starts here: no indicator, or a dash before anything but a blank, or, in a block, a question
    mark or a colon before a word. -/
def startsPlain (l : Lexer) (ch : Char) : Bool :=
  !isIndicator ch || (ch = '-' && !l.cursor.charAt 1 isBlank) ||
    (!l.inFlow && (ch = '?' || ch = ':') && !l.cursor.endsWordAt 1)

/-- The token that starts with the character `ch` here. -/
def readToken (l : Lexer) (ch : Char) : Except Fault Lexer :=
  let c := l.cursor
  let indicates := l.inFlow || c.endsWordAt 1
  if c.column = 0 && ch = '%' then l.readDirective
  else if c.atMarker ['-', '-', '-'] then l.readMarker .documentStart
  else if c.atMarker ['.', '.', '.'] then l.readMarker .documentEnd
  else if ch = '[' then l.openFlow .flowSequenceStart
  else if ch = '\x7b' then l.openFlow .flowMappingStart
  else if ch = ']' then l.closeFlow .flowSequenceEnd
  else if ch = '\x7d' then l.closeFlow .flowMappingEnd
  else if ch = ',' then l.readFlowEntry
  else if ch = '-' && c.endsWordAt 1 then l.readBlockEntry
  else if ch = '?' && indicates then l.readKey
  else if ch = ':' && indicates then l.readValue
  else if ch = '*' then l.readAnchor .alias
  else if ch = '&' then l.readAnchor .anchor
  else if ch = '!' then l.readTag
  else if ch = '|' && !l.inFlow then l.readBlockScalar true
  else if ch = '>' && !l.inFlow then l.readBlockScalar false
  else if ch = '\'' then l.readQuotedScalar true
  else if ch = '"' then l.readQuotedScalar false
  else if l.startsPlain ch then l.readPlainScalar
  else .error .unexpectedCharacter

/-- The end of the text closes all block collections. -/
def finish (l : Lexer) : Except Fault (List Token) := do
  let l ← (l.unindent (-1)).dropCandidate
  return l.tokens.reverse

/-- Reads tokens up to the end of the text. Each takes one character or more. -/
def run : Nat → Lexer → Except Fault (List Token)
  | 0, l => l.finish
  | fuel + 1, l => do
    let (keyAllowed, c) := toNextToken l.inFlow l.cursor.bound l.keyAllowed l.cursor
    let l ← ({ l with keyAllowed }.moveTo c).dropStale
    let l := l.unindent l.column
    match c.head? with
    | none => l.finish
    | some ch => run fuel (← l.readToken ch)

end Lexer

def Token.scan (text : List Char) : Except Fault (List Token) :=
  if text.all isReadable then (Lexer.start text).run (text.length + 1) else .error .unreadableCharacter

end Manifests.Yaml
