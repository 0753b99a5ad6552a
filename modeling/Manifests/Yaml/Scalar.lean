import Manifests.Yaml.Cursor
import Manifests.Yaml.Fault

/-! # Scalars as written

Plain, quoted and block scalars, from the text to the characters they stand for. A line break between two
lines of a plain, quoted or folded scalar counts as a space, and further breaks count as themselves. -/

namespace Manifests.Yaml.Scalar

/-! ### Folding of blanks and breaks -/

/-- The blanks and breaks between two words: the blanks before a first break, that break, and the breaks that
    follow it. -/
structure Gap where
  blanks : List Char
  first : List Char
  further : List Char
  broken : Bool

def Gap.none : Gap := ⟨[], [], [], false⟩

/-- The characters that a gap counts as. -/
def Gap.text (g : Gap) : List Char :=
  if !g.broken then g.blanks
  else if g.first = ['\n'] then (if g.further.isEmpty then [' '] else g.further)
  else g.first ++ g.further

/-- Reads a gap on. Blanks after a break are indentation, where a tab left of the column `floor` is refused. -/
def readGap (floor : Int) : Nat → Gap → Cursor → Except Fault (Gap × Cursor)
  | 0, g, c => .ok (g, c)
  | fuel + 1, g, c =>
    match c.head? with
    | .none => .ok (g, c)
    | some ch =>
      if isBlank ch then
        if !g.broken then readGap floor fuel { g with blanks := g.blanks ++ [ch] } (c.skip 1)
        else if ch = '\t' ∧ (c.column : Int) < floor then .error .tabInIndentation
        else readGap floor fuel g (c.skip 1)
      else if isBreak ch then
        let (text, c) := c.takeBreak
        if !g.broken then readGap floor fuel { g with blanks := [], first := text, broken := true } c
        else readGap floor fuel { g with further := g.further ++ text } c
      else .ok (g, c)

/-! ### Quoted scalars -/

/-- The escapes of one letter in a double-quoted scalar. -/
def escapes : List (Char × Char) :=
  [('0', '\x00'), ('a', '\x07'), ('b', '\x08'), ('t', '\t'), ('\t', '\t'), ('n', '\n'), ('v', '\x0B'),
   ('f', '\x0C'), ('r', '\r'), ('e', '\x1B'), (' ', ' '), ('"', '"'), ('/', '/'), ('\\', '\\'), ('N', '\x85'),
   ('_', '\xA0'), ('L', '\u2028'), ('P', '\u2029')]

/-- The value of a hexadecimal digit. -/
def hexValue? (c : Char) : Option Nat :=
  if '0' ≤ c ∧ c ≤ '9' then some (c.toNat - '0'.toNat)
  else if 'a' ≤ c ∧ c ≤ 'f' then some (c.toNat - 'a'.toNat + 10)
  else if 'A' ≤ c ∧ c ≤ 'F' then some (c.toNat - 'A'.toNat + 10)
  else none

/-- The number that `n` hexadecimal digits write. -/
def readHex? : Nat → Nat → List Char → Option Nat
  | 0, acc, _ => some acc
  | _ + 1, _, [] => none
  | n + 1, acc, c :: cs => (hexValue? c).bind fun d => readHex? n (acc * 16 + d) cs

/-- The character of a code point, unless it is a surrogate or out of range. -/
def charOf? (n : Nat) : Option Char := if n.isValidChar then some (Char.ofNat n) else none

/-- The character of an escape that starts at a backslash, and how many characters it takes. -/
def readEscape (c : Cursor) : Except Fault (Char × Nat) :=
  match c.rest[1]? with
  | none => .error .malformedEscape
  | some letter =>
    let coded (n : Nat) : Except Fault (Char × Nat) :=
      match (readHex? n 0 (c.rest.drop 2)).bind charOf? with
      | some ch => .ok (ch, n + 2)
      | none => .error .malformedEscape
    match letter with
    | 'x' => coded 2
    | 'u' => coded 4
    | 'U' => coded 8
    | letter =>
      match escapes.lookup letter with
      | some ch => .ok (ch, 2)
      | none => .error .malformedEscape

/-- One word of a quoted scalar, onto `acc` in reverse, up to a blank, a break, the closing quote or an escaped
    break; whether it ended with an escaped break. -/
def readQuotedWord (single : Bool) : Nat → List Char → Cursor → Except Fault (List Char × Bool × Cursor)
  | 0, acc, c => .ok (acc, false, c)
  | fuel + 1, acc, c =>
    match c.head? with
    | none => .ok (acc, false, c)
    | some ch =>
      if isBlank ch || isBreak ch then .ok (acc, false, c)
      else if single then
        if ch = '\'' then
          if c.charAt 1 (· = '\'') then readQuotedWord single fuel ('\'' :: acc) (c.skip 2)
          else .ok (acc, false, c)
        else readQuotedWord single fuel (ch :: acc) (c.skip 1)
      else if ch = '"' then .ok (acc, false, c)
      else if ch = '\\' then
        if c.charAt 1 isBreak then .ok (acc, true, (c.skip 1).skipBreak)
        else
          match readEscape c with
          | .ok (ch, n) => readQuotedWord single fuel (ch :: acc) (c.skip n)
          | .error e => .error e
      else readQuotedWord single fuel (ch :: acc) (c.skip 1)

/-- The words and gaps of a quoted scalar, onto `acc` in reverse, and the position past the closing quote. -/
def readQuotedOn (single : Bool) : Nat → List Char → Cursor → Except Fault (List Char × Cursor)
  | 0, _, _ => .error .unfinishedQuote
  | fuel + 1, acc, c =>
    if c.atDocumentMarker || c.atEnd then .error .unfinishedQuote
    else do
      let (acc, escaped, c) ← readQuotedWord single c.bound acc c
      if c.nextIs (· = if single then '\'' else '"') then return (acc, c.skip 1)
      let (gap, c) ← readGap (-1) c.bound { Gap.none with broken := escaped } c
      readQuotedOn single fuel (gap.text.reverse ++ acc) c

/-- A quoted scalar, from its opening quote. -/
def readQuoted (single : Bool) (c : Cursor) : Except Fault (String × Cursor) := do
  let (acc, c) ← readQuotedOn single c.bound [] (c.skip 1)
  return (String.ofList acc.reverse, c)

/-! ### Plain scalars -/

/-- The indicators that end a plain scalar of a flow collection. -/
def isFlowEnd (c : Char) : Bool := c = ',' || c = '[' || c = ']' || c = '{' || c = '}'

/-- One word of a plain scalar, onto `acc` in reverse: up to a blank or break, a colon before one, and in a flow
    collection up to one of its indicators. -/
def readPlainWord (inFlow : Bool) : Nat → List Char → Cursor → Except Fault (List Char × Cursor)
  | 0, acc, c => .ok (acc, c)
  | fuel + 1, acc, c =>
    match c.head? with
    | none => .ok (acc, c)
    | some ch =>
      if isBlank ch || isBreak ch then .ok (acc, c)
      else if inFlow && ch = ':' && c.charAt 1 (fun n => isFlowEnd n || n = '?') then .error .unexpectedColon
      else if (ch = ':' && c.endsWordAt 1) || (inFlow && isFlowEnd ch) then .ok (acc, c)
      else readPlainWord inFlow fuel (ch :: acc) (c.skip 1)

/-- The words and gaps of a plain scalar that are indented to the column `floor` or, in a flow collection, at
    any column; a comment and a document marker end it. The last gap is given back apart. -/
def readPlainOn (inFlow : Bool) (floor : Int) :
    Nat → List Char → Gap → Cursor → Except Fault (List Char × Gap × Cursor)
  | 0, acc, gap, c => .ok (acc, gap, c)
  | fuel + 1, acc, gap, c =>
    if c.atDocumentMarker || c.nextIs (· = '#') then .ok (acc, gap, c)
    else do
      let (word, c) ← readPlainWord inFlow c.bound [] c
      let (acc, gap) := if word.isEmpty then (acc, gap) else (word ++ gap.text.reverse ++ acc, Gap.none)
      if c.nextIs fun ch => isBlank ch || isBreak ch then
        let (gap, c) ← readGap floor c.bound Gap.none c
        if !inFlow && (c.column : Int) < floor then return (acc, gap, c)
        readPlainOn inFlow floor fuel acc gap c
      else return (acc, gap, c)

/-- A plain scalar, whether a line break followed it, and the position past the blanks and breaks after it. -/
def readPlain (inFlow : Bool) (floor : Int) (c : Cursor) : Except Fault (String × Bool × Cursor) := do
  let (acc, gap, c) ← readPlainOn inFlow floor c.bound [] Gap.none c
  return (String.ofList acc.reverse, gap.broken, c)

/-! ### Block scalars -/

/-- What becomes of the line breaks at the end of a block scalar. -/
inductive Chomping where
  | strip
  | clip
  | keep
  deriving DecidableEq

/-- The indicators after `|` or `>`: a chomping sign and an indentation digit, in either order. -/
def readBlockHeader (c : Cursor) : Except Fault (Chomping × Nat × Cursor) :=
  let chomping (c : Cursor) : Option Chomping :=
    match c.head? with
    | some '+' => some .keep
    | some '-' => some .strip
    | _ => none
  let digit (c : Cursor) : Option Nat := c.head?.bind fun ch =>
    if '0' ≤ ch ∧ ch ≤ '9' then some (ch.toNat - '0'.toNat) else none
  match chomping c, digit c with
  | some k, _ =>
    match digit (c.skip 1) with
    | some 0 => .error .malformedBlockHeader
    | some d => .ok (k, d, c.skip 2)
    | none => .ok (k, 0, c.skip 1)
  | none, some 0 => .error .malformedBlockHeader
  | none, some d =>
    match chomping (c.skip 1) with
    | some k => .ok (k, d, c.skip 2)
    | none => .ok (.clip, d, c.skip 1)
  | none, none => .ok (.clip, 0, c)

/-- The indentation and line breaks in front of a line of a block scalar. While the indentation is not known
    (`0`) all spaces belong to it; `deepest` is the largest column seen. -/
def readIndentation (indent : Nat) : Nat → Nat → List Char → Cursor → Except Fault (Nat × List Char × Cursor)
  | 0, deepest, breaks, c => .ok (deepest, breaks, c)
  | fuel + 1, deepest, breaks, c =>
    let spaces := (c.rest.takeWhile (· = ' ')).length
    let c := c.skip (if indent = 0 then spaces else min spaces (indent - c.column))
    let deepest := max deepest c.column
    if (indent = 0 || c.column < indent) && c.nextIs (· = '\t') then .error .tabInIndentation
    else if c.nextIs isBreak then
      let (text, c) := c.takeBreak
      readIndentation indent fuel deepest (breaks ++ text) c
    else .ok (deepest, breaks, c)

/-- The lines of a block scalar indented to `indent`, onto `acc` in reverse, with the break of the last line and
    the breaks after it. -/
def readBlockLines (literal : Bool) (indent : Nat) :
    Nat → List Char → List Char → List Char → Bool → Cursor →
      Except Fault (List Char × List Char × List Char × Cursor)
  | 0, acc, last, breaks, _, c => .ok (acc, last, breaks, c)
  | fuel + 1, acc, last, breaks, indented, c =>
    if c.column = indent && !c.atEnd then do
      let blank := c.nextIs isBlank
      let acc :=
        if !literal && last = ['\n'] && !indented && !blank then (if breaks.isEmpty then ' ' :: acc else acc)
        else last.reverse ++ acc
      let acc := breaks.reverse ++ acc
      let (line, c) := c.takeWhile fun ch => !isBreak ch
      let (last, c) := c.takeBreak
      let (_, breaks, c) ← readIndentation indent c.bound 0 [] c
      readBlockLines literal indent fuel (line.reverse ++ acc) last breaks blank c
    else .ok (acc, last, breaks, c)

/-- A block scalar, from its indicator, inside a block indented to the column `parent`. -/
def readBlock (literal : Bool) (parent : Int) (c : Cursor) : Except Fault (String × Cursor) := do
  let (chomping, digit, c) ← readBlockHeader (c.skip 1)
  let c := c.skipWhile isBlank
  let c := if c.nextIs (· = '#') then c.skipWhile (fun ch => !isBreak ch) else c
  if !c.endsLineAt 0 then throw .malformedBlockHeader
  let c := c.skipBreak
  let base : Nat := if digit = 0 then 0 else (max parent 0).toNat + digit
  let (deepest, breaks, c) ← readIndentation base c.bound 0 [] c
  let indent := if base = 0 then max (max deepest (parent + 1).toNat) 1 else base
  let (acc, last, breaks, c) ← readBlockLines literal indent c.bound [] [] breaks false c
  let ending :=
    match chomping with
    | .strip => []
    | .clip => last
    | .keep => last ++ breaks
  return (String.ofList (acc.reverse ++ ending), c)

end Manifests.Yaml.Scalar
