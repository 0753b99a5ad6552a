import Manifests.Yaml.Cursor
import Manifests.Yaml.Tree

/-! # Scalars as they are printed

A text is printed plain if it reads back as the same text, in single quotes if it would be read as something else,
as a literal block if it has several lines, and in double quotes if it has characters that need an escape. -/

namespace Manifests.Yaml.Printer

/-! ### Properties of a text -/

/-- A character that is printed as it is. -/
def isPrintable (c : Char) : Bool :=
  let n := c.toNat
  c = '\n' || (0x20 ≤ n && n ≤ 0x7E) || (0xA0 ≤ n && n ≤ 0xD7FF) ||
    (0xE000 ≤ n && n ≤ 0xFFFD && c ≠ byteOrderMark) || 0x10000 ≤ n

/-- The text would not be read as a text if it were printed plain. -/
def readsAsOther (cs : List Char) : Bool :=
  let s := String.ofList cs
  let isInt :=
    match Tree.classifyInt cs with
    | .none => false
    | _ => true
  s = "" || Tree.isNullWord s || (Tree.readBool? s).isSome || isInt || Tree.hasLeadingZero cs ||
    (Tree.readFloat? cs).isSome

/-- Some character that satisfies `p` is followed by one that satisfies `q`. -/
def hasPair (p q : Char → Bool) : List Char → Bool
  | c :: d :: cs => (p c && q d) || hasPair p q (d :: cs)
  | _ => false

def isSpace (c : Char) : Bool := c = ' '

/-- The characters that mean something at the start of a plain scalar. -/
def indicators : List Char :=
  ['#', ',', '[', ']', '\x7b', '\x7d', '&', '*', '!', '|', '>', '\'', '"', '%', '@', '\x60']

/-- The text starts like something else than a plain scalar. -/
def startsAsIndicator (cs : List Char) : Bool :=
  ['-', '-', '-'].isPrefixOf cs || ['.', '.', '.'].isPrefixOf cs ||
    match cs with
    | c :: rest => indicators.contains c || ((c = '?' || c = '-') && rest.head?.all isSpace)
    | [] => false

/-- A colon that ends a key or a hash that starts a comment is in the text. -/
def holdsIndicator (cs : List Char) : Bool :=
  cs.getLast? = some ':' || hasPair (· = ':') isSpace cs || hasPair isSpace (· = '#') cs

/-- The text may be printed plain. -/
def allowsPlain (cs : List Char) : Bool :=
  cs.all (fun c => isPrintable c && !isBreak c) && cs.head? ≠ some ' ' && cs.getLast? ≠ some ' ' &&
    !startsAsIndicator cs && !holdsIndicator cs

/-- The text may be printed in single quotes. -/
def allowsSingle (cs : List Char) : Bool :=
  cs.all isPrintable && !hasPair isBreak isSpace cs && !hasPair isSpace isBreak cs

/-- The text may be printed as a literal block. -/
def allowsLiteral (cs : List Char) : Bool :=
  cs.all isPrintable && cs.getLast? ≠ some ' ' && !hasPair isSpace isBreak cs

/-! ### Styles -/

/-- How a scalar is printed. -/
inductive Style where
  | plain
  | single
  | double
  | literal
  deriving DecidableEq

/-- The style of a text. -/
def styleOf (cs : List Char) : Style :=
  if cs.contains '\n' then (if allowsLiteral cs then .literal else .double)
  else if !readsAsOther cs && allowsPlain cs then .plain
  else if allowsSingle cs then .single
  else .double

/-- The spaces of an indentation. -/
def spaces (indent : Nat) : List Char := List.replicate indent ' '

/-- A text in single quotes, after its first quote. Lines after a break are indented. -/
def singleQuoted (indent : Nat) (afterBreak : Bool) : List Char → List Char
  | [] => (if afterBreak then spaces indent else []) ++ ['\'']
  | c :: cs =>
    if isBreak c then c :: singleQuoted indent true cs
    else
      (if afterBreak then spaces indent else []) ++ (if c = '\'' then ['\'', '\''] else [c]) ++
        singleQuoted indent false cs

def escapeLetters : List (Char × Char) :=
  [('\x00', '0'), ('\x07', 'a'), ('\x08', 'b'), ('\t', 't'), ('\n', 'n'), ('\x0B', 'v'), ('\x0C', 'f'),
   ('\r', 'r'), ('\x1B', 'e'), ('"', '"'), ('\\', '\\'), ('\x85', 'N'), ('\u2028', 'L'), ('\u2029', 'P')]

/-- A hexadecimal digit in upper case. -/
def hexDigit (n : Nat) : Char := if n < 10 then Char.ofNat ('0'.toNat + n) else Char.ofNat ('A'.toNat + n - 10)

/-- A number with the given count of hexadecimal digits. -/
def hexDigits : Nat → Nat → List Char
  | 0, _ => []
  | count + 1, n => hexDigits count (n / 16) ++ [hexDigit (n % 16)]

/-- A character in double quotes. -/
def escape (c : Char) : List Char :=
  match escapeLetters.lookup c with
  | some letter => ['\\', letter]
  | none =>
    if isPrintable c then [c]
    else if c.toNat ≤ 0xFF then '\\' :: 'x' :: hexDigits 2 c.toNat
    else if c.toNat ≤ 0xFFFF then '\\' :: 'u' :: hexDigits 4 c.toNat
    else '\\' :: 'U' :: hexDigits 8 c.toNat

/-- The sign after the indicator of a literal block that says what becomes of the breaks at the end. -/
def chompingSign (cs : List Char) : List Char :=
  match cs.reverse with
  | c :: rest => if !isBreak c then ['-'] else if rest.head?.all isBreak then ['+'] else []
  | [] => ['-']

/-- The lines of a literal block. -/
def literalLines (indent : Nat) (atStart : Bool) : List Char → List Char
  | [] => []
  | c :: cs =>
    if isBreak c then c :: literalLines indent true cs
    else (if atStart then spaces indent else []) ++ c :: literalLines indent false cs

/-- A literal block. A block that begins with a space or a break says how deep it is indented. -/
def literalBlock (indent : Nat) (cs : List Char) : List Char :=
  let depth := if cs.head?.any fun c => isSpace c || isBreak c then ['2'] else []
  '|' :: depth ++ chompingSign cs ++ '\n' :: literalLines indent true cs

/-- A text in its style, where further lines are indented to `indent`. -/
def scalar (indent : Nat) (s : String) : String :=
  let cs := s.toList
  String.ofList <|
    match styleOf cs with
    | .plain => cs
    | .single => '\'' :: singleQuoted indent false cs
    | .double => '"' :: cs.flatMap escape ++ ['"']
    | .literal => literalBlock indent cs

end Manifests.Yaml.Printer
