/-! # Reading positions

The characters a YAML text may hold, the classes that the token rules speak of, and a position in a text: what
is left to read, with the line, the column and the number of characters read. -/

namespace Manifests.Yaml

/-! ### Character classes -/

/-- The characters that may stand in a YAML text: no control characters but tab and line breaks, and no
    noncharacters of the basic plane. -/
def isReadable (c : Char) : Bool :=
  let n := c.toNat
  n = 0x9 || n = 0xA || n = 0xD || (0x20 ≤ n && n ≤ 0x7E) || n = 0x85 || (0xA0 ≤ n && n ≤ 0xD7FF) ||
    (0xE000 ≤ n && n ≤ 0xFFFD) || 0x10000 ≤ n

/-- A line break: line feed, carriage return, next line, and the line and paragraph separators. -/
def isBreak (c : Char) : Bool :=
  c = '\n' || c = '\r' || c = '\x85' || c = '\u2028' || c = '\u2029'

/-- A space or a tab. -/
def isBlank (c : Char) : Bool := c = ' ' || c = '\t'

/-- A character of an anchor's name, a directive's name or a tag's handle. -/
def isWord (c : Char) : Bool :=
  ('0' ≤ c && c ≤ '9') || ('A' ≤ c && c ≤ 'Z') || ('a' ≤ c && c ≤ 'z') || c = '_' || c = '-'

def byteOrderMark : Char := '\uFEFF'

/-! ### Positions -/

/-- A position in a text. -/
structure Cursor where
  rest : List Char
  line : Nat
  column : Nat
  index : Nat
  /-- More than the characters that are left, so that a loop over them ends. -/
  bound : Nat

namespace Cursor

def start (text : List Char) : Cursor := ⟨text, 0, 0, 0, text.length + 1⟩

/-- The next character. -/
def head? (c : Cursor) : Option Char := c.rest.head?

/-- The character `n` places on satisfies `p`; past the end none does. -/
def charAt (c : Cursor) (n : Nat) (p : Char → Bool) : Bool := c.rest[n]?.any p

/-- The next character satisfies `p`. -/
def nextIs (c : Cursor) (p : Char → Bool) : Bool := c.charAt 0 p

/-- Nothing is left. -/
def atEnd (c : Cursor) : Bool := c.rest.isEmpty

/-- The place `n` characters on is a line break or the end. -/
def endsLineAt (c : Cursor) (n : Nat) : Bool := c.rest[n]?.all isBreak

/-- The place `n` characters on is a blank, a line break or the end. -/
def endsWordAt (c : Cursor) (n : Nat) : Bool := c.rest[n]?.all fun ch => isBlank ch || isBreak ch

/-- Past `n` characters of the line. -/
def skip (c : Cursor) (n : Nat) : Cursor := ⟨c.rest.drop n, c.line, c.column + n, c.index + n, c.bound⟩

/-- The longest run of characters of the line that satisfy `p`, and the position past it. -/
def takeWhile (c : Cursor) (p : Char → Bool) : List Char × Cursor :=
  let run := c.rest.takeWhile p
  (run, c.skip run.length)

/-- Past the characters of the line that satisfy `p`. -/
def skipWhile (c : Cursor) (p : Char → Bool) : Cursor := (c.takeWhile p).2

/-- The line break at this position as it counts in a scalar, and the position past it. A carriage return with
    a line feed is one break; all breaks but the separators count as a line feed. -/
def takeBreak (c : Cursor) : List Char × Cursor :=
  match c.rest with
  | '\r' :: '\n' :: rest => (['\n'], ⟨rest, c.line + 1, 0, c.index + 2, c.bound⟩)
  | ch :: rest =>
    if ch = '\u2028' ∨ ch = '\u2029' then ([ch], ⟨rest, c.line + 1, 0, c.index + 1, c.bound⟩)
    else if isBreak ch then (['\n'], ⟨rest, c.line + 1, 0, c.index + 1, c.bound⟩)
    else ([], c)
  | [] => ([], c)

/-- Past the line break at this position. -/
def skipBreak (c : Cursor) : Cursor := c.takeBreak.2

/-- The position starts a line that begins with the marker, followed by a blank, a line break or the end. -/
def atMarker (c : Cursor) (marker : List Char) : Bool :=
  c.column = 0 && marker.isPrefixOf c.rest && c.endsWordAt marker.length

/-- The position starts a line with one of the document markers. -/
def atDocumentMarker (c : Cursor) : Bool := c.atMarker ['-', '-', '-'] || c.atMarker ['.', '.', '.']

end Cursor

end Manifests.Yaml
