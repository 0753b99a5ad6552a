import Manifests.Yaml.Cursor
import Manifests.Yaml.Fault

/-! # Tags and directives as written

A tag is a handle and a suffix. The handle is `!`, `!!` or a word between exclamation marks; a verbatim tag has
the empty handle, and so has the tag `!` alone. A directive gives the version of the language or what a handle
stands for. -/

namespace Manifests.Yaml.Tag

/-! ### Escaped octets -/

/-- The character with the given octets in UTF-8, with the replacement character for octets that encode none. -/
def ofOctets (octets : List UInt8) : Char :=
  match String.fromUTF8? ⟨octets.toArray⟩ with
  | some s => s.toList.headD '\uFFFD'
  | none => '\uFFFD'

/-- The value of a hexadecimal digit. -/
def hexValue? (c : Char) : Option Nat :=
  if '0' ≤ c ∧ c ≤ '9' then some (c.toNat - '0'.toNat)
  else if 'a' ≤ c ∧ c ≤ 'f' then some (c.toNat - 'a'.toNat + 10)
  else if 'A' ≤ c ∧ c ≤ 'F' then some (c.toNat - 'A'.toNat + 10)
  else none

/-- An octet written as a percent sign and two hexadecimal digits. -/
def readOctet? : List Char → Option Nat
  | '%' :: a :: b :: _ => do return (← hexValue? a) * 16 + (← hexValue? b)
  | _ => none

/-- How many octets follow a first octet of UTF-8. -/
def octetsAfter? (first : Nat) : Option Nat :=
  if first < 0x80 then some 0
  else if 0xC0 ≤ first ∧ first < 0xE0 then some 1
  else if 0xE0 ≤ first ∧ first < 0xF0 then some 2
  else if 0xF0 ≤ first ∧ first < 0xF8 then some 3
  else none

/-- `n` octets that continue a character. -/
def readContinuation : Nat → Cursor → Except Fault (List UInt8 × Cursor)
  | 0, c => .ok ([], c)
  | n + 1, c =>
    match readOctet? c.rest with
    | none => .error .malformedTag
    | some o =>
      if 0x80 ≤ o ∧ o < 0xC0 then do
        let (octets, c) ← readContinuation n (c.skip 3)
        return (UInt8.ofNat o :: octets, c)
      else .error .malformedTag

/-- A character written as escaped octets. -/
def readEscaped (c : Cursor) : Except Fault (Char × Cursor) :=
  match readOctet? c.rest with
  | none => .error .malformedTag
  | some first =>
    match octetsAfter? first with
    | none => .error .malformedTag
    | some n => do
      let (octets, c) ← readContinuation n (c.skip 3)
      return (ofOctets (UInt8.ofNat first :: octets), c)

/-! ### Handles and suffixes -/

/-- A character of a suffix; in a verbatim tag and in a directive also the comma and the square brackets. -/
def isSuffixChar (verbatim : Bool) (c : Char) : Bool :=
  isWord c || ";/?:@&=+$.%!~*'()".toList.contains c || (verbatim && (c = ',' || c = '[' || c = ']'))

/-- A suffix, onto `acc` in reverse. -/
def readSuffixOn (verbatim : Bool) : Nat → List Char → Cursor → Except Fault (List Char × Cursor)
  | 0, acc, c => .ok (acc, c)
  | fuel + 1, acc, c =>
    match c.head? with
    | none => .ok (acc, c)
    | some ch =>
      if ch = '%' then do
        let (ch, c) ← readEscaped c
        readSuffixOn verbatim fuel (ch :: acc) c
      else if isSuffixChar verbatim ch then readSuffixOn verbatim fuel (ch :: acc) (c.skip 1)
      else .ok (acc, c)

/-- A suffix that continues `before`; the whole may not be empty unless `before` stands for a read mark. -/
def readSuffix (verbatim : Bool) (before : List Char) (mayBeEmpty : Bool) (c : Cursor) :
    Except Fault (String × Cursor) := do
  let (acc, c) ← readSuffixOn verbatim c.bound before.reverse c
  if acc.isEmpty && !mayBeEmpty then throw .malformedTag
  return (String.ofList acc.reverse, c)

/-- An exclamation mark and a word, and whether a second exclamation mark closes it. -/
def readHandle (c : Cursor) : Except Fault (List Char × Bool × Cursor) :=
  if c.nextIs (· = '!') then
    let (word, c) := (c.skip 1).takeWhile isWord
    if c.nextIs (· = '!') then .ok (word, true, c.skip 1) else .ok (word, false, c)
  else .error .malformedTag

def handleText (word : List Char) : String := String.ofList ('!' :: word ++ ['!'])

/-- A tag in the text of a document, as handle and suffix. A blank, a break or, in a flow collection, a comma
    follows it. -/
def read (inFlow : Bool) (c : Cursor) : Except Fault (String × String × Cursor) := do
  let (handle, suffix, c) ←
    if c.charAt 1 (· = '<') then do
      let (suffix, c) ← readSuffix true [] false (c.skip 2)
      if c.nextIs (· = '>') then pure ("", suffix, c.skip 1) else throw Fault.malformedTag
    else do
      let (word, closed, c) ← readHandle c
      if closed then
        let (suffix, c) ← readSuffix false [] false c
        pure (handleText word, suffix, c)
      else
        let (suffix, c) ← readSuffix false word true c
        if suffix.isEmpty then pure ("", "!", c) else pure ("!", suffix, c)
  if c.endsWordAt 0 || (inFlow && c.nextIs (· = ',')) then return (handle, suffix, c)
  else throw .malformedTag

/-! ### Directives -/

/-- One number of a version, of at most nine digits. -/
def readVersionNumber (c : Cursor) : Except Fault (Nat × Cursor) :=
  let (digits, c) := c.takeWhile fun ch => '0' ≤ ch && ch ≤ '9'
  if digits.isEmpty || digits.length > 9 then .error .malformedDirective
  else .ok (digits.foldl (fun n ch => n * 10 + (ch.toNat - '0'.toNat)) 0, c)

/-- Two version numbers with a point between them. -/
def readVersion (c : Cursor) : Except Fault (Nat × Nat × Cursor) := do
  let (major, c) ← readVersionNumber (c.skipWhile isBlank)
  if !c.nextIs (· = '.') then throw .malformedDirective
  let (minor, c) ← readVersionNumber (c.skip 1)
  return (major, minor, c)

/-- A handle and what it stands for. -/
def readDeclaration (c : Cursor) : Except Fault (String × String × Cursor) := do
  let (word, closed, c) ← readHandle (c.skipWhile isBlank)
  if !closed && !word.isEmpty then throw .malformedDirective
  if !c.nextIs isBlank then throw .malformedDirective
  let (stem, c) ← readSuffix true [] false (c.skipWhile isBlank)
  if !c.endsWordAt 0 then throw .malformedDirective
  return (if closed then handleText word else "!", stem, c)

/-- The end of a directive: blanks, a comment, and the end of the line. -/
def readDirectiveEnd (c : Cursor) : Except Fault Cursor :=
  let c := c.skipWhile isBlank
  let c := if c.nextIs (· = '#') then c.skipWhile (fun ch => !isBreak ch) else c
  if c.endsLineAt 0 then .ok c.skipBreak else .error .malformedDirective

end Manifests.Yaml.Tag
