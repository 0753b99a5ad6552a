import Manifests.Number.Digits

/-! # Texts and keys in TOML

A reader takes what it reads off the front of the characters and gives the rest, or fails. Texts are quoted in four
ways: with escapes or without, on one line or on several. -/

namespace Manifests.Toml

/-- Reads from the front of a text. -/
abbrev Reader (α : Type) := List Char → Option (α × List Char)

/-! ### Character classes -/

/-- A space or a tab. -/
def isBlank (c : Char) : Bool := c = ' ' || c = '\t'

/-- A character that may stand on a line as it is: no control character but the tab. -/
def isLineChar (c : Char) : Bool := c = '\t' || (0x20 ≤ c.toNat && c.toNat ≠ 0x7F)

/-- A character of a key without quotes. -/
def isBare (c : Char) : Bool :=
  ('a' ≤ c && c ≤ 'z') || ('A' ≤ c && c ≤ 'Z') || ('0' ≤ c && c ≤ '9') || c = '_' || c = '-'

/-- The characters after blanks. -/
def skipBlanks (cs : List Char) : List Char := cs.dropWhile isBlank

/-- The characters after a line break at the front. -/
def lineBreak? : List Char → Option (List Char)
  | '\n' :: cs => some cs
  | '\r' :: '\n' :: cs => some cs
  | _ => none

/-- The characters after a comment at the front, if there is one. -/
def skipComment : List Char → List Char
  | '#' :: cs => cs.dropWhile isLineChar
  | cs => cs

/-- The characters after the rest of a line, which holds blanks and a comment at most. -/
def lineEnd? (cs : List Char) : Option (List Char) :=
  match skipComment (skipBlanks cs) with
  | [] => some []
  | cs => lineBreak? cs

/-- The characters after blanks, comments and line breaks. -/
def skipLines : Nat → List Char → List Char
  | 0, cs => cs
  | fuel + 1, cs =>
    let cs := skipComment (skipBlanks cs)
    match lineBreak? cs with
    | some rest => skipLines fuel rest
    | none => cs

/-- The characters after blanks and line breaks. -/
def skipSpace : Nat → List Char → List Char
  | 0, cs => cs
  | fuel + 1, cs =>
    let cs := skipBlanks cs
    match lineBreak? cs with
    | some rest => skipSpace fuel rest
    | none => cs

/-! ### Texts -/

/-- The escapes of one letter. -/
def escapes : List (Char × Char) :=
  [('b', '\x08'), ('t', '\t'), ('n', '\n'), ('f', '\x0C'), ('r', '\r'), ('"', '"'), ('\\', '\\')]

/-- The character with a number in hexadecimal. -/
def charOf? (digits : List Char) : Option Char :=
  (Number.readNat? 16 digits).bind fun n => if n.isValidChar then some (Char.ofNat n) else none

/-- The character of an escape, after its backslash. -/
def readEscape : Reader Char
  | 'u' :: cs => if 4 ≤ cs.length then (charOf? (cs.take 4)).map (·, cs.drop 4) else none
  | 'U' :: cs => if 8 ≤ cs.length then (charOf? (cs.take 8)).map (·, cs.drop 8) else none
  | c :: cs => (escapes.lookup c).map (·, cs)
  | [] => none

/-- A text on one line after its opening quote, which is also its closing one, onto `acc` in reverse. Only double
    quotes have escapes. -/
def readQuoted (quote : Char) : Nat → List Char → Reader String
  | 0, _, _ => none
  | _ + 1, _, [] => none
  | fuel + 1, acc, c :: cs =>
    if c = quote then some (String.ofList acc.reverse, cs)
    else if c = '\\' ∧ quote = '"' then do
      let (c, cs) ← readEscape cs
      readQuoted quote fuel (c :: acc) cs
    else if isLineChar c then readQuoted quote fuel (c :: acc) cs
    else none

/-- A text on several lines after its three opening quotes. Up to two quotes stand for themselves, also in front of
    the three closing ones. A backslash at the end of a line takes the space after it away. -/
def readLines (quote : Char) : Nat → List Char → Reader String
  | 0, _, _ => none
  | _ + 1, _, [] => none
  | fuel + 1, acc, c :: cs =>
    if c = quote then
      let run := ((c :: cs).takeWhile (· = quote)).length
      if run < 3 then readLines quote fuel (c :: acc) cs
      else
        let own := min (run - 3) 2
        some (String.ofList (List.replicate own quote ++ acc).reverse, (c :: cs).drop (own + 3))
    else if c = '\\' ∧ quote = '"' then
      match lineBreak? (skipBlanks cs) with
      | some rest => readLines quote fuel acc (skipSpace (rest.length + 1) rest)
      | none => do
        let (c, cs) ← readEscape cs
        readLines quote fuel (c :: acc) cs
    else
      match lineBreak? (c :: cs) with
      | some rest => readLines quote fuel ('\n' :: acc) rest
      | none => if isLineChar c then readLines quote fuel (c :: acc) cs else none

/-- A text in quotes. A line break right after three opening quotes does not count. -/
def readText : Reader String
  | '"' :: '"' :: '"' :: cs => readLines '"' (cs.length + 1) [] ((lineBreak? cs).getD cs)
  | '\'' :: '\'' :: '\'' :: cs => readLines '\'' (cs.length + 1) [] ((lineBreak? cs).getD cs)
  | '"' :: cs => readQuoted '"' (cs.length + 1) [] cs
  | '\'' :: cs => readQuoted '\'' (cs.length + 1) [] cs
  | _ => none

/-! ### Keys -/

/-- One key: bare, or in quotes on one line. -/
def readSimpleKey : Reader String
  | '"' :: cs => readQuoted '"' (cs.length + 1) [] cs
  | '\'' :: cs => readQuoted '\'' (cs.length + 1) [] cs
  | cs =>
    let bare := cs.takeWhile isBare
    if bare.isEmpty then none else some (String.ofList bare, cs.dropWhile isBare)

/-- Keys with points between them, and the blanks after them. -/
def readKey : Nat → Reader (List String)
  | 0, _ => none
  | fuel + 1, cs => do
    let (key, cs) ← readSimpleKey (skipBlanks cs)
    match skipBlanks cs with
    | '.' :: cs =>
      let (keys, cs) ← readKey fuel cs
      return (key :: keys, cs)
    | cs => return ([key], cs)

end Manifests.Toml
