import Manifests.Number.Digits

/-! # JSON output

Trees of JSON, and their text with one entry or item on a line and two spaces for each level. Empty lists and
objects are written without a break. -/

namespace Manifests

/-- A JSON tree. The entries of an object keep their order. -/
inductive Json where
  | null
  | bool (b : Bool)
  | number (n : Int)
  | text (s : String)
  | list (items : List Json)
  | object (entries : List (String × Json))

namespace Json

/-- A text, or null. -/
def ofText? : Option String → Json
  | some s => .text s
  | none => .null

/-! ### Texts -/

/-- The hexadecimal digit of a number below 16. -/
def hexDigit (n : Nat) : Char := if n < 10 then Char.ofNat ('0'.toNat + n) else Char.ofNat ('a'.toNat + n - 10)

/-- A character inside quotes: quotes, backslashes and control characters are escaped. -/
def escape (c : Char) : List Char :=
  match c with
  | '"' => ['\\', '"']
  | '\\' => ['\\', '\\']
  | '\n' => ['\\', 'n']
  | '\r' => ['\\', 'r']
  | '\t' => ['\\', 't']
  | '\x08' => ['\\', 'b']
  | '\x0C' => ['\\', 'f']
  | c => if c.toNat < 0x20 then ['\\', 'u', '0', '0', hexDigit (c.toNat / 16), hexDigit (c.toNat % 16)] else [c]

/-- A text in quotes. -/
def quote (s : String) : String := String.ofList ('"' :: s.toList.flatMap escape ++ ['"'])

/-! ### Trees -/

/-- A line break and the indentation of a level. -/
def newLine (level : Nat) : String := String.ofList ('\n' :: List.replicate (2 * level) ' ')

mutual

/-- The text of a tree on the given level. -/
def write (level : Nat) : Json → String
  | .null => "null"
  | .bool b => if b then "true" else "false"
  | .number n => Number.decimal n
  | .text s => quote s
  | .list [] => "[]"
  | .list items => "[" ++ writeItems (level + 1) items ++ newLine level ++ "]"
  | .object [] => "\x7b\x7d"
  | .object entries => "\x7b" ++ writeEntries (level + 1) entries ++ newLine level ++ "\x7d"

/-- The items of a list, each on a line of its own. -/
def writeItems (level : Nat) : List Json → String
  | [] => ""
  | [item] => newLine level ++ write level item
  | item :: items => newLine level ++ write level item ++ "," ++ writeItems level items

/-- The entries of an object, each on a line of its own. -/
def writeEntries (level : Nat) : List (String × Json) → String
  | [] => ""
  | [(key, value)] => newLine level ++ quote key ++ ": " ++ write level value
  | (key, value) :: entries =>
    newLine level ++ quote key ++ ": " ++ write level value ++ "," ++ writeEntries level entries

end

/-- The text of a tree. -/
def pretty (tree : Json) : String := write 0 tree

end Json

end Manifests
