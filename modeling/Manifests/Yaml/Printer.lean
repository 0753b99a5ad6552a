import Manifests.Value
import Manifests.Yaml.Printer.Scalar

/-! # Printing trees

Trees are printed in block style with two spaces for each level. The items of a list stand at the indentation of
their key. A key that is too long or has a line break is marked as one, and its value stands on a line of its own. -/

namespace Manifests.Yaml.Printer

/-- A break and an indentation, but no break after a text that ends with one. -/
def nextLine (indent : Nat) (before : String) : String :=
  String.ofList ((if before.toList.getLast?.any isBreak then [] else ['\n']) ++ spaces indent)

/-- Texts on lines of their own. -/
def onLines (indent : Nat) : List String → String
  | [] => ""
  | [s] => s
  | s :: rest => s ++ nextLine indent s ++ onLines indent rest

/-- The most bytes that a key has which is not marked as one. -/
def maxSimpleKey : Nat := 128

/-- A key that is not marked as one. -/
def isSimpleKey (key : String) : Bool := key.utf8ByteSize ≤ maxSimpleKey && !key.toList.any isBreak

/-- The text of a double. -/
def float (x : Binary64) : String :=
  match x with
  | .nan => ".nan"
  | .infinity negative => if negative then "-.inf" else ".inf"
  | x => x.text

mutual

/-- A value after a mark in the column `indent`, on the line of the mark. -/
def inline (indent : Nat) : Value → String
  | .null => " null"
  | .bool b => if b then " true" else " false"
  | .int i => " " ++ Number.decimal i.toInt
  | .float x => " " ++ float x
  | .text s => " " ++ scalar (indent + 2) s
  | .map [] => " \x7b\x7d"
  | .map entries => " " ++ onLines (indent + 2) (entryTexts (indent + 2) entries)
  | .list [] => " []"
  | .list items => " " ++ onLines (indent + 2) (itemTexts (indent + 2) items)

/-- A value after a key in the column `indent`: a collection starts on the next line. -/
def afterKey (indent : Nat) : Value → String
  | .map (entry :: entries) =>
    "\n" ++ String.ofList (spaces (indent + 2)) ++
      onLines (indent + 2) (entryTexts (indent + 2) (entry :: entries))
  | .list (item :: items) =>
    "\n" ++ String.ofList (spaces indent) ++ onLines indent (itemTexts indent (item :: items))
  | other => inline indent other

/-- The entries of a mapping in the column `indent`. -/
def entryTexts (indent : Nat) : List Entry → List String
  | [] => []
  | (key, value) :: entries =>
    let text := scalar (indent + 2) key
    let entry :=
      if isSimpleKey key then text ++ ":" ++ afterKey indent value
      else "? " ++ text ++ nextLine indent text ++ ":" ++ inline indent value
    entry :: entryTexts indent entries

/-- The items of a list in the column `indent`. -/
def itemTexts (indent : Nat) : List Value → List String
  | [] => []
  | item :: items => ("-" ++ inline indent item) :: itemTexts indent items

end

/-- The document of a mapping. -/
def document (entries : List Entry) : String :=
  let text := if entries.isEmpty then "\x7b\x7d" else onLines 0 (entryTexts 0 entries)
  text ++ nextLine 0 text

end Manifests.Yaml.Printer
