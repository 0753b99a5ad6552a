import Manifests.Toml.Table
import Manifests.Toml.Text

/-! # Documents of TOML

A document is a list of lines: keys with values, and headers that open tables. The values that are understood are
texts, lists and tables in braces; numbers, truth values and dates are no settings, and a document with one is
refused. -/

namespace Manifests.Toml

/-! ### Values -/

/-- The entries of a table in braces after its opening brace, onto the entries so far. -/
def readBraces (read : Reader Value) : Nat → Table → Reader Table
  | 0, _, _ => none
  | fuel + 1, table, cs => do
    let (keys, cs) ← readKey (cs.length + 1) cs
    match cs with
    | '=' :: cs =>
      let (value, cs) ← read (skipBlanks cs)
      let table ← table.put value false keys
      match skipBlanks cs with
      | ',' :: cs => readBraces read fuel table cs
      | '\x7d' :: cs => return (table, cs)
      | _ => none
    | _ => none

/-- The items of a list after its opening bracket, onto the items so far. -/
def readItems (read : Reader Value) : Nat → List Value → Reader (List Value)
  | 0, _, _ => none
  | fuel + 1, items, cs =>
    match skipLines (cs.length + 1) cs with
    | ']' :: cs => some (items, cs)
    | cs => do
      let (item, cs) ← read cs
      match skipLines (cs.length + 1) cs with
      | ',' :: cs => readItems read fuel (items ++ [item]) cs
      | ']' :: cs => return (items ++ [item], cs)
      | _ => none

/-- A value that nests at most as deep as the fuel says. -/
def readValue : Nat → Reader Value
  | 0, _ => none
  | fuel + 1, cs =>
    match cs with
    | '[' :: cs => (readItems (readValue fuel) (cs.length + 1) [] cs).map fun (items, cs) => (.list items, cs)
    | '\x7b' :: cs =>
      match skipBlanks cs with
      | '\x7d' :: rest => some (.map [], rest)
      | _ =>
        (readBraces (readValue fuel) (cs.length + 1) [] cs).map fun (table, cs) => (.map (Node.valuesOf table), cs)
    | cs => (readText cs).map fun (s, cs) => (.text s, cs)

/-! ### Lines -/

/-- How deep values may nest. -/
def depthLimit : Nat := 80

/-- A line of a document. -/
inductive Line where
  /-- A key with its value. -/
  | entry (keys : List String) (value : Value)
  /-- The header of a table, or of one of several. -/
  | header (several : Bool) (keys : List String)

/-- The end of a header after its keys. -/
def closeHeader? (several : Bool) : List Char → Option (List Char)
  | ']' :: ']' :: cs => if several then lineEnd? cs else none
  | ']' :: cs => if several then none else lineEnd? cs
  | _ => none

/-- A line that is not blank, and what follows it. -/
def readLine : Reader Line
  | '[' :: '[' :: cs => do
    let (keys, cs) ← readKey (cs.length + 1) cs
    return (.header true keys, ← closeHeader? true cs)
  | '[' :: cs => do
    let (keys, cs) ← readKey (cs.length + 1) cs
    return (.header false keys, ← closeHeader? false cs)
  | cs => do
    let (keys, cs) ← readKey (cs.length + 1) cs
    match cs with
    | '=' :: cs =>
      let (value, cs) ← readValue depthLimit (skipBlanks cs)
      return (.entry keys value, ← lineEnd? cs)
    | _ => none

/-- The lines of a document that are not blank. -/
def readLinesOf : Nat → List Char → Option (List Line)
  | 0, _ => none
  | fuel + 1, cs =>
    match skipLines (cs.length + 1) cs with
    | [] => some []
    | cs => do
      let (line, cs) ← readLine cs
      return line :: (← readLinesOf fuel cs)

/-! ### Sections -/

/-- The entries up to the next header put into a table. -/
def fillTable : List Line → Table → Option Table
  | .entry keys value :: lines, table => do fillTable lines (← table.put value false keys)
  | _, table => some table

/-- The lines from the next header on. -/
def fromHeader : List Line → List Line
  | .entry .. :: lines => fromHeader lines
  | lines => lines

/-- The tables of the headers put into the table of a document. -/
def addSections : Nat → List Line → Table → Option Table
  | 0, _, _ => none
  | fuel + 1, lines, table =>
    match lines with
    | .header several keys :: lines => do
      addSections fuel (fromHeader lines) (← table.openTable several (fillTable lines) keys)
    | _ => some table

/-- The tree of a document. -/
def read (text : String) : Option Value := do
  let cs :=
    match text.toList with
    | '\uFEFF' :: cs => cs
    | cs => cs
  let lines ← readLinesOf (cs.length + 1) cs
  let table ← fillTable lines []
  let table ← addSections (lines.length + 1) (fromHeader lines) table
  return .map (Node.valuesOf table)

end Manifests.Toml
