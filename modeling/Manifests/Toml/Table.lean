import Manifests.Value

/-! # Tables of TOML

A table grows as its document is read. How it came about decides what may still be added: a table in braces is
closed, a table with a header is not opened again, and a table that dotted keys made is added to by dotted keys
alone. -/

namespace Manifests.Toml

/-- How a table came about. -/
inductive Origin where
  /-- It has a header of its own. -/
  | header
  /-- The header of a table inside it names it. -/
  | passed
  /-- A dotted key names it. -/
  | dotted
  deriving DecidableEq

/-- What stands at a key. -/
inductive Node where
  /-- A value that nothing is added to. -/
  | closed (value : Value)
  /-- A table. -/
  | table (origin : Origin) (entries : List (String × Node))
  /-- A list of tables that have the same header; the last may grow. -/
  | tables (done : List (List (String × Node))) (last : List (String × Node))

/-- The nodes of a table. -/
abbrev Table := List (String × Node)

namespace Table

/-- Changes what stands at a key: `change` is told what stands there. -/
def update (key : String) (change : Option Node → Option Node) : Table → Option Table
  | [] => do return [(key, ← change none)]
  | (k, node) :: rest =>
    if k = key then do return (k, ← change (some node)) :: rest
    else do return (k, node) :: (← update key change rest)

/-- Puts a value at a dotted key. `dotted` says that the table itself was made by a dotted key. -/
def put (value : Value) : (dotted : Bool) → List String → Table → Option Table
  | _, [], _ => none
  | _, [key], table =>
    table.update key fun
      | none => some (.closed value)
      | some _ => none
  | _, key :: next :: keys, table =>
    table.update key fun
      | none => (put value true (next :: keys) []).map (.table .dotted)
      | some (.table .dotted inner) => (put value true (next :: keys) inner).map (.table .dotted)
      | some (.table .passed inner) =>
        if keys.isEmpty then none else (put value false (next :: keys) inner).map (.table .passed)
      | some _ => none

/-- Opens the table of a header and fills it. `several` says that the header belongs to a list of tables. -/
def openTable (several : Bool) (fill : Table → Option Table) : List String → Table → Option Table
  | [], _ => none
  | [key], table =>
    table.update key fun
      | none => if several then (fill []).map (.tables []) else (fill []).map (.table .header)
      | some (.tables done last) => if several then (fill []).map (.tables (done ++ [last])) else none
      | some (.table .passed inner) => if several then none else (fill inner).map (.table .header)
      | some _ => none
  | key :: next :: keys, table =>
    table.update key fun
      | none => (openTable several fill (next :: keys) []).map (.table .passed)
      | some (.table origin inner) => (openTable several fill (next :: keys) inner).map (.table origin)
      | some (.tables done last) => (openTable several fill (next :: keys) last).map (.tables done)
      | some (.closed _) => none

end Table

namespace Node

mutual

def value : Node → Value
  | .closed v => v
  | .table _ entries => .map (valuesOf entries)
  | .tables done last => .list (mapsOf done ++ [.map (valuesOf last)])

def valuesOf : List (String × Node) → List Entry
  | [] => []
  | (key, node) :: rest => (key, node.value) :: valuesOf rest

def mapsOf : List (List (String × Node)) → List Value
  | [] => []
  | entries :: rest => .map (valuesOf entries) :: mapsOf rest

end

end Node

end Manifests.Toml
