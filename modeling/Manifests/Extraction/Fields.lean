import Manifests.Extraction.Defect
import Manifests.TextMap
import Manifests.Text.Blank

/-! # Reading fields

A record of a declaration has a closed set of fields. Reading it first looks every key up in that set, so that a
key outside it is the first defect found, and then reads the fields in the order of their entries. A null value
counts as an absent field. -/

namespace Manifests.Extraction

/-- What reading gives: a value or the first defect. -/
abbrev Result (α : Type) := Except Defect α

/-- Reads the value at a path. -/
abbrev Reader (α : Type) := FieldPath → Value → Result α

/-! ### Values -/

/-- A value of another shape than expected. -/
def mismatch {α : Type} (path : FieldPath) (what : Expected) (found : Value) : Result α :=
  .error ⟨path, .expected what found.shape⟩

def readMapping : Reader (List Entry)
  | _, .map entries => .ok entries
  | path, other => mismatch path .mapping other

def readList : Reader (List Value)
  | _, .list items => .ok items
  | path, other => mismatch path .list other

/-- The text of a scalar of any type. -/
def readText : Reader String := fun path value =>
  match value.scalarText? with
  | some text => .ok text
  | none => mismatch path .scalar value

/-- An integer, or a text that writes one between blanks. -/
def readInt : Reader Int64
  | _, .int i => .ok i
  | path, .text s =>
    match Number.readInt64? (Text.trim s.toList) with
    | some i => .ok i
    | none => .error ⟨path, .notInteger s⟩
  | path, other => mismatch path .integer other

/-- An integer, where `-1` stands for none. -/
def readOptionalInt : Reader (Option Int64) := fun path value => do
  let i ← readInt path value
  return if i = -1 then none else some i

/-- A truth value. -/
def readBool : Reader Bool
  | _, .bool b => .ok b
  | path, other => mismatch path .bool other

/-- Reads the items of a list, the first of which has the index `i`. -/
def readItemsFrom {α : Type} (read : Reader α) (path : FieldPath) : Nat → List Value → Result (List α)
  | _, [] => .ok []
  | i, item :: items => do return (← read (path.item i) item) :: (← readItemsFrom read path (i + 1) items)

/-- A list whose items are read alike. -/
def readItems {α : Type} (read : Reader α) : Reader (List α) := fun path value => do
  readItemsFrom read path 0 (← readList path value)

def readTexts : Reader (List String) := readItems readText

/-- The first occurrences in a list. -/
def distinct (texts : List String) : List String :=
  texts.foldl (fun seen text => if text ∈ seen then seen else seen ++ [text]) []

/-- A list of texts without repetitions. -/
def readTextSet : Reader (List String) := fun path value => do return distinct (← readTexts path value)

/-- Adds the entries of a mapping with text values to a map; entries with a null value are left out. -/
def readTextEntries (path : FieldPath) : List Entry → TextMap String → Result (TextMap String)
  | [], m => .ok m
  | (key, value) :: entries, m =>
    if value.isNull then readTextEntries path entries m
    else do readTextEntries path entries (m.insert key (← readText (path.field key) value))

def readTextMap : Reader (TextMap String) := fun path value => do
  readTextEntries path (← readMapping path value) {}

/-! ### Records -/

/-- A field of a record that is being read into `σ`. -/
structure Field (σ : Type) where
  key : String
  read : FieldPath → Value → σ → Result σ

/-- The field whose value, once read, is put into the record. -/
def Field.of {σ α : Type} (key : String) (read : Reader α) (put : α → σ → σ) : Field σ :=
  ⟨key, fun path value s => do return put (← read path value) s⟩

/-- Looks the keys of a record up, in order, and leaves out the entries with a null value. -/
def classify {φ : Type} (known : String → Option φ) (path : FieldPath) :
    List Entry → Result (List (φ × FieldPath × Value))
  | [] => .ok []
  | (key, value) :: entries =>
    match known key with
    | none => .error ⟨path.field key, .unrecognized⟩
    | some field => do
      let found ← classify known path entries
      return if value.isNull then found else (field, path.field key, value) :: found

def readEach {σ : Type} : List (Field σ × FieldPath × Value) → σ → Result σ
  | [], s => .ok s
  | (field, path, value) :: found, s => do readEach found (← field.read path value s)

/-- Reads the entries of a record with the given fields. -/
def readFields {σ : Type} (fields : List (Field σ)) (path : FieldPath) (entries : List Entry) (s : σ) :
    Result σ := do
  let found ← classify (fun key => fields.find? (·.key = key)) path entries
  readEach found s

def readRecord {σ : Type} (fields : List (Field σ)) (s : σ) : Reader σ := fun path value => do
  readFields fields path (← readMapping path value) s

/-- The value of a field that must be present. -/
def required {α : Type} (path : FieldPath) (value : Option α) : Result α :=
  match value with
  | some a => .ok a
  | none => .error ⟨path, .missing⟩

end Manifests.Extraction
