import Manifests.Yaml.Event
import Manifests.Yaml.Token.Lexer
import Manifests.Yaml.Tree

/-! # Reading a document

From the events of a document to its tree: scalars are typed, aliases stand for the node of their anchor, keys
may not repeat, collections nest at most 128 deep, and aliases are expanded at most a hundred times as often as
the document has events. -/

namespace Manifests.Yaml

namespace Event

/-! ### Anchors -/

/-- Numbers an anchor: by how many names are in use so far, the name's own earlier number counting as one. -/
def numberAnchor (names : List (String × Nat)) : Option String → List (String × Nat) × Option Nat
  | none => (names, none)
  | some name => ((name, names.length) :: names.filter (·.1 ≠ name), some names.length)

/-- The events with numbers for the names of anchors. An alias means the anchor that has its name at that place. -/
def number : List (String × Nat) → List (Event String) → Except Fault (List (Event Nat))
  | _, [] => .ok []
  | names, event :: events =>
    match event with
    | .alias name =>
      match names.lookup name with
      | some n => do return .alias n :: (← number names events)
      | none => .error .unknownAnchor
    | .scalar anchor tag text plain =>
      let (names, anchor) := numberAnchor names anchor
      do return .scalar anchor tag text plain :: (← number names events)
    | .sequenceStart anchor tag =>
      let (names, anchor) := numberAnchor names anchor
      do return .sequenceStart anchor tag :: (← number names events)
    | .mappingStart anchor tag =>
      let (names, anchor) := numberAnchor names anchor
      do return .mappingStart anchor tag :: (← number names events)
    | .sequenceEnd => do return .sequenceEnd :: (← number names events)
    | .mappingEnd => do return .mappingEnd :: (← number names events)

def anchor? : Event Nat → Option Nat
  | .scalar anchor .. | .sequenceStart anchor _ | .mappingStart anchor _ => anchor
  | _ => none

/-- The nodes with the anchor `n`, each as the events from its start on; the last of them counts. -/
def anchored (n : Nat) : List (Event Nat) → Option (List (Event Nat))
  | [] => none
  | event :: events =>
    match anchored n events with
    | some found => some found
    | none => if event.anchor? = some n then some (event :: events) else none

end Event

namespace Tree

/-! ### Scalars -/

/-- A plain scalar without a tag. -/
def ofPlain (text : String) : Except Fault Tree :=
  if text = "" || isNullWord text then .ok .null
  else
    match readBool? text with
    | some b => .ok (.bool b)
    | none =>
      match classifyInt text.toList with
      | .kept i => .ok (.int i)
      | .refused => .error .unfitScalar
      | .none =>
        if hasLeadingZero text.toList then .ok (.text text)
        else
          match readFloat? text.toList with
          | some x => .ok (.float x)
          | none => .ok (.text text)

/-- A scalar without a tag. -/
def ofUntagged (text : String) (plain : Bool) : Except Fault Tree :=
  if plain then ofPlain text else .ok (.text text)

/-- The tags of the core types begin with this. -/
def coreStem : String := "tag:yaml.org,2002:"

/-- A scalar with a tag that is not local: of a core type, or text. -/
def ofCore (tag text : String) : Except Fault Tree :=
  let required (t : Option Tree) : Except Fault Tree :=
    match t with
    | some t => .ok t
    | none => .error .unfitScalar
  if tag = coreStem ++ "bool" then required ((readBool? text).map .bool)
  else if tag = coreStem ++ "int" then
    match classifyInt text.toList with
    | .kept i => .ok (.int i)
    | _ => .error .unfitScalar
  else if tag = coreStem ++ "float" then required ((readFloat? text.toList).map .float)
  else if tag = coreStem ++ "null" then required (if isNullWord text then some .null else none)
  else .ok (.text text)

/-- The name of a local tag, which begins with `!`. The tag `!` alone is its own name. -/
def localName? (tag : String) : Option String :=
  match tag.toList with
  | ['!'] => some "!"
  | ['!', '!'] => some "!"
  | '!' :: '!' :: rest => some (String.ofList rest)
  | '!' :: rest => some (String.ofList rest)
  | _ => none

def ofScalar (tag : Option String) (text : String) (plain : Bool) : Except Fault Tree :=
  match tag with
  | none => ofUntagged text plain
  | some tag =>
    match localName? tag with
    | some name => do return .tagged name (← ofUntagged text plain)
    | none => ofCore tag text

/-- A collection with its local tag, if it has one. -/
def withTag (tag : Option String) (content : Tree) : Tree :=
  match tag.bind localName? with
  | some name => .tagged name content
  | none => content

/-! ### Nodes -/

/-- Reads from events, with a number of aliases that may still be expanded. -/
abbrev Reader (α : Type) := List (Event Nat) → Nat → Except Fault (α × List (Event Nat) × Nat)

/-- The nodes up to the end of a sequence. -/
def readItems (node : Reader Tree) : Nat → Reader (List Tree)
  | 0, _, _ => .error .unexpectedToken
  | _ + 1, .sequenceEnd :: events, aliases => .ok ([], events, aliases)
  | fuel + 1, events, aliases => do
    let (item, events, aliases) ← node events aliases
    let (items, events, aliases) ← readItems node fuel events aliases
    return (item :: items, events, aliases)

/-- The pairs of nodes up to the end of a mapping, with keys that differ from those in `keys`. -/
def readEntries (node : Reader Tree) : Nat → List Tree → Reader (List (Tree × Tree))
  | 0, _, _, _ => .error .unexpectedToken
  | _ + 1, _, .mappingEnd :: events, aliases => .ok ([], events, aliases)
  | fuel + 1, keys, events, aliases => do
    let (key, events, aliases) ← node events aliases
    if keys.any (key.same ·) then throw .repeatedKey
    let (value, events, aliases) ← node events aliases
    let (entries, events, aliases) ← readEntries node fuel (key :: keys) events aliases
    return ((key, value) :: entries, events, aliases)

/-- A node that is no alias, where collections may nest `depth` deep. -/
def readNode (document : List (Event Nat)) : Nat → Reader Tree
  | _, .scalar _ tag written plain :: events, aliases => do
    return (← ofScalar tag written plain, events, aliases)
  | depth + 1, .sequenceStart _ tag :: events, aliases => do
    let (items, events, aliases) ← readItems (child document depth) (events.length + 1) events aliases
    return (withTag tag (.sequence items), events, aliases)
  | depth + 1, .mappingStart _ tag :: events, aliases => do
    let (entries, events, aliases) ← readEntries (child document depth) (events.length + 1) [] events aliases
    return (withTag tag (.mapping entries), events, aliases)
  | 0, .sequenceStart .. :: _, _ | 0, .mappingStart .. :: _, _ => .error .tooDeep
  | _, _, _ => .error .unexpectedToken
where
  /-- A node or an alias, which stands for the node of its anchor. -/
  child (document : List (Event Nat)) (depth : Nat) : Reader Tree
    | .alias n :: events, aliases =>
      match aliases, Event.anchored n document with
      | aliases + 1, some target => do
        let (tree, _, aliases) ← readNode document depth target aliases
        return (tree, events, aliases)
      | 0, _ => .error .tooManyAliases
      | _, none => .error .unknownAnchor
    | events, aliases => readNode document depth events aliases

/-- How deep collections may nest. -/
def depthLimit : Nat := 128

/-- The tree of a document's events; a text without a document is null. -/
def ofEvents (events : List (Event Nat)) : Except Fault Tree :=
  match events with
  | [] => .ok .null
  | events => do return (← readNode.child events depthLimit events (100 * events.length)).1

end Tree

def read (text : String) : Except Fault Tree := do
  let events ← Event.ofTokens (← Token.scan text.toList)
  Tree.ofEvents (← Event.number [] events)

end Manifests.Yaml
