import Manifests.Yaml.Fault
import Manifests.Yaml.Token

/-! # From tokens to events

A document is a tree of nodes, written out as events: an alias, a scalar, or the start and the end of a
collection. The grammar is read with a list of *goals*: what has to follow. A step takes the first goal and the
tokens, and gives events, the goals that take its place, and the tokens left. A text has one document at most. -/

namespace Manifests.Yaml

/-- An event of a document whose anchors are named in `α`. -/
inductive Event (α : Type) where
  | alias (name : α)
  | scalar (anchor : Option α) (tag : Option String) (text : String) (plain : Bool)
  | sequenceStart (anchor : Option α) (tag : Option String)
  | sequenceEnd
  | mappingStart (anchor : Option α) (tag : Option String)
  | mappingEnd

namespace Event

/-- The node that nothing was written for. -/
def empty {α : Type} : Event α := .scalar none none "" true

/-! ### Tags -/

/-- What the handles stand for unless a directive says otherwise. -/
def defaultHandles : List (String × String) := [("!", "!"), ("!!", "tag:yaml.org,2002:")]

/-- The tag written with a handle and a suffix. -/
def resolveTag (handles : List (String × String)) (handle suffix : String) : Except Fault String :=
  if handle = "" then .ok suffix
  else
    match handles.lookup handle with
    | some stem => .ok (stem ++ suffix)
    | none => .error .undeclaredHandle

/-! ### Goals -/

/-- What has to follow in the tokens of a document. -/
inductive Goal where
  /-- A node, in a block or not; where an entry may stand for a sequence that is not indented or not. -/
  | node (block indentless : Bool)
  /-- Entries of a block sequence. -/
  | blockEntry
  /-- Entries of a sequence that is not indented. -/
  | indentlessEntry
  /-- Keys of a block mapping. -/
  | blockKey
  /-- The value of a block mapping's key. -/
  | blockValue
  /-- Entries of a flow sequence, the first without a comma. -/
  | flowEntry (first : Bool)
  /-- The key of a pair in a flow sequence. -/
  | flowPairKey
  /-- The value of a pair in a flow sequence. -/
  | flowPairValue
  /-- The end of a pair in a flow sequence. -/
  | flowPairEnd
  /-- Keys of a flow mapping, the first without a comma. -/
  | flowKey (first : Bool)
  /-- The value of a flow mapping's key. -/
  | flowValue
  /-- The value of a flow mapping's node that has no colon. -/
  | flowNoValue

/-- What a step gives: events, goals, and the tokens left. -/
abbrev Step := Except Fault (List (Event String) × List Goal × List Token)

/-- The anchor and the tag in front of a node, in either order, and the tokens after them. -/
def readProperties : List Token → Option String × Option (String × String) × List Token
  | .anchor a :: .tag h s :: rest => (some a, some (h, s), rest)
  | .tag h s :: .anchor a :: rest => (some a, some (h, s), rest)
  | .anchor a :: rest => (some a, none, rest)
  | .tag h s :: rest => (none, some (h, s), rest)
  | rest => (none, none, rest)

/-- A node's content after its anchor and tag. The tag `!` alone leaves a scalar as it is. -/
def readContent (block indentless : Bool) (anchor tag : Option String) (tokens : List Token) : Step :=
  match tokens with
  | .scalar text plain :: rest =>
    .ok ([.scalar anchor (if tag = some "!" then none else tag) text plain], [], rest)
  | .flowSequenceStart :: rest => .ok ([.sequenceStart anchor tag], [.flowEntry true], rest)
  | .flowMappingStart :: rest => .ok ([.mappingStart anchor tag], [.flowKey true], rest)
  | tokens =>
    match tokens, block, indentless with
    | .blockEntry :: _, _, true => .ok ([.sequenceStart anchor tag], [.indentlessEntry], tokens)
    | .blockSequenceStart :: rest, true, _ => .ok ([.sequenceStart anchor tag], [.blockEntry], rest)
    | .blockMappingStart :: rest, true, _ => .ok ([.mappingStart anchor tag], [.blockKey], rest)
    | _, _, _ =>
      if anchor.isSome || tag.isSome then .ok ([.scalar anchor tag "" true], [], tokens)
      else .error .unexpectedToken

def readNode (handles : List (String × String)) (block indentless : Bool) (tokens : List Token) : Step :=
  match tokens with
  | .alias name :: rest => .ok ([.alias name], [], rest)
  | tokens =>
    match readProperties tokens with
    | (anchor, none, rest) => readContent block indentless anchor none rest
    | (anchor, some (handle, suffix), rest) => do
      readContent block indentless anchor (some (← resolveTag handles handle suffix)) rest

/-- A node, or the empty node before one of the tokens in `ends`, and then the goal `next`. -/
def nodeUnless (ends : List Token) (block indentless : Bool) (next : Goal) (tokens : List Token) : Step :=
  if tokens.head?.any ends.contains then .ok ([empty], [next], tokens)
  else .ok ([], [.node block indentless, next], tokens)

/-- The tokens behind the comma that all entries but the first need. -/
def skipComma (first : Bool) (tokens : List Token) : Except Fault (List Token) :=
  match first, tokens with
  | true, tokens => .ok tokens
  | false, .flowEntry :: rest => .ok rest
  | false, _ => .error .unexpectedToken

def Goal.step (handles : List (String × String)) (goal : Goal) (tokens : List Token) : Step :=
  match goal, tokens with
  | .node block indentless, tokens => readNode handles block indentless tokens
  | .blockEntry, .blockEntry :: rest => nodeUnless [.blockEntry, .blockEnd] true false .blockEntry rest
  | .blockEntry, .blockEnd :: rest => .ok ([.sequenceEnd], [], rest)
  | .blockEntry, _ => .error .unexpectedToken
  | .indentlessEntry, .blockEntry :: rest =>
    nodeUnless [.blockEntry, .key, .value, .blockEnd] true false .indentlessEntry rest
  | .indentlessEntry, tokens => .ok ([.sequenceEnd], [], tokens)
  | .blockKey, .key :: rest => nodeUnless [.key, .value, .blockEnd] true true .blockValue rest
  | .blockKey, .blockEnd :: rest => .ok ([.mappingEnd], [], rest)
  | .blockKey, _ => .error .unexpectedToken
  | .blockValue, .value :: rest => nodeUnless [.key, .value, .blockEnd] true true .blockKey rest
  | .blockValue, tokens => .ok ([empty], [.blockKey], tokens)
  | .flowEntry _, .flowSequenceEnd :: rest => .ok ([.sequenceEnd], [], rest)
  | .flowEntry first, tokens => do
    match ← skipComma first tokens with
    | .key :: rest => return ([.mappingStart none none], [.flowPairKey, .flowEntry false], rest)
    | .flowSequenceEnd :: rest => return ([.sequenceEnd], [], rest)
    | tokens => return ([], [.node false false, .flowEntry false], tokens)
  | .flowPairKey, .value :: rest | .flowPairKey, .flowEntry :: rest | .flowPairKey, .flowSequenceEnd :: rest =>
    .ok ([empty], [.flowPairValue], rest)
  | .flowPairKey, tokens => .ok ([], [.node false false, .flowPairValue], tokens)
  | .flowPairValue, .value :: rest => nodeUnless [.flowEntry, .flowSequenceEnd] false false .flowPairEnd rest
  | .flowPairValue, tokens => .ok ([empty], [.flowPairEnd], tokens)
  | .flowPairEnd, tokens => .ok ([.mappingEnd], [], tokens)
  | .flowKey _, .flowMappingEnd :: rest => .ok ([.mappingEnd], [], rest)
  | .flowKey first, tokens => do
    match ← skipComma first tokens with
    | .key :: rest => nodeUnless [.value, .flowEntry, .flowMappingEnd] false false .flowValue rest
    | .flowMappingEnd :: rest => return ([.mappingEnd], [], rest)
    | tokens => return ([], [.node false false, .flowNoValue], tokens)
  | .flowValue, .value :: rest => nodeUnless [.flowEntry, .flowMappingEnd] false false (.flowKey false) rest
  | .flowValue, tokens => .ok ([empty], [.flowKey false], tokens)
  | .flowNoValue, tokens => .ok ([empty], [.flowKey false], tokens)

/-- Meets the goals in order. At most four steps in a row take no token. -/
def meet (handles : List (String × String)) :
    Nat → List Goal → List Token → Except Fault (List (Event String) × List Token)
  | 0, _, _ => .error .unexpectedToken
  | _ + 1, [], tokens => .ok ([], tokens)
  | fuel + 1, goal :: goals, tokens => do
    let (events, next, tokens) ← goal.step handles tokens
    let (further, tokens) ← meet handles fuel (next ++ goals) tokens
    return (events ++ further, tokens)

/-! ### Documents -/

/-- The directives in front of a document: one version at most, and what each handle stands for, once each. -/
def readDirectives :
    Bool → List (String × String) → List Token → Except Fault (List (String × String) × List Token)
  | versioned, handles, .versionDirective major minor :: rest =>
    if versioned || major ≠ 1 || (minor ≠ 1 && minor ≠ 2) then .error .refusedDirective
    else readDirectives true handles rest
  | versioned, handles, .tagDirective handle stem :: rest =>
    if (handles.lookup handle).isSome then .error .refusedDirective
    else readDirectives versioned (handles ++ [(handle, stem)]) rest
  | _, handles, rest => .ok (handles, rest)

/-- The content of a document. -/
def readDocument (handles : List (String × String)) (tokens : List Token) :
    Except Fault (List (Event String) × List Token) :=
  meet (handles ++ defaultHandles) (5 * tokens.length + 10) [.node true false] tokens

/-- The first document: its events, none if the text has no document, and the tokens after it. -/
def readFirst (tokens : List Token) : Except Fault (List (Event String) × List Token) :=
  match tokens with
  | [] => .ok ([], [])
  | .versionDirective .. :: _ | .tagDirective .. :: _ | .documentStart :: _ => do
    match ← readDirectives false [] tokens with
    | (handles, .documentStart :: rest) =>
      match rest with
      | [] | .versionDirective .. :: _ | .tagDirective .. :: _ | .documentStart :: _ | .documentEnd :: _ =>
        return ([empty], rest)
      | rest => readDocument handles rest
    | _ => throw .unexpectedToken
  | tokens => readDocument [] tokens

/-- The events of the one document that the tokens write. -/
def ofTokens (tokens : List Token) : Except Fault (List (Event String)) := do
  let (events, rest) ← readFirst tokens
  if (rest.dropWhile (· = .documentEnd)).isEmpty then return events else throw .secondDocument

end Event

end Manifests.Yaml
