/-! # Faults of a YAML text

Why a text is not one YAML document. -/

namespace Manifests.Yaml

/-- Why a text is refused. -/
inductive Fault where
  /-- A control character or a noncharacter. -/
  | unreadableCharacter
  /-- A character that starts no token. -/
  | unexpectedCharacter
  /-- A simple key without its colon. -/
  | unfinishedKey
  /-- An entry, a key or a value where none may start. -/
  | misplacedIndicator
  /-- A tab where indentation is expected. -/
  | tabInIndentation
  /-- A directive of an unknown name or with a malformed part. -/
  | malformedDirective
  /-- A directive given twice, or a version that is not understood. -/
  | refusedDirective
  /-- An anchor or alias without a name. -/
  | malformedAnchor
  /-- A tag without its parts or its end. -/
  | malformedTag
  /-- The header of a block scalar. -/
  | malformedBlockHeader
  /-- A quoted scalar without its end. -/
  | unfinishedQuote
  /-- An unknown escape, or one that names no character. -/
  | malformedEscape
  /-- A colon inside a plain scalar of a flow collection. -/
  | unexpectedColon
  /-- Tokens that no document has. -/
  | unexpectedToken
  /-- A tag whose handle no directive declares. -/
  | undeclaredHandle
  /-- An alias without an anchor. -/
  | unknownAnchor
  /-- A scalar that its tag does not fit, or an integer out of range. -/
  | unfitScalar
  /-- A key given twice in one mapping. -/
  | repeatedKey
  /-- Collections nested too deeply. -/
  | tooDeep
  /-- Aliases expanded too often. -/
  | tooManyAliases
  /-- A second document. -/
  | secondDocument
  deriving DecidableEq

end Manifests.Yaml
