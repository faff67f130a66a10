/-!
# Tokens of a YAML document

The tokens are what the grammar of documents sees. Indentation is no longer visible in them: a block
collection is opened and closed by tokens of its own, as a collection in brackets is, and keys are
marked by a token in front of them. Comments and blanks are gone. A scalar keeps the style it was
written in, because a plain scalar may stand for a number where a quoted one may not.
-/

namespace ResourceStubs.Yaml

/-- How a scalar is written. -/
inductive Style where
  /-- Without quotes. -/
  | plain
  /-- In single or double quotes. -/
  | quoted
  /-- As a block that keeps its line breaks. -/
  | literalBlock
  /-- As a block whose lines are joined. -/
  | foldedBlock
  deriving DecidableEq, Inhabited, Repr

/-- A tag as it is written: a handle, which may have been declared, and what follows it. -/
structure TagText where
  /-- The handle; empty for a tag that stands for itself. -/
  handle : String
  /-- What follows the handle. -/
  suffix : String
  deriving DecidableEq, Inhabited, Repr

/-- A token. -/
inductive Token where
  | streamEnd
  /-- The version of the language. -/
  | versionDirective (major minor : Nat)
  /-- The meaning of a tag handle. -/
  | tagDirective (handle meaning : String)
  | documentStart
  | documentEnd
  | blockSequenceStart
  | blockMappingStart
  | blockEnd
  | flowSequenceStart
  | flowSequenceEnd
  | flowMappingStart
  | flowMappingEnd
  | blockEntry
  | flowEntry
  | key
  | value
  | alias (name : String)
  | anchor (name : String)
  | tag (text : TagText)
  | scalar (style : Style) (text : String)
  deriving DecidableEq, Inhabited, Repr

end ResourceStubs.Yaml
