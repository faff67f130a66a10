/-!
# What can be wrong with a YAML document

The causes come from three places: the text cannot be cut into tokens, the tokens form no tree, or
the tree does not have the shape of a unit. A document is scanned to its end before it is parsed, so
a cause of an earlier kind comes first wherever it stands. Errors carry no positions; what they say
is in `Yaml.Error.message`.
-/

namespace ResourceStubs.Yaml

/-- What can be wrong with a document. -/
inductive Error where
  /-- A character that no document may hold. -/
  | forbiddenCharacter
  /-- A character that starts no token. -/
  | noToken
  /-- A key that is not followed by a colon on its line. -/
  | keyWithoutColon
  /-- An entry, key or value indicator where none is allowed. -/
  | misplacedIndicator
  /-- A tab in place of indentation. -/
  | tabInIndentation
  /-- A quoted text that does not end. -/
  | unclosedQuote
  /-- A document marker inside a quoted text. -/
  | markerInQuote
  /-- A backslash with something that is no escape. -/
  | badEscape
  /-- The first line of a block text holds something else than its indicators. -/
  | badBlockHeader
  /-- A colon that could belong to a text or start a value. -/
  | ambiguousColon
  /-- An anchor or alias without a proper name. -/
  | badAnchor
  /-- A tag that is not written properly. -/
  | badTag
  /-- A tag with a handle that is not declared. -/
  | unknownTagHandle
  /-- A directive that is not known, not complete, or repeated. -/
  | badDirective
  /-- A token that does not fit where it stands. -/
  | unexpectedToken
  /-- More than one document. -/
  | severalDocuments
  /-- An alias without an anchor before it. -/
  | unknownAlias
  /-- Aliases are followed too often. -/
  | tooManyAliases
  /-- Lists and mappings are nested too deeply. -/
  | nestedTooDeeply
  /-- A value of the wrong kind. -/
  | wrongType (expected : String)
  /-- A required member is missing. -/
  | missingField (name : String)
  /-- A member occurs twice. -/
  | duplicateField (name : String)
  /-- A choice has no case of that name. -/
  | unknownVariant (name : String)
  deriving DecidableEq, Inhabited, Repr

/-- The wording of an error. -/
def Error.message : Error → String
  | forbiddenCharacter => "control characters are not allowed"
  | noToken => "found character that cannot start any token"
  | keyWithoutColon => "could not find expected ':'"
  | misplacedIndicator => "indicator is not allowed in this context"
  | tabInIndentation => "found a tab character where an indentation space is expected"
  | unclosedQuote => "found unexpected end of stream"
  | markerInQuote => "found unexpected document indicator"
  | badEscape => "found unknown escape character"
  | badBlockHeader => "did not find expected comment or line break"
  | ambiguousColon => "found unexpected ':'"
  | badAnchor => "did not find expected alphabetic or numeric character"
  | badTag => "did not find expected tag"
  | unknownTagHandle => "found undefined tag handle"
  | badDirective => "found invalid directive"
  | unexpectedToken => "did not find expected node content"
  | severalDocuments => "found more than one document"
  | unknownAlias => "unknown anchor"
  | tooManyAliases => "repetition limit exceeded"
  | nestedTooDeeply => "recursion limit exceeded"
  | wrongType expected => "invalid type, expected " ++ expected
  | missingField name => "missing field `" ++ name ++ "`"
  | duplicateField name => "duplicate field `" ++ name ++ "`"
  | unknownVariant name => "unknown variant `" ++ name ++ "`"

end ResourceStubs.Yaml
