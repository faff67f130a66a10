import ResourceStubs.Decimal.Shortest
import ResourceStubs.Text.Quoted

/-!
# What can be wrong with a JSON document

Errors are causes. They fall into three groups: the text is no JSON, the text ends too early, or the
text is JSON but does not have the shape of a unit (`Json.Error.category`). The wording of all of
them is in one function, `Json.Error.message`.

A value of the wrong kind is described in the message, numbers by their value and texts in quotes.
What was found is kept as a `Json.Found`, so the readers need not know how it is worded.
-/

namespace ResourceStubs.Json

/-- A value that was found where another kind was expected. -/
inductive Found where
  | null
  | bool (value : Bool)
  | integer (value : Int)
  | float (value : Decimal.Binary64)
  | string (value : String)
  | sequence
  | map
  | unitVariant
  deriving DecidableEq, Inhabited, Repr

/-- How a message names what was found. -/
def Found.text : Found → String
  | null => "null"
  | bool value => "boolean `" ++ (if value then "true" else "false") ++ "`"
  | integer value => "integer `" ++ toString value ++ "`"
  | float value => "floating point `" ++ value.text ++ "`"
  | string value => "string " ++ Text.quoted value
  | sequence => "sequence"
  | map => "map"
  | unitVariant => "unit variant"

/-- What can be wrong with a document. -/
inductive Error where
  /-- The text ends where a value was expected. -/
  | endInValue
  /-- The text ends inside a string. -/
  | endInString
  /-- The text ends inside an object. -/
  | endInObject
  /-- The text ends inside a list. -/
  | endInList
  /-- No value can start here. -/
  | expectedValue
  /-- A word other than the three literal names. -/
  | expectedIdent
  | expectedColon
  | expectedObjectCommaOrEnd
  | expectedListCommaOrEnd
  | keyMustBeString
  | trailingComma
  | trailingCharacters
  | invalidNumber
  | numberOutOfRange
  | invalidEscape
  /-- A leading surrogate that is not followed by another escape. -/
  | unexpectedEndOfHexEscape
  /-- A surrogate that is not part of a pair. -/
  | loneSurrogate
  | controlCharacter
  /-- Lists and objects are nested too deeply. -/
  | recursionLimit
  /-- A value of the wrong kind. -/
  | wrongType (found : Found) (expected : String)
  /-- A whole number that does not fit. -/
  | wrongValue (found : Int) (expected : String)
  | missingField (name : String)
  | duplicateField (name : String)
  /-- A choice has no case of that name. -/
  | unknownVariant (name : String) (expected : List String)
  /-- A record written as a list has too few elements. -/
  | wrongLength (length : Nat) (expected : String)
  /-- An annotation argument that is neither a whole number of 64 bits nor a text. -/
  | noLiteral
  deriving DecidableEq, Inhabited, Repr

/-- The groups of errors. -/
inductive Category where
  /-- The text is no JSON. -/
  | malformed
  /-- The text ends too early. -/
  | unfinished
  /-- The text has the wrong shape. -/
  | mismatched
  deriving DecidableEq, Inhabited, Repr

namespace Error

/-- The group of an error. -/
def category : Error → Category
  | endInValue | endInString | endInObject | endInList => .unfinished
  | wrongType .. | wrongValue .. | missingField .. | duplicateField .. | unknownVariant ..
  | wrongLength .. | noLiteral => .mismatched
  | _ => .malformed

/-- A name in backquotes. -/
def ticked (name : String) : String :=
  "`" ++ name ++ "`"

/-- The wording of an error. -/
def message : Error → String
  | endInValue => "EOF while parsing a value"
  | endInString => "EOF while parsing a string"
  | endInObject => "EOF while parsing an object"
  | endInList => "EOF while parsing a list"
  | expectedValue => "expected value"
  | expectedIdent => "expected ident"
  | expectedColon => "expected `:`"
  | expectedObjectCommaOrEnd => "expected `,` or `" ++ String.singleton '}' ++ "`"
  | expectedListCommaOrEnd => "expected `,` or `]`"
  | keyMustBeString => "key must be a string"
  | trailingComma => "trailing comma"
  | trailingCharacters => "trailing characters"
  | invalidNumber => "invalid number"
  | numberOutOfRange => "number out of range"
  | invalidEscape => "invalid escape"
  | unexpectedEndOfHexEscape => "unexpected end of hex escape"
  | loneSurrogate => "lone leading surrogate in hex escape"
  | controlCharacter => "control character (\\u0000-\\u001F) found while parsing a string"
  | recursionLimit => "recursion limit exceeded"
  | wrongType found expected => "invalid type: " ++ found.text ++ ", expected " ++ expected
  | wrongValue found expected =>
    "invalid value: integer " ++ ticked (toString found) ++ ", expected " ++ expected
  | missingField name => "missing field " ++ ticked name
  | duplicateField name => "duplicate field " ++ ticked name
  | unknownVariant name expected =>
    "unknown variant " ++ ticked name ++ ", expected one of " ++
      ", ".intercalate (expected.map ticked)
  | wrongLength length expected => "invalid length " ++ toString length ++ ", expected " ++ expected
  | noLiteral => "data did not match any variant of untagged enum Literal"

end Error

end ResourceStubs.Json
