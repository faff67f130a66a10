import ResourceStubs.Text.UpperCase

/-!
# Names made from paths

Class and method names come from paths, which may hold any text. `Text.identifier` turns any text
into a name over `[A-Za-z0-9_]` that does not start with a digit: every other character becomes an
underscore, and a digit in front gets an underscore before it. The empty text becomes a single
underscore, so there is always a name.

Class names take the last segment of the path with its first character in upper case; upper-casing
comes before the clean-up, so an exotic first letter may first become several characters and then
underscores. Method names clean up the whole path, in which slashes become underscores too.
-/

namespace ResourceStubs.Text

/-- ASCII letters. -/
def isLetter (c : Char) : Bool :=
  ('a' ≤ c && c ≤ 'z') || ('A' ≤ c && c ≤ 'Z')

/-- ASCII digits. -/
def isDigit (c : Char) : Bool :=
  '0' ≤ c && c ≤ '9'

/-- Characters that may stand first in a name. -/
def isNameStart (c : Char) : Bool :=
  isLetter c || c == '_'

/-- Characters that may stand in a name. -/
def isNameChar (c : Char) : Bool :=
  isNameStart c || isDigit c

/-- A character of a name, or the underscore in its place. -/
def nameChar (c : Char) : Char :=
  if isNameChar c then c else '_'

/-- The name made from a character list: every foreign character becomes an underscore, and an
underscore is put in front when the result could not start a name. -/
def identifierList (cs : List Char) : List Char :=
  match cs.map nameChar with
  | [] => ['_']
  | c :: rest => if isNameStart c then c :: rest else '_' :: c :: rest

/-- The name made from a text. -/
def identifier (s : String) : String :=
  String.ofList (identifierList s.toList)

/-- A text with its first character in upper case. -/
def capitalize (s : String) : String :=
  match s.toList with
  | [] => ""
  | c :: rest => String.ofList (upper c ++ rest)

/-- What follows the last slash of a path; all of it when there is none. -/
def lastSegment (path : String) : String :=
  String.ofList (path.toList.reverse.takeWhile (· != '/')).reverse

/-- The class generated for a resource path. -/
def className (path : String) : String :=
  identifier (capitalize (lastSegment path)) ++ "Controller"

/-- The method generated for an endpoint path: slashes count as underscores. -/
def methodName (path : String) : String :=
  identifier (String.ofList (path.toList.map fun c => if c == '/' then '_' else c))

end ResourceStubs.Text
