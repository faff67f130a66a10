import ResourceStubs.Json.Error

/-!
# Reading JSON text from left to right

A document is read in one pass. A reading step takes the remaining text, and gives a result together
with the text that remains after it, or the first problem it meets. Because steps run in document
order, the first problem in the text is the one that is reported, whatever follows.

White space is passed over by `Json.peek`, with which every step that looks ahead begins. The
punctuation of lists and objects is read by steps of its own, since there it is decided whether a
comma, an end or a further element comes next, and each of the three has its own problems.
-/

namespace ResourceStubs.Json

/-- A step that reads from the remaining text. -/
abbrev Read (α : Type) := StateT (List Char) (Except Error) α

/-- White space between tokens. -/
def isSpace (c : Char) : Bool :=
  c == ' ' || c == '\t' || c == '\n' || c == '\r'

/-- The decimal digits. -/
def isDigit (c : Char) : Bool :=
  '0' ≤ c && c ≤ '9'

/-- Skips white space and looks at the next character, which stays in the text. -/
def peek : Read (Option Char) := fun s =>
  let rest := s.dropWhile isSpace
  .ok (rest.head?, rest)

/-- Takes one character off the text. -/
def skipOne : Read Unit := fun s =>
  .ok ((), s.drop 1)

/-- Takes the given characters off the text. -/
def wordList : List Char → List Char → Except Error (List Char)
  | [], s => .ok s
  | _ :: _, [] => .error .endInValue
  | w :: ws, c :: s => if w = c then wordList ws s else .error .expectedIdent

/-- Takes the rest of a word whose first character was seen, together with that character. -/
def word (rest : String) : Read Unit := fun s =>
  (wordList rest.toList (s.drop 1)).map ((), ·)

/-- The colon between a key and its value. -/
def colon : Read Unit := do
  match ← peek with
  | some ':' => skipOne
  | some _ => throw .expectedColon
  | none => throw .endInObject

/-- Whether a list has another element, from behind the opening bracket or behind an element. The
comma before the element is taken, the closing bracket is not. -/
def hasElement (first : Bool) : Read Bool := do
  match ← peek with
  | none => throw .endInList
  | some ']' => return false
  | some c =>
    if first then return true
    else if c = ',' then
      skipOne
      match ← peek with
      | some ']' => throw .trailingComma
      | some _ => return true
      | none => throw .endInValue
    else throw .expectedListCommaOrEnd

/-- The closing bracket of a list that must have no more elements. -/
def closeList : Read Unit := do
  match ← peek with
  | some ']' => skipOne
  | some ',' =>
    skipOne
    match ← peek with
    | some ']' => throw .trailingComma
    | _ => throw .trailingCharacters
  | some _ => throw .trailingCharacters
  | none => throw .endInList

/-- Whether an object has another member, from behind the opening brace or behind a member. The
comma before the key is taken, the quote of the key and the closing brace are not. -/
def hasKey (first : Bool) : Read Bool := do
  match ← peek with
  | none => throw .endInObject
  | some '}' => return false
  | some c =>
    if first then
      if c = '"' then return true else throw .keyMustBeString
    else if c = ',' then
      skipOne
      match ← peek with
      | some '"' => return true
      | some '}' => throw .trailingComma
      | some _ => throw .keyMustBeString
      | none => throw .endInValue
    else throw .expectedObjectCommaOrEnd

end ResourceStubs.Json
