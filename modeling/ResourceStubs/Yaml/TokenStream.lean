import ResourceStubs.Yaml.BlockScalar
import ResourceStubs.Yaml.FlowScalar
import ResourceStubs.Yaml.Property

/-!
# From text to tokens

The text is cut into tokens from left to right. Two things make this more than a lookup of the next
character.

Indentation: a block collection opens where a line goes further right than the collection around it,
and closes where a line goes further left. The columns of the open block collections form a stack.

Keys: whether a scalar or a collection is a key is known only at the colon behind it. So wherever a
key may start, an empty slot is left among the tokens; the colon fills the slot of its key, and
slots that stay empty vanish in the end. A key must end on the line it starts on, within 1024
characters.

The state of scanning is a `Yaml.Scan`, and `Yaml.Scan.fetch` reads one token. Before it, the
collections are ended that the column of the token closes, and slots of keys that can no longer come
are dropped.
-/

namespace ResourceStubs.Yaml

/-- A place where a key may have started. -/
structure Candidate where
  /-- The slot that was left for it. -/
  slot : Nat
  /-- Whether nothing but a key can stand there. -/
  required : Bool
  /-- The character it starts at. -/
  index : Nat
  /-- The line it starts on. -/
  line : Nat
  /-- The column it starts at. -/
  column : Nat
  deriving DecidableEq, Inhabited, Repr

/-- The number of characters that a key may take. -/
def keyLength : Nat := 1024

/-- Whether a key that started there can no longer end at a position. -/
def Candidate.isStale (key : Candidate) (c : Cursor) : Bool :=
  decide (key.line < c.line) || decide (key.index + keyLength < c.index)

/-- A token or an empty slot. -/
inductive Item where
  | token (token : Token)
  | slot (number : Nat)
  deriving DecidableEq, Inhabited, Repr

/-- The tokens among items. -/
def Item.token? : Item → Option Token
  | .token t => some t
  | .slot _ => none

/-- Puts items into a slot; the latest item comes first. -/
def fillSlot (number : Nat) (filling : List Item) : List Item → List Item
  | [] => []
  | .slot n :: rest =>
    if n = number then filling ++ rest else .slot n :: fillSlot number filling rest
  | .token t :: rest => .token t :: fillSlot number filling rest

/-- The state of scanning. -/
structure Scan where
  /-- Where scanning has got to. -/
  cursor : Cursor
  /-- The items so far, the latest first. -/
  items : List Item := []
  /-- The number of slots so far. -/
  slots : Nat := 0
  /-- The columns of the open block collections, the innermost first. -/
  columns : List Nat := []
  /-- Whether a key may start at the next token. -/
  keyAllowed : Bool := true
  /-- The place where a key may have started inside the innermost brackets. -/
  candidate : Option Candidate := none
  /-- The places where a key may have started before each of the open brackets, the innermost
  first. -/
  outer : List (Option Candidate) := []

namespace Scan

/-- Whether scanning is inside brackets. -/
def inFlow (s : Scan) : Bool :=
  !s.outer.isEmpty

/-- The column from which on a token lies inside the innermost block collection. -/
def margin (s : Scan) : Nat :=
  match s.columns with
  | [] => 0
  | column :: _ => column + 1

/-- Adds a token. -/
def emit (s : Scan) (token : Token) : Scan :=
  { s with items := .token token :: s.items }

/-- Adds a token and moves past it. -/
def take (s : Scan) (token : Token) (count : Nat) : Scan :=
  { s.emit token with cursor := s.cursor.advance count }

/-! ## Block collections -/

/-- Closes the block collections that start right of a column; inside brackets none. -/
def closeBlocks (s : Scan) (isRight : Nat → Bool) : Scan :=
  if s.inFlow then s
  else
    { s with
      items := (s.columns.takeWhile isRight).map (fun _ => .token .blockEnd) ++ s.items
      columns := s.columns.dropWhile isRight }

/-- Opens a block collection at a column unless one is open there; inside brackets none. -/
def openBlock (s : Scan) (column : Nat) (token : Token) : Scan :=
  if !s.inFlow && decide (s.margin ≤ column) then
    { s.emit token with columns := column :: s.columns }
  else s

/-! ## Keys -/

/-- Gives up the place where a key may have started. -/
def dropKey (s : Scan) : Except Error Scan :=
  if s.candidate.any (·.required) then .error .keyWithoutColon else .ok { s with candidate := none }

/-- Notes that a key may start here. -/
def noteKey (s : Scan) : Except Error Scan :=
  if s.keyAllowed then do
    let s ← s.dropKey
    let key : Candidate :=
      { slot := s.slots, required := !s.inFlow && s.margin == s.cursor.column + 1,
        index := s.cursor.index, line := s.cursor.line, column := s.cursor.column }
    return { s with items := .slot s.slots :: s.items, slots := s.slots + 1, candidate := some key }
  else .ok s

/-- Gives up a place where a key may have started if it can no longer be one. -/
def freshKey (c : Cursor) : Option Candidate → Except Error (Option Candidate)
  | none => .ok none
  | some key =>
    if key.isStale c then (if key.required then .error .keyWithoutColon else .ok none)
    else .ok (some key)

/-- Gives up all places where a key may have started but can no longer be one. -/
def dropStale (s : Scan) : Except Error Scan := do
  let candidate ← freshKey s.cursor s.candidate
  let outer ← s.outer.mapM (freshKey s.cursor)
  return { s with candidate, outer }

/-! ## White space -/

/-- Skips blanks, comments and line breaks, in at most so many steps. A tab is no indentation, so
outside brackets it is skipped only behind other tokens of its line. -/
def skipSpaceSteps : Nat → Scan → Scan
  | 0, s => s
  | steps + 1, s =>
    let c := if s.cursor.index = 0 ∧ s.cursor.isAt '\ufeff' then s.cursor.advance 1 else s.cursor
    let c := c.skipWhile fun ch => ch == ' ' || ((s.inFlow || !s.keyAllowed) && ch == '\t')
    let c := if c.isAt '#' then c.skipWhile (!isBreak ·) else c
    if c.next.any isBreak then
      skipSpaceSteps steps
        { s with cursor := c.lineBreak.2, keyAllowed := s.keyAllowed || !s.inFlow }
    else { s with cursor := c }

/-- Skips blanks, comments and line breaks. -/
def skipSpace (s : Scan) (bound : Nat) : Scan :=
  skipSpaceSteps bound s

/-! ## Tokens -/

/-- The start of a document or its end. -/
def fetchMarker (s : Scan) (token : Token) : Except Error Scan := do
  let s ← (s.closeBlocks fun _ => true).dropKey
  return { s.take token 3 with keyAllowed := false }

/-- A directive. -/
def fetchDirective (s : Scan) : Except Error Scan := do
  let s ← (s.closeBlocks fun _ => true).dropKey
  let (token, behind) ← directiveToken s.cursor
  return { s.emit token with cursor := behind, keyAllowed := false }

/-- An opening bracket. -/
def fetchOpening (s : Scan) (token : Token) : Except Error Scan := do
  let s ← s.noteKey
  return { s.take token 1 with
    keyAllowed := true, candidate := none, outer := s.candidate :: s.outer }

/-- A closing bracket. -/
def fetchClosing (s : Scan) (token : Token) : Except Error Scan := do
  let s ← s.dropKey
  let s := { s.take token 1 with keyAllowed := false }
  match s.outer with
  | [] => return s
  | candidate :: outer => return { s with candidate, outer }

/-- A comma. -/
def fetchComma (s : Scan) : Except Error Scan := do
  let s ← s.dropKey
  return { s.take .flowEntry 1 with keyAllowed := true }

/-- An indicator that may open a block collection. -/
def openAtIndicator (s : Scan) (token : Token) : Except Error Scan :=
  if s.inFlow then .ok s
  else if s.keyAllowed then .ok (s.openBlock s.cursor.column token)
  else .error .misplacedIndicator

/-- The dash before an entry. -/
def fetchEntry (s : Scan) : Except Error Scan := do
  let s ← s.openAtIndicator .blockSequenceStart
  let s ← s.dropKey
  return { s.take .blockEntry 1 with keyAllowed := true }

/-- The question mark before a key. -/
def fetchKey (s : Scan) : Except Error Scan := do
  let s ← s.openAtIndicator .blockMappingStart
  let s ← s.dropKey
  return { s.take .key 1 with keyAllowed := !s.inFlow }

/-- The colon behind a key: the slot of the key is filled, and outside brackets the key may open a
block mapping. -/
def fetchValue (s : Scan) : Except Error Scan :=
  match s.candidate with
  | some key =>
    let opens := !s.inFlow && decide (s.margin ≤ key.column)
    let filling := if opens then [.token .key, .token .blockMappingStart] else [Item.token .key]
    let s : Scan :=
      { s with
        items := fillSlot key.slot filling s.items
        columns := if opens then key.column :: s.columns else s.columns
        candidate := none
        keyAllowed := false }
    .ok (s.take .value 1)
  | none => do
    let s ← s.openAtIndicator .blockMappingStart
    return { s.take .value 1 with keyAllowed := !s.inFlow }

/-- A token that may be part of a key: noted as such, then read by the given function. -/
def fetchContent (s : Scan) (read : Cursor → Except Error (Token × Cursor)) :
    Except Error Scan := do
  let s ← s.noteKey
  let (token, behind) ← read s.cursor
  return { s.emit token with cursor := behind, keyAllowed := false }

/-- A block scalar, which is never a key. -/
def fetchBlockScalar (bound : Nat) (s : Scan) (folded : Bool) : Except Error Scan := do
  let s ← s.dropKey
  let (text, behind) ← blockScalar folded s.margin bound (s.cursor.advance 1)
  let token := Token.scalar (if folded then .foldedBlock else .literalBlock) (String.ofList text)
  return { s.emit token with cursor := behind, keyAllowed := true }

/-- A quoted scalar. -/
def fetchQuoted (bound : Nat) (s : Scan) (quote : Char) : Except Error Scan :=
  s.fetchContent fun c =>
    (quotedTail quote bound (c.advance 1) .none).map fun p =>
      (.scalar .quoted (String.ofList p.1), p.2)

/-- A plain scalar. If a line ends behind it, a key may start next. -/
def fetchPlain (bound : Nat) (s : Scan) : Except Error Scan := do
  let s ← s.noteKey
  let (text, behind, gap) ← plainTail s.inFlow s.margin bound s.cursor .none
  return { s.emit (.scalar .plain (String.ofList text)) with
    cursor := behind, keyAllowed := gap.isMultiline }

/-- Characters that start no plain scalar. -/
def isIndicator (c : Char) : Bool :=
  "-?:,[]{}#&*!|>'\"%@`".toList.contains c

/-- Whether a plain scalar starts with a character, given what follows it. -/
def startsPlain (inFlow : Bool) (c : Char) (more : List Char) : Bool :=
  !(isBlank c || isBreak c || isIndicator c) || (c == '-' && !more.head?.any isBlank) ||
    (!inFlow && (c == '?' || c == ':') && !endsWord more)

/-- The next token, given that white space has been skipped and a character is left. -/
def fetch (bound : Nat) (s : Scan) : Except Error Scan :=
  match s.cursor.rest with
  | [] => .ok s
  | c :: more =>
    if s.cursor.column = 0 ∧ c = '%' then s.fetchDirective
    else if s.cursor.isAtMarker '-' then s.fetchMarker .documentStart
    else if s.cursor.isAtMarker '.' then s.fetchMarker .documentEnd
    else if c = '[' then s.fetchOpening .flowSequenceStart
    else if c = '{' then s.fetchOpening .flowMappingStart
    else if c = ']' then s.fetchClosing .flowSequenceEnd
    else if c = '}' then s.fetchClosing .flowMappingEnd
    else if c = ',' then s.fetchComma
    else if c = '-' ∧ endsWord more then s.fetchEntry
    else if c = '?' ∧ (s.inFlow ∨ endsWord more) then s.fetchKey
    else if c = ':' ∧ (s.inFlow ∨ endsWord more) then s.fetchValue
    else if c = '*' then
      s.fetchContent fun c => (anchorName (c.advance 1)).map fun p => (.alias p.1, p.2)
    else if c = '&' then
      s.fetchContent fun c => (anchorName (c.advance 1)).map fun p => (.anchor p.1, p.2)
    else if c = '!' then s.fetchContent (tagToken s.inFlow)
    else if c = '|' ∧ !s.inFlow then s.fetchBlockScalar bound false
    else if c = '>' ∧ !s.inFlow then s.fetchBlockScalar bound true
    else if c = '\'' ∨ c = '"' then s.fetchQuoted bound c
    else if startsPlain s.inFlow c more then s.fetchPlain bound
    else .error .noToken

/-- Scans to the end of the text, in at most so many steps. -/
def toEnd (bound : Nat) : Nat → Scan → Except Error Scan
  | 0, _ => .error .noToken
  | steps + 1, s => do
    let s ← (s.skipSpace bound).dropStale
    let s := s.closeBlocks fun column => decide (s.cursor.column < column)
    if s.cursor.rest.isEmpty then
      let s ← (s.closeBlocks fun _ => true).dropKey
      return s.emit .streamEnd
    else toEnd bound steps (← s.fetch bound)

end Scan

/-- The tokens of a document. -/
def Token.ofText (text : String) : Except Error (List Token) := do
  let chars := text.toList
  if !chars.all isAllowed then throw .forbiddenCharacter
  let bound := chars.length + 1
  let s ← Scan.toEnd bound (bound + 1) { cursor := { rest := chars } }
  return s.items.reverse.filterMap Item.token?

end ResourceStubs.Yaml
