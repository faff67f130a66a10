import ResourceStubs.Json.Numbers
import ResourceStubs.Json.Skipping
import ResourceStubs.Shape

/-!
# JSON as a document format

The readers of the parts of a JSON document. A reader knows how many lists and objects may still be
opened around what it reads; a document that opens more is refused where it opens them.

A record is an object, or a list of its members in order. In an object the members come in any order
and unknown ones are skipped, so their values are put into slots until the closing brace
(`Json.members`). A choice is an object with the case as its only key, or a bare name for a case
without data.

A value of another kind than the expected one is refused by `Json.refuse`, which reads as much of it
as the message shows: a text or a number that is not valid is then the error, and not its kind.

A recursive shape refers to itself only inside lists and objects. The nesting that remains bounds
the number of its levels, so it is unrolled that often (`Json.recursive`) and no reader needs
general recursion.
-/

namespace ResourceStubs.Json

/-- A reader of a value, given how many lists and objects may still be opened. -/
def Reader (α : Type) : Type := Nat → Read α

/-- The number of lists and objects that a document may nest. -/
def nestingLimit : Nat := 127

/-- Opens a list or an object whose bracket is next, and gives the nesting that remains inside. -/
def enter : Nat → Read Nat
  | 0 => throw .recursionLimit
  | depth + 1 => do
    skipOne
    return depth

/-- Refuses the next value, which is of another kind than the one expected. Its text still has to be
JSON as far as it is shown in the message. -/
def refuse {α : Type} (expected : String) : Read α := do
  match ← peek with
  | none => throw .endInValue
  | some 'n' =>
    word "ull"
    throw (.wrongType .null expected)
  | some 't' =>
    word "rue"
    throw (.wrongType (.bool true) expected)
  | some 'f' =>
    word "alse"
    throw (.wrongType (.bool false) expected)
  | some '"' =>
    let text ← quotedString
    throw (.wrongType (.string text) expected)
  | some '[' => throw (.wrongType .sequence expected)
  | some '{' => throw (.wrongType .map expected)
  | some c =>
    if c = '-' ∨ isDigit c then
      let n ← number
      throw (.wrongType n.found expected)
    else throw .expectedValue

/-! ## Single values -/

/-- A text. -/
def string : Reader String := fun _ => do
  match ← peek with
  | some '"' => quotedString
  | _ => refuse "a string"

/-- A truth value. -/
def bool : Reader Bool := fun _ => do
  match ← peek with
  | some 't' =>
    word "rue"
    return true
  | some 'f' =>
    word "alse"
    return false
  | _ => refuse "a boolean"

/-- A whole number of 32 bits. -/
def int32 : Reader Int32 := fun _ => do
  match ← peek with
  | some c =>
    if c = '-' ∨ isDigit c then
      match ← number with
      | .integer n =>
        if -Int.pow 2 31 ≤ n ∧ n < Int.pow 2 31 then return Int32.ofInt n
        else throw (.wrongValue n "i32")
      | .float x => throw (.wrongType (.float x) "i32")
    else refuse "i32"
  | none => refuse "i32"

/-- A value that may be null. -/
def nullable {α : Type} (item : Reader α) : Reader (Option α) := fun depth => do
  match ← peek with
  | some 'n' =>
    word "ull"
    return none
  | _ => some <$> item depth

/-! ## Lists and maps -/

/-- The elements of a list up to its closing bracket, in at most so many steps. -/
def elements {α : Type} (item : Read α) : Nat → Bool → Read (List α)
  | 0, _ => throw .recursionLimit
  | steps + 1, first => do
    if ← hasElement first then
      let a ← item
      let more ← elements item steps false
      return a :: more
    else return []

/-- The members of a map up to its closing brace, in at most so many steps. -/
def entries {α : Type} (item : Read α) : Nat → Bool → Read (List (String × α))
  | 0, _ => throw .recursionLimit
  | steps + 1, first => do
    if ← hasKey first then
      let key ← quotedString
      colon
      let a ← item
      let more ← entries item steps false
      return (key, a) :: more
    else return []

/-- All elements of a list. Every element takes at least one character, which bounds their
number. -/
def allElements {α : Type} (item : Read α) : Read (List α) := do
  let items ← elements item ((← get).length + 1) true
  closeList
  return items

/-- All members of a map. Every member takes at least one character, which bounds their number. -/
def allEntries {α : Type} (item : Read α) : Read (List (String × α)) := do
  let items ← entries item ((← get).length + 1) true
  skipOne
  return items

/-- A list of values. -/
def list {α : Type} (item : Reader α) : Reader (List α) := fun depth => do
  match ← peek with
  | some '[' =>
    let inner ← enter depth
    allElements (item inner)
  | _ => refuse "a sequence"

/-- Any value that is neither list nor object, of which only whole numbers of 64 bits and texts are
kept. -/
def singleLiteral : Read (Option Literal) := do
  match ← peek with
  | none => throw .endInValue
  | some 'n' =>
    word "ull"
    return none
  | some 't' =>
    word "rue"
    return none
  | some 'f' =>
    word "alse"
    return none
  | some '"' => return some (.string (← quotedString))
  | some c =>
    if c = '-' ∨ isDigit c then
      match ← number with
      | .integer n =>
        return if -Int.pow 2 63 ≤ n ∧ n < Int.pow 2 63 then some (.int (Int64.ofInt n)) else none
      | .float _ => return none
    else throw .expectedValue

/-- Any value, of which only whole numbers of 64 bits and texts are kept. -/
def anyLiteral : Reader (Option Literal)
  | 0 => do
    match ← peek with
    | some '[' => throw .recursionLimit
    | some '{' => throw .recursionLimit
    | _ => singleLiteral
  | inner + 1 => do
    match ← peek with
    | some '[' =>
      skipOne
      let _ ← allElements (anyLiteral inner)
      return none
    | some '{' =>
      skipOne
      let _ ← allEntries (anyLiteral inner)
      return none
    | _ => singleLiteral

/-- The value of an annotation argument. -/
def literal : Reader Literal := fun depth => do
  match ← anyLiteral depth with
  | some value => return value
  | none => throw .noLiteral

/-- The arguments of an annotation. -/
def args : Reader ArgMap := fun depth => do
  match ← peek with
  | some '{' =>
    let inner ← enter depth
    return ArgMap.ofList (← allEntries (literal inner))
  | _ => refuse "a map"

/-! ## Records -/

/-- How messages about the length of a list name a record. -/
def lengthExpected (record : String) (count : Nat) : String :=
  record ++ " with " ++ toString count ++ (if count = 1 then " element" else " elements")

/-- The members of a record that is written as a list, from the one with the given index on. -/
def row (expected : String) (depth : Nat) :
    {αs : List Type} → Fields Reader αs → Nat → Read (Row αs)
  | _, .nil, _ => return ()
  | _, .cons field rest, index => do
    if ← hasElement (index = 0) then
      let value ← field.read depth
      let values ← row expected depth rest (index + 1)
      return (value, values)
    else
      match field.absent with
      | some value =>
        let values ← row expected depth rest (index + 1)
        return (value, values)
      | none => throw (.wrongLength index expected)

/-- Reads the member with the given key into its slot; the value of an unknown member is skipped. -/
def member (depth : Nat) (key : String) :
    {αs : List Type} → Fields Reader αs → Slots αs → Read (Slots αs)
  | _, .nil, () => do
    colon
    skip
  | _, .cons field rest, (slot, slots) =>
    if field.name = key then
      if slot.isSome then throw (.duplicateField key)
      else do
        colon
        let value ← field.read depth
        return (some value, slots)
    else do
      let slots ← member depth key rest slots
      return (slot, slots)

/-- The members of a record up to the closing brace, in at most so many steps. -/
def members {αs : List Type} (fields : Fields Reader αs) (depth : Nat) :
    Nat → Bool → Slots αs → Read (Slots αs)
  | 0, _, _ => throw .recursionLimit
  | steps + 1, first, slots => do
    if ← hasKey first then
      let key ← quotedString
      let slots ← member depth key fields slots
      members fields depth steps false slots
    else return slots

/-- A record, as an object or as a list. -/
def record {αs : List Type} (name : String) (fields : Fields Reader αs) :
    Reader (Row αs) := fun depth => do
  match ← peek with
  | some '[' =>
    let inner ← enter depth
    let values ← row (lengthExpected name fields.count) inner fields 0
    closeList
    return values
  | some '{' =>
    let inner ← enter depth
    let slots ← members fields inner ((← get).length + 1) true (Slots.empty αs)
    match fields.close slots with
    | .ok values =>
      skipOne
      return values
    | .error missing => throw (.missingField missing)
  | _ => refuse name

/-! ## Choices -/

/-- The case with the given name. -/
def findCase {α : Type} (cases : List (String × Case Reader α)) (name : String) :
    Read (Case Reader α) :=
  match cases.lookup name with
  | some case => return case
  | none => throw (.unknownVariant name (cases.map (·.1)))

/-- The key of the only member of an object. -/
def caseName : Read String := do
  match ← peek with
  | some '"' => quotedString
  | some '}' => throw .expectedValue
  | some _ => throw .keyMustBeString
  | none => throw .endInObject

/-- The data of a case that is written as a member of an object. -/
def caseData {α : Type} : Case Reader α → Reader α
  | .bare value => fun _ => do
    match ← peek with
    | some 'n' =>
      word "ull"
      return value
    | _ => refuse "unit"
  | .value read => read
  | .body read => read

/-- A case that is written as a bare name. -/
def bareCase {α : Type} : Case Reader α → Read α
  | .bare value => return value
  | .value _ => throw (.wrongType .unitVariant "newtype variant")
  | .body _ => throw (.wrongType .unitVariant "struct variant")

/-- A choice between named cases. -/
def choice {α : Type} (cases : List (String × Case Reader α)) : Reader α := fun depth => do
  match ← peek with
  | some '{' =>
    let inner ← enter depth
    let name ← caseName
    let case ← findCase cases name
    colon
    let value ← caseData case inner
    match ← peek with
    | some '}' =>
      skipOne
      return value
    | some _ => throw .expectedValue
    | none => throw .endInObject
  | some '"' =>
    let name ← quotedString
    let case ← findCase cases name
    bareCase case
  | some _ => throw .expectedValue
  | none => throw .endInValue

/-! ## Recursion -/

/-- The reader of a recursive shape to a limited depth. -/
def unroll {α : Type} (shape : Reader α → Reader α) : Nat → Reader α
  | 0 => fun _ => throw .recursionLimit
  | levels + 1 => fun depth => shape (unroll shape levels) depth

/-- The reader of a recursive shape. A shape refers to itself only inside lists and objects, so the
nesting that remains bounds the recursion. -/
def recursive {α : Type} (shape : Reader α → Reader α) : Reader α := fun depth =>
  unroll shape (depth + 1) depth

instance : Format Reader where
  map f read := fun depth => f <$> read depth
  string := string
  bool := bool
  int32 := int32
  literal := literal
  args := args
  nullable := nullable
  list := list
  record := record
  choice := choice
  recursive := recursive

/-! ## Documents -/

/-- Reads a whole document, after which only white space may follow. -/
def read {α : Type} (reader : Reader α) (text : String) : Except Error α := do
  let (value, rest) ← reader nestingLimit text.toList
  if rest.all isSpace then return value else throw .trailingCharacters

end ResourceStubs.Json
