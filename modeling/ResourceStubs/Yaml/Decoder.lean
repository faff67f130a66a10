import ResourceStubs.Shape
import ResourceStubs.Yaml.Anchors
import ResourceStubs.Yaml.PlainValue
import ResourceStubs.Yaml.TokenStream

/-!
# YAML as a document format

The readers of the parts of a YAML document. A reader knows how many sequences and mappings may
still be entered around what it reads, and how often aliases were followed so far.

Texts and keys take the text of any scalar, whatever it looks like. An empty plain scalar also
stands for an empty list, map or record. A choice is a mapping with the case as its only key, or a
text for a case without data. An annotation argument takes any kind of value, so there it is decided
by style and tag what a scalar stands for (`Yaml.scalarValue`).

An alias is followed wherever a node is looked at (`Yaml.follow`). Its target is read like any other
node, within the nesting of the place where the alias stands.
-/

namespace ResourceStubs.Yaml

/-- A step that counts how often aliases were followed. -/
abbrev Decode (α : Type) := StateT Nat (Except Error) α

/-- A reader of a node of a graph, given how many collections may still be entered. -/
def Decoder (α : Type) : Type := Graph → Nat → Node Nat → Decode α

/-- The number of collections that a document may nest. -/
def nestingLimit : Nat := 128

/-- The nesting that remains inside a collection. -/
def enter : Nat → Decode Nat
  | 0 => throw .nestedTooDeeply
  | depth + 1 => return depth

/-- The node that an alias stands for; any other node stands for itself. -/
def follow (graph : Graph) : Node Nat → Decode (Node Nat)
  | .alias number => do
    let jumps := (← get) + 1
    if graph.jumpLimit < jumps then throw .tooManyAliases
    set jumps
    match graph.targets.lookup number with
    | some target => return target
    | none => throw .unknownAlias
  | node => return node

/-! ## Scalars -/

/-- The tags of the kinds of scalars. -/
def scalarTag (kind : String) : String :=
  "tag:yaml.org,2002:" ++ kind

/-- Whether a scalar can be read as a kind that is not a text: it is plain, or a literal block with
the tag. -/
def readsAs (kind : String) (properties : Properties) (style : Style) : Bool :=
  style == .plain || (style == .literalBlock && properties.tag == some (scalarTag kind))

/-- A text. -/
def string : Decoder String := fun graph _ node => do
  match ← follow graph node with
  | .scalar _ _ text => return text
  | _ => throw (.wrongType "a string")

/-- A truth value. -/
def bool : Decoder Bool := fun graph _ node => do
  match ← follow graph node with
  | .scalar properties style text =>
    match if readsAs "bool" properties style then boolOf text else none with
    | some value => return value
    | none => throw (.wrongType "a boolean")
  | _ => throw (.wrongType "a boolean")

/-- A whole number of 32 bits. -/
def int32 : Decoder Int32 := fun graph _ node => do
  match ← follow graph node with
  | .scalar properties style text =>
    match if readsAs "int" properties style then intOf text else none with
    | some n =>
      if -Int.pow 2 31 ≤ n ∧ n < Int.pow 2 31 then return Int32.ofInt n
      else throw (.wrongType "i32")
    | none => throw (.wrongType "i32")
  | _ => throw (.wrongType "i32")

/-- Whether a tag is local to a document. Such tags name cases of choices, which is not how choices
are written here. -/
def isLocalTag (properties : Properties) : Bool :=
  properties.tag.any fun tag => tag.toList.head? == some '!'

/-- What a scalar stands for where any kind of value may stand. -/
def scalarValue (properties : Properties) (style : Style) (text : String) :
    Except Error PlainValue :=
  if isLocalTag properties then .error (.wrongType "a value without local tag")
  else
    match properties.tag with
    | none => .ok (if style = .plain then PlainValue.of text else .text)
    | some tag =>
      if tag = scalarTag "bool" then
        match boolOf text with
        | some b => .ok (.bool b)
        | none => .error (.wrongType "a boolean")
      else if tag = scalarTag "int" then
        match intOf128 text with
        | some n => .ok (.int n)
        | none => .error (.wrongType "an integer")
      else if tag = scalarTag "float" then
        if isFloat text then .ok .float else .error (.wrongType "a float")
      else if tag = scalarTag "null" then
        if isNull text then .ok .null else .error (.wrongType "null")
      else .ok .text

/-- The value of an annotation argument. -/
def literal : Decoder Literal := fun graph _ node => do
  match ← follow graph node with
  | .scalar properties style text =>
    match ← scalarValue properties style text with
    | .int n =>
      if -Int.pow 2 63 ≤ n ∧ n < Int.pow 2 63 then return .int (Int64.ofInt n)
      else throw (.wrongType "a literal")
    | .text => return .string text
    | _ => throw (.wrongType "a literal")
  | _ => throw (.wrongType "a literal")

/-- Whether a scalar stands for a value that is left out. -/
def isAbsent (properties : Properties) (style : Style) (text : String) : Except Error Bool :=
  if style ≠ .plain then .ok false
  else
    match properties.tag with
    | none => .ok (text.isEmpty || isNull text)
    | some tag =>
      if tag = scalarTag "null" then
        if isNull text then .ok true else .error (.wrongType "null")
      else .ok false

/-- A value that may be null. -/
def nullable {α : Type} (item : Decoder α) : Decoder (Option α) := fun graph depth node => do
  let node ← follow graph node
  match node with
  | .scalar properties style text =>
    if ← isAbsent properties style text then return none else some <$> item graph depth node
  | _ => some <$> item graph depth node

/-! ## Lists and maps -/

/-- Whether a node is an empty plain scalar, which also stands for an empty collection. -/
def isEmptyPlain : Node Nat → Bool
  | .scalar _ .plain text => text.isEmpty
  | _ => false

/-- The items of a list. -/
def items {α : Type} (item : Node Nat → Decode α) : List (Node Nat) → Decode (List α)
  | [] => return []
  | node :: rest => do
    let a ← item node
    return a :: (← items item rest)

/-- A list of values. -/
def list {α : Type} (item : Decoder α) : Decoder (List α) := fun graph depth node => do
  match ← follow graph node with
  | .sequence _ nodes =>
    let inner ← enter depth
    items (item graph inner) nodes
  | node => if isEmptyPlain node then return [] else throw (.wrongType "a sequence")

/-- The entries of a map. -/
def entries {α : Type} (graph : Graph) (item : Node Nat → Decode α) :
    List (Node Nat × Node Nat) → Decode (List (String × α))
  | [] => return []
  | (key, value) :: rest => do
    let name ← string graph 0 key
    let a ← item value
    return (name, a) :: (← entries graph item rest)

/-- The arguments of an annotation. -/
def args : Decoder ArgMap := fun graph depth node => do
  match ← follow graph node with
  | .mapping _ pairs =>
    let inner ← enter depth
    return ArgMap.ofList (← entries graph (literal graph inner) pairs)
  | node => if isEmptyPlain node then return .empty else throw (.wrongType "a map")

/-! ## Records -/

/-- Reads the member with the given key into its slot; the value of an unknown member is skipped. -/
def member (graph : Graph) (depth : Nat) (key : String) (value : Node Nat) :
    {αs : List Type} → Fields Decoder αs → Slots αs → Decode (Slots αs)
  | _, .nil, () => return ()
  | _, .cons field rest, (slot, slots) =>
    if field.name = key then
      if slot.isSome then throw (.duplicateField key)
      else do
        let a ← field.read graph depth value
        return (some a, slots)
    else do
      let slots ← member graph depth key value rest slots
      return (slot, slots)

/-- The members of a record. -/
def members {αs : List Type} (graph : Graph) (depth : Nat) (fields : Fields Decoder αs) :
    List (Node Nat × Node Nat) → Slots αs → Decode (Slots αs)
  | [], slots => return slots
  | (key, value) :: rest, slots => do
    let name ← string graph 0 key
    let slots ← member graph depth name value fields slots
    members graph depth fields rest slots

/-- The values of filled slots. -/
def closeSlots {αs : List Type} (fields : Fields Decoder αs) (slots : Slots αs) : Decode (Row αs) :=
  match fields.close slots with
  | .ok values => return values
  | .error missing => throw (.missingField missing)

/-- A record. -/
def record {αs : List Type} (name : String) (fields : Fields Decoder αs) :
    Decoder (Row αs) := fun graph depth node => do
  match ← follow graph node with
  | .mapping _ pairs =>
    let inner ← enter depth
    let slots ← members graph inner fields pairs (Slots.empty αs)
    closeSlots fields slots
  | node =>
    if isEmptyPlain node then closeSlots fields (Slots.empty αs) else throw (.wrongType name)

/-! ## Choices -/

/-- The case with the given name. -/
def findCase {α : Type} (cases : List (String × Case Decoder α)) (name : String) :
    Decode (Case Decoder α) :=
  match cases.lookup name with
  | some case => return case
  | none => throw (.unknownVariant name)

/-- A choice between named cases. -/
def choice {α : Type} (cases : List (String × Case Decoder α)) :
    Decoder α := fun graph depth node => do
  match ← follow graph node with
  | .scalar properties style text =>
    match ← scalarValue properties style text with
    | .text =>
      match ← findCase cases text with
      | .bare value => return value
      | _ => throw (.wrongType "a case with data")
    | _ => throw (.wrongType "a choice")
  | .mapping properties [(key, value)] =>
    if isLocalTag properties then throw (.wrongType "a value without local tag")
    let inner ← enter depth
    let name ← string graph 0 key
    match ← findCase cases name with
    | .bare _ => throw (.wrongType "a case without data")
    | .value read => read graph inner value
    | .body read => read graph inner value
  | _ => throw (.wrongType "a choice")

/-! ## Recursion -/

/-- The reader of a recursive shape to a limited depth. -/
def unroll {α : Type} (shape : Decoder α → Decoder α) : Nat → Decoder α
  | 0 => fun _ _ _ => throw .nestedTooDeeply
  | levels + 1 => fun graph depth node => shape (unroll shape levels) graph depth node

/-- The reader of a recursive shape. A shape refers to itself only inside collections, so the
nesting that remains bounds the recursion. -/
def recursive {α : Type} (shape : Decoder α → Decoder α) : Decoder α := fun graph depth node =>
  unroll shape (depth + 1) graph depth node

instance : Format Decoder where
  map f read := fun graph depth node => f <$> read graph depth node
  string := string
  bool := bool
  int32 := int32
  literal := literal
  args := args
  nullable := nullable
  list := list
  record := record
  choice := choice
  recursive := recursive

/-! ## Documents -/

/-- Reads a whole document. A text without any document reads like an empty plain scalar. -/
def read {α : Type} (decoder : Decoder α) (text : String) : Except Error α := do
  let tokens ← Token.ofText text
  let tree ← document tokens
  let graph ← Graph.ofNode (tree.getD (.empty {}))
  let (value, _) ← (decoder graph nestingLimit graph.root).run 0
  return value

end ResourceStubs.Yaml
