import ResourceStubs.Annotation

/-!
# Shapes of documents

A unit can be read from several document formats, and all of them describe the same shape: records
with named members, choices between named cases, lists, optional values. This module says what a
format must offer (`Format`); a reader of units is then written once, for every format.

A record has its members in a fixed order, each with the value it takes when a document leaves it
out. The types of the members differ, so they are described by a list of types: the values of its
members form a `Row` over that list, and while a document is being read, the members seen so far
form `Slots`. When the record ends, `Fields.close` fills the open slots with their defaults or names
the first member that is missing.

Every format bounds recursion in its own way, so recursive shapes are part of the interface as well.
-/

namespace ResourceStubs

/-- A member of a record: its name, the reader of its value, and the value it has when it is left
out. -/
structure RecordField (R : Type → Type) (α : Type) where
  /-- The name in documents. -/
  name : String
  /-- How its value is read. -/
  read : R α
  /-- The value of a member that is left out; none for a member that must be there. -/
  absent : Option α

/-- A member that must be there. -/
def RecordField.required {R : Type → Type} {α : Type} (name : String) (read : R α) :
    RecordField R α :=
  ⟨name, read, none⟩

/-- A member that may be left out. -/
def RecordField.withDefault {R : Type → Type} {α : Type} (name : String) (read : R α) (value : α) :
    RecordField R α :=
  ⟨name, read, some value⟩

/-- The members of a record, in order, indexed by the types of their values. -/
inductive Fields (R : Type → Type) : List Type → Type 1 where
  /-- No members. -/
  | nil : Fields R []
  /-- A member and those after it. -/
  | cons {α : Type} {αs : List Type} (field : RecordField R α) (rest : Fields R αs) :
      Fields R (α :: αs)

/-- The number of members of a record. -/
def Fields.count {R : Type → Type} {αs : List Type} : Fields R αs → Nat
  | .nil => 0
  | .cons _ rest => rest.count + 1

/-- A value for each of a list of types. -/
def Row : List Type → Type
  | [] => Unit
  | α :: αs => α × Row αs

/-- At most one value for each of a list of types. -/
def Slots : List Type → Type
  | [] => Unit
  | α :: αs => Option α × Slots αs

/-- Slots without any value. -/
def Slots.empty : (αs : List Type) → Slots αs
  | [] => ()
  | _ :: αs => (none, Slots.empty αs)

/-- The row of filled slots, where missing members take their default; the name of the first member
that has neither a value nor a default otherwise. -/
def Fields.close {R : Type → Type} {αs : List Type} :
    Fields R αs → Slots αs → Except String (Row αs)
  | .nil, () => .ok ()
  | .cons field rest, (slot, slots) =>
    match slot.or field.absent with
    | none => .error field.name
    | some value => (rest.close slots).map (value, ·)

/-- One case of a choice. -/
inductive Case (R : Type → Type) (α : Type) where
  /-- A case without data. -/
  | bare (value : α)
  /-- A case with one value. -/
  | value (read : R α)
  /-- A case with named members. -/
  | body (read : R α)

/-- What a document format must offer to read units. -/
class Format (R : Type → Type) where
  /-- Applies a function to what is read. -/
  map {α β : Type} : (α → β) → R α → R β
  /-- A text. -/
  string : R String
  /-- A truth value. -/
  bool : R Bool
  /-- A whole number of 32 bits. -/
  int32 : R Int32
  /-- The value of an annotation argument. -/
  literal : R Literal
  /-- The arguments of an annotation; of repeated keys the last one counts. -/
  args : R ArgMap
  /-- A value that may be null. -/
  nullable {α : Type} : R α → R (Option α)
  /-- A list of values. -/
  list {α : Type} : R α → R (List α)
  /-- A record, with its name in messages. -/
  record {αs : List Type} : String → Fields R αs → R (Row αs)
  /-- A choice between named cases. -/
  choice {α : Type} : List (String × Case R α) → R α
  /-- A reader that refers to itself inside a list, a record or a choice. -/
  recursive {α : Type} : (R α → R α) → R α

end ResourceStubs
