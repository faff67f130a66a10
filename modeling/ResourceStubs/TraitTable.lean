import ResourceStubs.Event
import ResourceStubs.Resource

/-!
# The table of declared traits

Trait uses refer to traits by name, so names must not repeat. The table is built before anything is
rendered: a repeated name is reported even if no resource uses a trait. Of several repetitions the
one that is complete first counts, which is what a loop over the declarations finds.

A use stands for the endpoints of the trait. A member of a trait and the endpoint in it may both be
marked as overriding, and the endpoint that is inserted has the mark if either has it
(`TraitMember.stamped`).
-/

namespace ResourceStubs

/-- What can be wrong with traits. -/
inductive TraitError where
  /-- A use names a trait that is not declared. -/
  | unknown (name : String)
  /-- Two traits have the same name. -/
  | duplicate (name : String)
  deriving DecidableEq, Inhabited, Repr

/-- The message of a trait error. -/
def TraitError.message : TraitError → String
  | .unknown name => "No such trait: '" ++ name ++ "'"
  | .duplicate name => "Trait '" ++ name ++ "' is declared more than once"

/-- The endpoint a use inserts for a member. The mark of the member is added to that of the
endpoint, never removed. -/
def TraitMember.stamped (m : TraitMember) : Endpoint :=
  if m.overriding then { m.endpoint with overriding := true } else m.endpoint

/-- The declared traits of a unit. -/
structure TraitTable where
  /-- The traits, in declaration order. -/
  traits : List Trait
  deriving Inhabited

namespace TraitTable

/-- The first name that occurs a second time, given the names seen so far. -/
def firstRepeated (seen : List String) : List Trait → Option String
  | [] => none
  | t :: rest => if seen.contains t.name then some t.name else firstRepeated (t.name :: seen) rest

/-- The table of a list of traits, unless a name repeats. -/
def ofList (traits : List Trait) : Except TraitError TraitTable :=
  match firstRepeated [] traits with
  | some name => .error (.duplicate name)
  | none => .ok ⟨traits⟩

/-- The trait with a given name. -/
def get? (table : TraitTable) (name : String) : Option Trait :=
  table.traits.find? (·.name == name)

/-- The endpoints that a use of the named trait stands for, in member order. -/
def resolve (table : TraitTable) (name : String) : Traced TraitError (List Endpoint) := do
  match table.get? name with
  | none => .ofExcept (.error (.unknown name))
  | some t =>
    .announce (.traitExpanded t.name t.members.length)
    return t.members.map TraitMember.stamped

end TraitTable

end ResourceStubs
