import ResourceStubs.Endpoint

/-!
# Resources, traits and compilation units

A compilation unit declares traits and a forest of resources. A resource lists, in one sequence, its
own endpoints, its nested resources and the traits it uses. A trait lists endpoints that a use
inserts in place.

Resources and their contents are defined by mutual recursion, so functions on them come in groups:
one for a resource, one for an item, one for a list of items. Traits are not recursive. They hold
endpoints only, which keeps a use from inserting further uses.
-/

namespace ResourceStubs

mutual

/-- A node of the resource forest. -/
inductive Resource where
  /-- A resource with its path segment, its decoration and its content in declaration order. -/
  | mk (path : String) (annotations : List Annotation) (params : List Param)
      (content : List Content)

/-- One item of a resource's content. -/
inductive Content where
  /-- An endpoint of the resource itself. -/
  | endpoint (endpoint : Endpoint)
  /-- A nested resource. -/
  | resource (resource : Resource)
  /-- A use of the named trait. -/
  | use (name : String)

end

namespace Resource

/-- The path segment of a resource. -/
def path : Resource → String
  | .mk path _ _ _ => path

/-- The annotations of a resource. -/
def annotations : Resource → List Annotation
  | .mk _ annotations _ _ => annotations

/-- The parameters declared for a whole resource. -/
def params : Resource → List Param
  | .mk _ _ params _ => params

/-- The content of a resource in declaration order. -/
def content : Resource → List Content
  | .mk _ _ _ content => content

end Resource

instance : Inhabited Resource :=
  ⟨.mk "" [] [] []⟩

instance : Inhabited Content :=
  ⟨.use ""⟩

/-- An endpoint offered by a trait. -/
structure TraitMember where
  /-- The endpoint. -/
  endpoint : Endpoint
  /-- Whether a use marks the endpoint as overriding. -/
  overriding : Bool := false
  deriving Inhabited, Repr

/-- A named group of endpoints. -/
structure Trait where
  /-- The name that uses refer to. -/
  name : String
  /-- Type parameters; they are recorded only. -/
  generics : List String := []
  /-- The endpoints, in the order in which a use inserts them. -/
  members : List TraitMember := []
  /-- A description; it is recorded only. -/
  doc : Option String := none
  deriving Inhabited, Repr

/-- Everything one document declares. -/
structure CompilationUnit where
  /-- The package of the generated classes. -/
  package : Option String := none
  /-- Extra imports of every generated class. -/
  imports : List String := []
  /-- The declared traits. -/
  traits : List Trait := []
  /-- The resource forest. -/
  resources : List Resource := []
  deriving Inhabited

end ResourceStubs
