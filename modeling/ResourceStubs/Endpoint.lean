import ResourceStubs.Annotation
import ResourceStubs.TypeRef

/-!
# Endpoints

An endpoint is one operation of a resource: a verb, its paths, and what decorates it. Documents may
give several paths and several modifiers of one kind, and all of them are kept. Rendering is more
selective: only the first path is used for routes and names (`Endpoint.primaryPath`), and only the
first expected body becomes a parameter (`Endpoint.expectedBody`). An endpoint without paths has the
empty path.
-/

namespace ResourceStubs

/-- The verbs an endpoint may answer. -/
inductive Verb where
  | get
  | post
  | put
  | patch
  | delete
  | head
  | options
  deriving DecidableEq, Inhabited, Repr

namespace Verb

/-- Every verb, in the order in which messages list them. -/
def all : List Verb :=
  [get, post, put, patch, delete, head, options]

/-- A verb as it is written in documents. -/
def text : Verb → String
  | get => "GET"
  | post => "POST"
  | put => "PUT"
  | patch => "PATCH"
  | delete => "DELETE"
  | head => "HEAD"
  | options => "OPTIONS"

end Verb

/-- A declared parameter. -/
structure Param where
  /-- The name it is bound under. -/
  name : String
  /-- Its type. -/
  type : TypeRef
  /-- Whether a request may leave it out. -/
  optional : Bool := false
  deriving Inhabited, Repr

/-- What decorates an endpoint. -/
inductive Modifier where
  /-- The request has a body of this type. -/
  | expects (type : TypeRef)
  /-- The response has this status; codes are not checked. -/
  | status (code : Int32)
  /-- The caller needs this role. -/
  | secure (role : String)
  /-- The call runs in a transaction. -/
  | tx
  deriving Inhabited, Repr

/-- One operation of a resource or of a trait. -/
structure Endpoint where
  /-- The verb it answers. -/
  verb : Verb
  /-- The paths it is declared with, of which the first counts. -/
  paths : List String
  /-- Its annotations. -/
  annotations : List Annotation := []
  /-- Its parameters. -/
  params : List Param := []
  /-- Its modifiers. -/
  modifiers : List Modifier := []
  /-- The type of its result, if it has one. -/
  returns : Option TypeRef := none
  /-- Whether it replaces an inherited endpoint. -/
  overriding : Bool := false
  deriving Inhabited, Repr

namespace Endpoint

/-- The path that routes and names are made from; empty when there is none. -/
def primaryPath (e : Endpoint) : String :=
  e.paths.headD ""

/-- The body type a modifier asks for. -/
def bodyOf : Modifier → Option TypeRef
  | .expects type => some type
  | _ => none

/-- The type of the request body: that of the first modifier that asks for one. -/
def expectedBody (e : Endpoint) : Option TypeRef :=
  e.modifiers.findSome? bodyOf

end Endpoint

end ResourceStubs
