import ResourceStubs.ClassLayout
import ResourceStubs.Text.Blank
import ResourceStubs.TraitTable

/-!
# Controllers

Every resource of a unit becomes one class. The forest is walked depth first: a resource comes
before its nested resources, and those come in declaration order. Inside one resource, endpoints and
trait uses become methods in declaration order, wherever the nested resources stand between them.

The walk visits the content of a resource twice. `Resource.methods` collects the methods and passes
over nested resources; `renderContents` then renders these and passes over the rest. What all
classes of a unit share, the package name, the imports and the table of traits, goes along in a
`RenderContext`, and the path segments of the resources around grow by one on the way down.

`CompilationUnit.render` builds the table of traits before it walks, so that a repeated trait name
is reported first. The result carries the announced events; `CompilationUnit.controllers` is the
result without them.
-/

namespace ResourceStubs

/-- A rendered class. -/
structure Controller where
  /-- The name of the class. -/
  className : String
  /-- The concatenated paths from the outermost resource down to this one. -/
  routePrefix : String
  /-- The text of the class. -/
  source : String
  deriving DecidableEq, Inhabited, Repr

/-- The file a class is written to. -/
def Controller.fileName (c : Controller) : String :=
  c.className ++ ".java"

/-- What rendering a resource needs to know of its unit. -/
structure RenderContext where
  /-- The package without surrounding blanks. -/
  package : String
  /-- The imports of the unit. -/
  imports : List String
  /-- The declared traits. -/
  table : TraitTable
  deriving Inhabited

/-- Renders an endpoint and announces it. -/
def Endpoint.render (e : Endpoint) (segments : List String) : Traced TraitError MethodBlock := do
  .announce (.endpointRendered e.verb (e.route segments))
  return e.methodBlock segments

/-- Renders endpoints one after the other. -/
def renderEndpoints (segments : List String) : List Endpoint → Traced TraitError (List MethodBlock)
  | [] => pure []
  | e :: rest => do
    let block ← e.render segments
    let more ← renderEndpoints segments rest
    return block :: more

/-- The methods of a content list: its endpoints, with every trait use replaced by the endpoints it
stands for. Nested resources contribute nothing. -/
def Resource.methods (table : TraitTable) (segments : List String) :
    List Content → Traced TraitError (List MethodBlock)
  | [] => pure []
  | .endpoint e :: rest => do
    let block ← e.render segments
    let more ← Resource.methods table segments rest
    return block :: more
  | .use name :: rest => do
    let endpoints ← table.resolve name
    let blocks ← renderEndpoints segments endpoints
    let more ← Resource.methods table segments rest
    return blocks ++ more
  | .resource _ :: rest => Resource.methods table segments rest

/-- A parameter of a whole resource as it is noted in the class. -/
def Param.note (p : Param) : String :=
  p.name ++ " : " ++ p.type.text

/-- The layout of the class of a resource with the given methods. -/
def Resource.layout (r : Resource) (context : RenderContext) (methods : List MethodBlock) :
    ClassLayout where
  package := context.package
  imports := context.imports
  docLines := Annotation.docLines r.annotations
  annotations := Annotation.markers r.annotations
  className := Text.className r.path
  resourceParams := r.params.map Param.note
  methods := methods

/-- The class of a resource with the given methods, below and including the given segments. -/
def Resource.controller (r : Resource) (context : RenderContext) (segments : List String)
    (methods : List MethodBlock) : Controller where
  className := Text.className r.path
  routePrefix := String.join segments
  source := (r.layout context methods).source

mutual

/-- The classes of a resource and of everything nested in it, below the given segments. -/
def Resource.render (context : RenderContext) (ancestors : List String) :
    Resource → Traced TraitError (List Controller)
  | .mk path annotations params content => do
    let r := Resource.mk path annotations params content
    let segments := ancestors ++ [path]
    let methods ← Resource.methods context.table segments content
    let controller := r.controller context segments methods
    .announce (.controllerRendered controller.className methods.length)
    let nested ← renderContents context segments content
    return controller :: nested

/-- The classes of the nested resources of a content list. -/
def renderContents (context : RenderContext) (segments : List String) :
    List Content → Traced TraitError (List Controller)
  | [] => pure []
  | item :: rest => do
    let first ← Content.render context segments item
    let more ← renderContents context segments rest
    return first ++ more

/-- The classes of one content item: those of a nested resource, and none otherwise. -/
def Content.render (context : RenderContext) (segments : List String) :
    Content → Traced TraitError (List Controller)
  | .resource r => Resource.render context segments r
  | .endpoint _ => pure []
  | .use _ => pure []

end

/-- The classes of a forest, in order. -/
def renderForest (context : RenderContext) : List Resource → Traced TraitError (List Controller)
  | [] => pure []
  | r :: rest => do
    let first ← Resource.render context [] r
    let more ← renderForest context rest
    return first ++ more

namespace CompilationUnit

/-- The package of a unit without surrounding blanks; empty when there is none. -/
def packageName (u : CompilationUnit) : String :=
  Text.trim (u.package.getD "")

/-- The classes of a unit, with the events announced while rendering them. -/
def render (u : CompilationUnit) : Traced TraitError (List Controller) := do
  let table ← Traced.ofExcept (TraitTable.ofList u.traits)
  renderForest { package := u.packageName, imports := u.imports, table := table } u.resources

/-- The classes of a unit. -/
def controllers (u : CompilationUnit) : Except TraitError (List Controller) :=
  u.render.outcome

end CompilationUnit

end ResourceStubs
