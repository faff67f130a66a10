import ResourceStubs.Route

/-!
# Method blocks

An endpoint becomes one method of a class: doc lines, markers, a signature and a stub body. The
block depends on the endpoint and on the path segments of the resources around it.

The markers stand in a fixed order: the annotations, then the modifiers, then the route. The
modifier for an expected body has no marker; the body becomes the first parameter of the method. The
declared parameters follow in order, each marked by how it is bound to the route.
-/

namespace ResourceStubs

/-- The marker of a modifier; an expected body has none, since it becomes a parameter. -/
def Modifier.marker : Modifier → Option String
  | .tx => some "@Transactional"
  | .secure role => some ("@PreAuthorize(\"hasRole('" ++ role ++ "')\")")
  | .status code => some ("@ResponseStatus(HttpStatus.valueOf(" ++ toString code.toInt ++ "))")
  | .expects _ => none

/-- The name of the marker that maps a verb. Two verbs have no marker of their own. -/
def Verb.mapping : Verb → String
  | .get => "@GetMapping"
  | .post => "@PostMapping"
  | .put => "@PutMapping"
  | .patch => "@PatchMapping"
  | .delete => "@DeleteMapping"
  | .head => "@RequestMapping(method = RequestMethod.HEAD)"
  | .options => "@RequestMapping(method = RequestMethod.OPTIONS)"

/-- The marker that maps a verb to a route. -/
def Verb.routeMarker (verb : Verb) (route : String) : String :=
  verb.mapping ++ "(\"" ++ route ++ "\")"

/-- One method of a generated class. -/
structure MethodBlock where
  /-- The lines of its doc comment. -/
  docLines : List String := []
  /-- The marker lines above it. -/
  markers : List String := []
  /-- Its signature. -/
  signature : String := ""
  /-- The line between its braces. -/
  body : String := ""
  deriving DecidableEq, Inhabited, Repr

namespace Endpoint

/-- The route of an endpoint below the given segments. -/
def route (e : Endpoint) (segments : List String) : String :=
  Route.path segments e.primaryPath

/-- A declared parameter in a signature. -/
def parameterText (bound : List String) (p : Param) : String :=
  (Route.Binding.of bound p).marker ++ " " ++ p.type.text ++ " " ++ p.name

/-- The body parameter in a signature. -/
def bodyText (type : TypeRef) : String :=
  "@RequestBody " ++ type.text ++ " body"

/-- The parameters of a signature: the body first, if there is one, then the declared ones in
order. -/
def parameters (e : Endpoint) (segments : List String) : List String :=
  (e.expectedBody.map bodyText).toList ++
    e.params.map (parameterText (Route.variableNames segments e.primaryPath))

/-- The markers of an endpoint: annotations, then modifiers, then the route. -/
def markers (e : Endpoint) (segments : List String) : List String :=
  Annotation.markers e.annotations ++ e.modifiers.filterMap Modifier.marker ++
    [e.verb.routeMarker (e.route segments)]

/-- The signature of the method of an endpoint. -/
def signature (e : Endpoint) (segments : List String) : String :=
  "public " ++ (e.returns.map TypeRef.text).getD "void" ++ " " ++
    Text.methodName e.primaryPath ++ "(" ++
    ", ".intercalate (e.parameters segments) ++ ")"

/-- The stub body: a method with a result returns nothing of use. -/
def stubBody (e : Endpoint) : String :=
  if e.returns.isSome then "return null; // TODO" else "// TODO"

/-- The method an endpoint becomes below the given segments. -/
def methodBlock (e : Endpoint) (segments : List String) : MethodBlock where
  docLines := Annotation.docLines e.annotations
  markers := e.markers segments
  signature := e.signature segments
  body := e.stubBody

end Endpoint

end ResourceStubs
