import ResourceStubs.Endpoint
import ResourceStubs.Text.Identifier

/-!
# Routes and parameter bindings

The route of an endpoint is the plain concatenation of the path segments from the outermost resource
down to the endpoint. A parameter is bound to the route when its name stands in braces in one of
these segments; all other parameters come from the query.

Braces are read segment by segment, so a pair of braces that only closes in the next segment names
no variable. A name is a non-empty run over `[A-Za-z0-9_]`; any other text between braces names
nothing, and an inner opening brace starts afresh. `Route.scan` does this in one pass, with the
characters since the last opening brace as its only state, as long as they may still become a name.
-/

namespace ResourceStubs.Route

/-- The route of a local path below the given segments. -/
def path (segments : List String) (localPath : String) : String :=
  String.join segments ++ localPath

/-- The names in braces. The second argument holds the characters since the last opening brace,
latest first, while they may still become a name. -/
def scan : List Char → Option (List Char) → List (List Char)
  | [], _ => []
  | c :: rest, pending =>
    if c = '{' then scan rest (some [])
    else match pending with
      | none => scan rest none
      | some name =>
        if c = '}' then
          if name.isEmpty then scan rest none else name.reverse :: scan rest none
        else if Text.isNameChar c then scan rest (some (c :: name))
        else scan rest none

/-- The variables named in one segment, in order, with repetitions. -/
def segmentVariables (segment : String) : List String :=
  (scan segment.toList none).map String.ofList

/-- The variables named in the segments of a route and in its local path. -/
def variableNames (segments : List String) (localPath : String) : List String :=
  (segments ++ [localPath]).flatMap segmentVariables

/-- The variables of a route as a set: in code point order, without repetitions. -/
def variableSet (segments : List String) (localPath : String) : List String :=
  ((variableNames segments localPath).mergeSort fun a b => decide (a ≤ b)).eraseReps

/-- Where the value of a parameter comes from. -/
inductive Binding where
  /-- From the route. -/
  | path
  /-- From the query. -/
  | query (required : Bool)
  deriving DecidableEq, Inhabited, Repr

namespace Binding

/-- The binding of a parameter among the given route variables. -/
def of (bound : List String) (param : Param) : Binding :=
  if bound.contains param.name then .path else .query (!param.optional)

/-- The marker of a parameter bound this way. -/
def marker : Binding → String
  | .path => "@PathVariable"
  | .query true => "@RequestParam"
  | .query false => "@RequestParam(required = false)"

end Binding

end ResourceStubs.Route
