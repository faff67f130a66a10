import ResourceStubs.Json.Value
import ResourceStubs.Resource

/-!
# Units as JSON

The tree of JSON values that stands for each part of a unit. Every member of every record is
present, in the order of the record; a case without data is its bare name, any other case is an
object with one member. An optional value that is missing is null.

The functions follow the types of units, from `TypeRef.toJson` up to `CompilationUnit.toJson`, and
where a type is recursive so is its function.
-/

namespace ResourceStubs

open Json

/-- A list of texts. -/
def Json.Value.strings (texts : List String) : Value :=
  .array (texts.map Value.string)

/-- A value or null. -/
def Json.Value.ofOption {α : Type} (f : α → Value) : Option α → Value
  | none => .null
  | some a => f a

mutual

/-- A type reference. -/
def TypeRef.toJson : TypeRef → Value
  | .simple name => .object [("simple", .string name)]
  | .generic raw args =>
    .object [("generic", .object
      [("raw", .string raw), ("args", .array (TypeRef.toJsonList args))])]
  | .array of => .object [("array", of.toJson)]
  | .anything plus => .object [("wild", .object [("bound", .null), ("plus", .bool plus)])]
  | .bounded plus bound =>
    .object [("wild", .object [("bound", bound.toJson), ("plus", .bool plus)])]

/-- A list of type references. -/
def TypeRef.toJsonList : List TypeRef → List Value
  | [] => []
  | t :: rest => t.toJson :: TypeRef.toJsonList rest

end

/-- An argument value. -/
def Literal.toJson : Literal → Value
  | .int value => .int value.toInt
  | .string value => .string value

/-- The arguments of an annotation, in key order. -/
def ArgMap.toJson (args : ArgMap) : Value :=
  .object (args.entries.map fun e => (e.1, e.2.toJson))

/-- An annotation. -/
def Annotation.toJson (a : Annotation) : Value :=
  .object [("name", .string a.name), ("args", a.args.toJson)]

/-- A parameter. -/
def Param.toJson (p : Param) : Value :=
  .object [("name", .string p.name), ("type", p.type.toJson), ("optional", .bool p.optional)]

/-- A modifier. -/
def Modifier.toJson : Modifier → Value
  | .expects type => .object [("expects", type.toJson)]
  | .status code => .object [("status", .int code.toInt)]
  | .secure role => .object [("secure", .string role)]
  | .tx => .string "tx"

/-- An endpoint. -/
def Endpoint.toJson (e : Endpoint) : Value :=
  .object [
    ("verb", .string e.verb.text),
    ("paths", .strings e.paths),
    ("annotations", .array (e.annotations.map Annotation.toJson)),
    ("params", .array (e.params.map Param.toJson)),
    ("modifiers", .array (e.modifiers.map Modifier.toJson)),
    ("returns", .ofOption TypeRef.toJson e.returns),
    ("override", .bool e.overriding)]

mutual

/-- A resource. -/
def Resource.toJson : Resource → Value
  | .mk path annotations params content =>
    .object [
      ("path", .string path),
      ("annotations", .array (annotations.map Annotation.toJson)),
      ("params", .array (params.map Param.toJson)),
      ("content", .array (Content.toJsonList content))]

/-- An item of a resource's content. -/
def Content.toJson : Content → Value
  | .endpoint e => .object [("endpoint", e.toJson)]
  | .resource r => .object [("resource", r.toJson)]
  | .use name => .object [("use", .object [("name", .string name)])]

/-- The items of a resource's content. -/
def Content.toJsonList : List Content → List Value
  | [] => []
  | item :: rest => item.toJson :: Content.toJsonList rest

end

/-- A member of a trait. -/
def TraitMember.toJson (m : TraitMember) : Value :=
  .object [("endpoint", m.endpoint.toJson), ("override", .bool m.overriding)]

/-- A trait. -/
def Trait.toJson (t : Trait) : Value :=
  .object [
    ("name", .string t.name),
    ("generics", .strings t.generics),
    ("members", .array (t.members.map TraitMember.toJson)),
    ("doc", .ofOption .string t.doc)]

/-- A compilation unit. -/
def CompilationUnit.toJson (u : CompilationUnit) : Value :=
  .object [
    ("package", .ofOption .string u.package),
    ("imports", .strings u.imports),
    ("traits", .array (u.traits.map Trait.toJson)),
    ("resources", .array (u.resources.map Resource.toJson))]

end ResourceStubs
