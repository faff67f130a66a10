import ResourceStubs.Resource
import ResourceStubs.Shape

/-!
# The shape of a unit

How the parts of a compilation unit are written in documents, for every format: the names of members
and cases, their order, and which members may be left out. There is one reader per type, from type
references up to `UnitShape.compilationUnit`, and each is built from those before it by the
operations of a `Format`.

Types and resources contain themselves, so their shapes are given as functions of the shape inside
and closed by the format. A trait use is a record, although it has a single member.
-/

namespace ResourceStubs.UnitShape

open Format RecordField

variable {R : Type → Type} [Format R]

/-- Type references. -/
def typeRef : R TypeRef :=
  recursive fun type => choice [
    ("simple", .value (map TypeRef.simple string)),
    ("generic", .body (map
      (fun ((raw, args, ()) : Row [String, List TypeRef]) => TypeRef.generic raw args)
      (record "struct variant TypeRef::Generic"
        (.cons (required "raw" string) (.cons (required "args" (list type)) .nil))))),
    ("array", .value (map TypeRef.array type)),
    ("wild", .body (map
      (fun ((bound, plus, ()) : Row [Option TypeRef, Bool]) => TypeRef.wild bound plus)
      (record "struct variant TypeRef::Wild"
        (.cons (withDefault "bound" (nullable type) none)
          (.cons (withDefault "plus" bool false) .nil)))))]

/-- Verbs. -/
def verb : R Verb :=
  choice (Verb.all.map fun v => (v.text, .bare v))

/-- Annotations. -/
def annotationEntry : R Annotation :=
  map (fun ((name, args, ()) : Row [String, ArgMap]) => ({ name, args } : Annotation))
    (record "struct Annotation"
      (.cons (required "name" string) (.cons (withDefault "args" args ArgMap.empty) .nil)))

/-- Parameters. -/
def param : R Param :=
  map (fun ((name, type, mayOmit, ()) : Row [String, TypeRef, Bool]) => Param.mk name type mayOmit)
    (record "struct Param"
      (.cons (required "name" string) (.cons (required "type" typeRef)
        (.cons (withDefault "optional" bool false) .nil))))

/-- Modifiers. -/
def modifier : R Modifier :=
  choice [
    ("expects", .value (map Modifier.expects typeRef)),
    ("status", .value (map Modifier.status int32)),
    ("secure", .value (map Modifier.secure string)),
    ("tx", .bare Modifier.tx)]

/-- Endpoints. -/
def endpoint : R Endpoint :=
  map (fun ((verb, paths, annotations, params, modifiers, returns, overriding, ()) :
      Row [Verb, List String, List Annotation, List Param, List Modifier, Option TypeRef, Bool]) =>
      ({ verb, paths, annotations, params, modifiers, returns, overriding } : Endpoint))
    (record "struct Endpoint"
      (.cons (required "verb" verb) (.cons (required "paths" (list string))
        (.cons (withDefault "annotations" (list annotationEntry) [])
          (.cons (withDefault "params" (list param) [])
            (.cons (withDefault "modifiers" (list modifier) [])
              (.cons (withDefault "returns" (nullable typeRef) none)
                (.cons (withDefault "override" bool false) .nil))))))))

/-- The body of a trait use. -/
def traitUse : R String :=
  map (fun ((name, ()) : Row [String]) => name)
    (record "struct TraitUse" (.cons (required "name" string) .nil))

/-- Resources, with everything nested in them. -/
def resource : R Resource :=
  recursive fun nested =>
    map (fun ((path, annotations, params, content, ()) :
        Row [String, List Annotation, List Param, List Content]) =>
        Resource.mk path annotations params content)
      (record "struct Resource"
        (.cons (required "path" string) (.cons (withDefault "annotations" (list annotationEntry) [])
          (.cons (withDefault "params" (list param) [])
            (.cons (withDefault "content" (list (choice [
              ("endpoint", .value (map Content.endpoint endpoint)),
              ("resource", .value (map Content.resource nested)),
              ("use", .value (map Content.use traitUse))])) []) .nil)))))

/-- Members of a trait. -/
def traitMember : R TraitMember :=
  map (fun ((endpoint, overriding, ()) : Row [Endpoint, Bool]) =>
      ({ endpoint, overriding } : TraitMember))
    (record "struct TraitMember"
      (.cons (required "endpoint" endpoint) (.cons (withDefault "override" bool false) .nil)))

/-- Traits. -/
def traitDeclaration : R Trait :=
  map (fun ((name, generics, members, doc, ()) :
      Row [String, List String, List TraitMember, Option String]) =>
      ({ name, generics, members, doc } : Trait))
    (record "struct Trait"
      (.cons (required "name" string) (.cons (withDefault "generics" (list string) [])
        (.cons (withDefault "members" (list traitMember) [])
          (.cons (withDefault "doc" (nullable string) none) .nil)))))

/-- Compilation units. -/
def compilationUnit : R CompilationUnit :=
  map (fun ((package, imports, traits, resources, ()) :
      Row [Option String, List String, List Trait, List Resource]) =>
      ({ package, imports, traits, resources } : CompilationUnit))
    (record "struct CompilationUnit"
      (.cons (withDefault "package" (nullable string) none)
        (.cons (withDefault "imports" (list string) [])
          (.cons (withDefault "traits" (list traitDeclaration) [])
            (.cons (withDefault "resources" (list resource) []) .nil)))))

end ResourceStubs.UnitShape
