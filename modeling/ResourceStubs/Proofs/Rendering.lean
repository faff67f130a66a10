import Mathlib.Data.List.Find
import ResourceStubs.Controller
import ResourceStubs.Proofs.Forest
import ResourceStubs.Proofs.TraitNames

/-!
# What rendering a unit gives

Rendering walks the forest with a stack of path segments, visits the content of every resource twice
and stops at the first trait use that cannot be resolved. This module replaces the walk by a closed
form over the places of the forest:

* the trait uses of all places are checked first, place by place, and the first undeclared name is
  the error;
* then every place becomes its class, `Node.controller`, independently of all other places.

`Node.controller` is written down without the walk. It names every part of a class: the package, the
imports, the decoration of the resource itself, and the methods of its own endpoints below its own
segments.

## Where the order of failures comes from

The methods of a resource are rendered before anything nested in it, so the uses of one place are
checked in a row and before those of the places inside it. The closed form keeps that order, because
the places come in preorder and `checkUses` reads their uses from left to right.

The main result is `CompilationUnit.controllers_eq`, the closed form with its failures. Everything
else that is said about rendering, here and in other modules, is read off it.
-/

namespace ResourceStubs

/-! ## Results of traced computations -/

namespace Traced

variable {ε α β : Type}

@[simp] lemma outcome_pure (a : α) : (pure a : Traced ε α).outcome = pure a := rfl

@[simp] lemma outcome_announce (e : Event) : (announce e : Traced ε Unit).outcome = pure () := rfl

@[simp] lemma outcome_ofExcept (x : Except ε α) : (ofExcept x).outcome = x := rfl

@[simp] lemma outcome_bind (x : Traced ε α) (f : α → Traced ε β) :
    (x >>= f).outcome = x.outcome >>= fun a => (f a).outcome := by
  change (x.andThen f).outcome = _
  unfold andThen
  cases x.outcome <;> rfl

end Traced

/-! ## The parts of a class -/

/-- The name of the trait that a content item uses. -/
def Content.use? : Content → Option String
  | .use name => some name
  | _ => none

/-- The names of the traits that a resource itself uses, in content order. -/
def Resource.uses (r : Resource) : List String :=
  r.content.filterMap Content.use?

lemma Content.use?_eq_some_iff {item : Content} {name : String} :
    item.use? = some name ↔ item = .use name := by
  cases item <;> simp [Content.use?]

lemma Resource.mem_uses {r : Resource} {name : String} : name ∈ r.uses ↔ .use name ∈ r.content := by
  simp only [Resource.uses, List.mem_filterMap, Content.use?_eq_some_iff, exists_eq_right]

/-- The endpoints that a content item contributes to its resource: an endpoint itself, the members
of a used trait in member order, and nothing for a nested resource. -/
def Content.endpoints (traits : List Trait) : Content → List Endpoint
  | .endpoint e => [e]
  | .use name =>
    ((traits.find? (·.name == name)).map fun t => t.members.map TraitMember.stamped).getD []
  | .resource _ => []

/-- The endpoints of a resource, with every trait use replaced in place. -/
def Resource.endpoints (traits : List Trait) (r : Resource) : List Endpoint :=
  r.content.flatMap (Content.endpoints traits)

/-- The layout of the class for a place of a unit. -/
def Node.layout (u : CompilationUnit) (n : Node) : ClassLayout where
  package := Text.trim (u.package.getD "")
  imports := u.imports
  docLines := Annotation.docLines n.resource.annotations
  annotations := Annotation.markers n.resource.annotations
  className := Text.className n.resource.path
  resourceParams := n.resource.params.map fun p => p.name ++ " : " ++ p.type.text
  methods := (n.resource.endpoints u.traits).map (·.methodBlock n.segments)

/-- The class for a place of a unit. -/
def Node.controller (u : CompilationUnit) (n : Node) : Controller where
  className := Text.className n.resource.path
  routePrefix := String.join n.ancestors ++ n.resource.path
  source := (n.layout u).source

/-! ## The methods of a resource -/

lemma outcome_resolve (table : TraitTable) (name : String) :
    (table.resolve name).outcome = do
      checkUse table.traits name
      return Content.endpoints table.traits (.use name) := by
  unfold TraitTable.resolve TraitTable.get? checkUse
  cases h : table.traits.find? (·.name == name) with
  | none =>
    rw [if_neg (find?_name_eq_none_iff.1 h)]
    rfl
  | some t =>
    have hname : name ∈ table.traits.map (·.name) := by
      obtain ⟨hmem, same⟩ := mem_of_find?_name h
      exact List.mem_map.2 ⟨t, hmem, same⟩
    simp [hname, Content.endpoints, h]

lemma outcome_renderEndpoints (segments : List String) (endpoints : List Endpoint) :
    (renderEndpoints segments endpoints).outcome =
      pure (endpoints.map (·.methodBlock segments)) := by
  induction endpoints with
  | nil => rfl
  | cons e rest ih => simp [renderEndpoints, Endpoint.render, ih]

lemma outcome_methods (table : TraitTable) (segments : List String) (content : List Content) :
    (Resource.methods table segments content).outcome = do
      checkUses table.traits (content.filterMap Content.use?)
      return (content.flatMap (Content.endpoints table.traits)).map (·.methodBlock segments) := by
  unfold checkUses
  induction content with
  | nil => rfl
  | cons item rest ih =>
    cases item with
    | endpoint e =>
      simp [Resource.methods, Endpoint.render, ih, List.filterMap_cons, Content.use?,
        Content.endpoints]
    | resource r =>
      simp [Resource.methods, ih, List.filterMap_cons, Content.use?, Content.endpoints]
    | use name =>
      simp [Resource.methods, outcome_resolve, outcome_renderEndpoints, ih, Content.use?]

/-! ## The walk -/

/-- What rendering a unit needs to know once its trait names are known to be distinct. -/
def CompilationUnit.context (u : CompilationUnit) : RenderContext where
  package := u.packageName
  imports := u.imports
  table := ⟨u.traits⟩

lemma Node.controller_eq (u : CompilationUnit) (n : Node) :
    n.resource.controller u.context n.segments
      ((n.resource.endpoints u.traits).map (·.methodBlock n.segments)) =
      n.controller u := by
  unfold Resource.controller Node.controller
  congr 1
  simp [Node.segments]

/-- Checks the uses of all places, then makes every place a class. -/
def renderNodes (u : CompilationUnit) (nodes : List Node) :
    Except TraitError (List Controller) := do
  checkUses u.traits (nodes.flatMap (·.resource.uses))
  return nodes.map (Node.controller u)

lemma renderNodes_append (u : CompilationUnit) (first second : List Node) :
    renderNodes u (first ++ second) = do
      let controllers ← renderNodes u first
      let more ← renderNodes u second
      return controllers ++ more := by
  simp [renderNodes, checkUses]

lemma renderNodes_cons (u : CompilationUnit) (n : Node) (rest : List Node) :
    renderNodes u (n :: rest) = do
      checkUses u.traits n.resource.uses
      let more ← renderNodes u rest
      return n.controller u :: more := by
  simp [renderNodes, checkUses]

mutual

lemma Resource.outcome_render (u : CompilationUnit) (address : List Nat) (ancestors : List String) :
    ∀ r : Resource, (Resource.render u.context ancestors r).outcome =
      renderNodes u
        (⟨address, ancestors, r⟩ :: forestNodes address (ancestors ++ [r.path]) 0 r.nested)
  | .mk path annotations params content => by
    have nested := outcome_renderContents u address (ancestors ++ [path]) 0 content
    rw [renderNodes_cons, ← Node.controller_eq]
    simp only [Resource.render, Traced.outcome_bind, Traced.outcome_announce, Traced.outcome_pure,
      outcome_methods, nested, bind_assoc, pure_bind]
    rfl

lemma outcome_renderContents (u : CompilationUnit) (address : List Nat) (segments : List String) :
    ∀ (i : Nat) (content : List Content), (renderContents u.context segments content).outcome =
      renderNodes u (forestNodes address segments i (content.filterMap Content.resource?))
  | i, [] => by simp [renderContents, forestNodes, renderNodes, checkUses]
  | i, .resource r :: rest => by
    have first := Resource.outcome_render u (address ++ [i]) segments r
    have more := outcome_renderContents u address segments (i + 1) rest
    rw [List.filterMap_cons]
    simp only [Content.resource?, forestNodes, renderNodes_append]
    simp [renderContents, Content.render, first, more]
  | i, .endpoint e :: rest => by
    have more := outcome_renderContents u address segments i rest
    simp [renderContents, Content.render, List.filterMap_cons, Content.resource?, more]
  | i, .use name :: rest => by
    have more := outcome_renderContents u address segments i rest
    simp [renderContents, Content.render, List.filterMap_cons, Content.resource?, more]

end

lemma outcome_renderForest (u : CompilationUnit) (i : Nat) (resources : List Resource) :
    (renderForest u.context resources).outcome = renderNodes u (forestNodes [] [] i resources) := by
  induction resources generalizing i with
  | nil => simp [renderForest, forestNodes, renderNodes, checkUses]
  | cons r rest ih =>
    have first := Resource.outcome_render u [i] [] r
    rw [forestNodes, renderNodes_append]
    simp only [renderForest, Traced.outcome_bind, first, ih (i + 1)]
    rfl

namespace CompilationUnit

/-- The names of the traits that a unit uses anywhere: place by place in preorder, and in content
order inside one place. -/
def useNames (u : CompilationUnit) : List String :=
  u.nodes.flatMap (·.resource.uses)

lemma mem_useNames {u : CompilationUnit} {name : String} :
    name ∈ u.useNames ↔ ∃ n, u.HasNode n ∧ .use name ∈ n.resource.content := by
  simp only [useNames, List.mem_flatMap, mem_nodes, Resource.mem_uses]

/-- The closed form of rendering: a repeated trait name fails first, then the first undeclared use,
and otherwise every place becomes its class. -/
lemma controllers_eq (u : CompilationUnit) :
    u.controllers =
      match TraitTable.firstRepeated [] u.traits,
          u.useNames.find? fun name => name ∉ u.traitNames with
      | some name, _ => .error (.duplicate name)
      | none, some name => .error (.unknown name)
      | none, none => .ok (u.nodes.map (Node.controller u)) := by
  unfold controllers render
  rw [Traced.outcome_bind, Traced.outcome_ofExcept, TraitTable.ofList]
  cases TraitTable.firstRepeated [] u.traits with
  | some name => rfl
  | none =>
    have hwalk : (renderForest u.context u.resources).outcome =
        checkUses u.traits u.useNames >>= fun _ => .ok (u.nodes.map (Node.controller u)) :=
      outcome_renderForest u 0 u.resources
    refine hwalk.trans ?_
    rw [checkUses_eq]
    change (u.useNames.find? fun name => name ∉ u.traitNames).elim _ _ >>= _ = _
    cases u.useNames.find? fun name => name ∉ u.traitNames <;> rfl

/-- Units render alike when no repeated name tells them apart, they use the same names in the same
order, they declare the same ones of these, and their places give the same classes. -/
lemma controllers_congr {u v : CompilationUnit}
    (hrepeated : TraitTable.firstRepeated [] u.traits = TraitTable.firstRepeated [] v.traits)
    (huses : u.useNames = v.useNames)
    (hdeclared : ∀ name ∈ u.useNames, name ∈ u.traitNames ↔ name ∈ v.traitNames)
    (hclasses : u.nodes.map (Node.controller u) = v.nodes.map (Node.controller v)) :
    u.controllers = v.controllers := by
  have hfirst : (u.useNames.find? fun name => name ∉ u.traitNames) =
      v.useNames.find? fun name => name ∉ v.traitNames := by
    rw [← huses]
    exact List.find?_congr fun name hname => by simp only [hdeclared name hname]
  rw [controllers_eq, controllers_eq, hrepeated, hfirst, hclasses]

/-- A unit renders exactly when its trait names are distinct and all used names are declared. -/
lemma controllers_eq_ok_iff {u : CompilationUnit} {out : List Controller} :
    u.controllers = .ok out ↔
      u.traitNames.Nodup ∧ (∀ name ∈ u.useNames, name ∈ u.traitNames) ∧
        out = u.nodes.map (Node.controller u) := by
  have hdeclared : (∀ name ∈ u.useNames, name ∈ u.traitNames) ↔
      (u.useNames.find? fun name => name ∉ u.traitNames) = none := by
    simp
  rw [controllers_eq, nodup_traitNames_iff, hdeclared]
  cases TraitTable.firstRepeated [] u.traits with
  | some name => simp
  | none =>
    cases u.useNames.find? fun name => name ∉ u.traitNames with
    | some name => simp
    | none => simp [eq_comm]

lemma controllers_eq_duplicate_iff {u : CompilationUnit} {name : String} :
    u.controllers = .error (.duplicate name) ↔ IsFirstRepeat u.traitNames name := by
  rw [controllers_eq, traitNames, ← firstRepeated_eq_some_iff, ← traitNames]
  cases TraitTable.firstRepeated [] u.traits with
  | some other => simp
  | none => cases u.useNames.find? fun name => name ∉ u.traitNames <;> simp

lemma controllers_eq_unknown_iff {u : CompilationUnit} {name : String} :
    u.controllers = .error (.unknown name) ↔
      u.traitNames.Nodup ∧ (u.useNames.find? fun name => name ∉ u.traitNames) = some name := by
  rw [controllers_eq, nodup_traitNames_iff]
  cases TraitTable.firstRepeated [] u.traits with
  | some other => simp
  | none => cases u.useNames.find? fun name => name ∉ u.traitNames <;> simp

/-- A unit that renders gives one class per place of its forest, in depth-first preorder. The class
of a place depends on the unit's package, imports and traits and on the resource and its segments,
and every used name stands for the members of the one trait that is declared under it. -/
theorem controllers_preorder {u : CompilationUnit} {out : List Controller}
    (h : u.controllers = .ok out) :
    out = u.nodes.map (Node.controller u) ∧
      (∀ n, n ∈ u.nodes ↔ u.HasNode n) ∧
      (u.nodes.Pairwise fun m n => m.address < n.address) ∧
      ∀ n, u.HasNode n → ∀ name, .use name ∈ n.resource.content →
        ∃ t, u.DeclaresOnly name t ∧
          Content.endpoints u.traits (.use name) = t.members.map TraitMember.stamped := by
  obtain ⟨hdistinct, hdeclared, hout⟩ := controllers_eq_ok_iff.1 h
  refine ⟨hout, fun n => mem_nodes, u.pairwise_nodes, fun n hn name huse => ?_⟩
  have hname : name ∈ u.traitNames := hdeclared name (mem_useNames.2 ⟨n, hn, huse⟩)
  obtain ⟨t, honly, hfind⟩ := exists_declaresOnly hdistinct hname
  exact ⟨t, honly, by simp [Content.endpoints, hfind]⟩

end CompilationUnit

/-- A unit with resources on three levels and a trait that is used on two of them, once before and
once after a nested resource. -/
def libraryUnit : CompilationUnit where
  package := some " org.library "
  imports := ["org.library.dto.Book"]
  traits := [
    { name := "Audited",
      members := [
        { endpoint := { verb := .get, paths := ["/log"] } },
        { endpoint := { verb := .put, paths := ["/{id}"] }, overriding := true }] }]
  resources := [
    .mk "books" [] [] [
      .resource (.mk "/{isbn}" [] [] [.use "Audited", .resource (.mk "/loans" [] [] [])]),
      .use "Audited",
      .endpoint { verb := .get, paths := ["/"] }],
    .mk "readers" [] [] []]

theorem controllers_preorder_library :
    ∃ out, libraryUnit.controllers = .ok out ∧
      out.map (·.routePrefix) = ["books", "books/{isbn}", "books/{isbn}/loans", "readers"] ∧
      out.map (·.className) =
        ["BooksController", "_isbn_Controller", "LoansController", "ReadersController"] ∧
      (out[1]?).map (·.source) = some (String.join ([
        "package org.library;",
        "",
        "import org.library.dto.Book;",
        "import org.springframework.web.bind.annotation.*;",
        "import org.springframework.http.HttpStatus;",
        "import java.util.*;",
        "",
        "public class _isbn_Controller" ++ bodyStart,
        "",
        "    @GetMapping(\"books/{isbn}/log\")",
        "    public void _log()" ++ bodyStart,
        "        // TODO",
        "    " ++ bodyEnd,
        "",
        "    @PutMapping(\"books/{isbn}/{id}\")",
        "    public void __id_()" ++ bodyStart,
        "        // TODO",
        "    " ++ bodyEnd,
        "",
        bodyEnd].map (· ++ "\n"))) ∧
      out = libraryUnit.nodes.map (Node.controller libraryUnit) ∧
      (∀ n, n ∈ libraryUnit.nodes ↔ libraryUnit.HasNode n) ∧
      (libraryUnit.nodes.Pairwise fun m n => m.address < n.address) ∧
      ∀ n, libraryUnit.HasNode n → ∀ name, .use name ∈ n.resource.content →
        ∃ t, libraryUnit.DeclaresOnly name t ∧
          Content.endpoints libraryUnit.traits (.use name) = t.members.map TraitMember.stamped := by
  refine ⟨_, rfl, rfl, by decide +kernel, by decide +kernel, ?_⟩
  exact CompilationUnit.controllers_preorder rfl

end ResourceStubs
