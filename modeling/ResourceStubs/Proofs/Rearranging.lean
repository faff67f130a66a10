import Mathlib.Data.List.Forall2
import ResourceStubs.Proofs.Rendering

/-!
# Nested resources may be written anywhere

The content of a resource is one sequence of two kinds of items: what belongs to the resource
itself, that is its endpoints and trait uses, and what is nested in it. Rendering goes through the
sequence twice, once for each kind, and each time it passes over the other kind. So only the two
subsequences matter, and not how they are interleaved.

`Resource.Rearranged` relates resources with equal subsequences of own items and with nested
resources that correspond one by one, where corresponding ones may be rearranged in turn. It is a
relation between two resources, not an edit, so any number of resources on any levels may differ at
once.
-/

namespace ResourceStubs

/-- Whether a content item belongs to the resource itself. -/
def Content.isOwn : Content → Bool
  | .resource _ => false
  | _ => true

/-- The endpoints and trait uses of a resource, in content order. -/
def Resource.own (r : Resource) : List Content :=
  r.content.filter Content.isOwn

/-- The resources differ only in where nested resources stand among the other items, on every
level. -/
inductive Resource.Rearranged : Resource → Resource → Prop
  | mk {path : String} {annotations : List Annotation} {params : List Param}
      {content content' : List Content}
      (own : content.filter Content.isOwn = content'.filter Content.isOwn)
      (nested : List.Forall₂ Resource.Rearranged (content.filterMap Content.resource?)
        (content'.filterMap Content.resource?)) :
      Rearranged (.mk path annotations params content) (.mk path annotations params content')

/-- The units differ only in where nested resources stand among the other items of their
resources. -/
structure CompilationUnit.Rearranged (u v : CompilationUnit) : Prop where
  package : u.package = v.package
  imports : u.imports = v.imports
  traits : u.traits = v.traits
  resources : List.Forall₂ Resource.Rearranged u.resources v.resources

/-! ## What is read off one resource -/

/-- A reading of content that passes over nested resources is a reading of the own items. -/
lemma flatMap_filter_isOwn {β : Type} {f : Content → List β} (hf : ∀ r, f (.resource r) = [])
    (content : List Content) :
    (content.filter Content.isOwn).flatMap f = content.flatMap f := by
  induction content with
  | nil => rfl
  | cons item rest ih =>
    cases item with
    | endpoint e => rw [List.filter_cons_of_pos rfl, List.flatMap_cons, List.flatMap_cons, ih]
    | use name => rw [List.filter_cons_of_pos rfl, List.flatMap_cons, List.flatMap_cons, ih]
    | resource r =>
      rw [List.filter_cons_of_neg Bool.false_ne_true, List.flatMap_cons, hf, List.nil_append, ih]

namespace Resource

variable {r s : Resource}

lemma endpoints_own (traits : List Trait) (r : Resource) :
    r.endpoints traits = r.own.flatMap (Content.endpoints traits) :=
  (flatMap_filter_isOwn (fun _ => rfl) r.content).symm

lemma uses_own (r : Resource) : r.uses = r.own.flatMap fun item => item.use?.toList := by
  rw [uses, List.filterMap_eq_flatMap_toList]
  exact (flatMap_filter_isOwn (fun _ => rfl) r.content).symm

lemma Rearranged.path_eq (h : r.Rearranged s) : r.path = s.path := by
  cases h
  rfl

lemma Rearranged.annotations_eq (h : r.Rearranged s) : r.annotations = s.annotations := by
  cases h
  rfl

lemma Rearranged.params_eq (h : r.Rearranged s) : r.params = s.params := by
  cases h
  rfl

lemma Rearranged.own_eq (h : r.Rearranged s) : r.own = s.own := by
  cases h with
  | mk own _ => exact own

lemma Rearranged.forall₂_nested (h : r.Rearranged s) :
    List.Forall₂ Rearranged r.nested s.nested := by
  cases h with
  | mk _ nested => exact nested

lemma Rearranged.uses_eq (h : r.Rearranged s) : r.uses = s.uses := by
  rw [uses_own, uses_own, h.own_eq]

lemma Rearranged.endpoints_eq (h : r.Rearranged s) (traits : List Trait) :
    r.endpoints traits = s.endpoints traits := by
  rw [endpoints_own, endpoints_own, h.own_eq]

end Resource

/-! ## What is read off a unit -/

namespace CompilationUnit

variable {u v : CompilationUnit}

/-- Whatever is read off places in the same way for rearranged resources is read off rearranged
units in the same way. -/
lemma Rearranged.map_nodes {β : Type} {f g : Node → β} (h : u.Rearranged v)
    (hread : ∀ address ancestors r s, Resource.Rearranged r s →
      f ⟨address, ancestors, r⟩ = g ⟨address, ancestors, s⟩) :
    u.nodes.map f = v.nodes.map g :=
  map_forestNodes_congr (fun _ _ => Resource.Rearranged.path_eq)
    (fun _ _ => Resource.Rearranged.forall₂_nested) hread
    h.resources [] [] 0

lemma Rearranged.controller_eq (h : u.Rearranged v) {r s : Resource} (hr : r.Rearranged s)
    (address : List Nat) (ancestors : List String) :
    Node.controller u ⟨address, ancestors, r⟩ = Node.controller v ⟨address, ancestors, s⟩ := by
  have hendpoints : r.endpoints u.traits = s.endpoints v.traits :=
    h.traits ▸ hr.endpoints_eq u.traits
  simp only [Node.controller, Node.layout, Node.segments, h.package, h.imports, hr.path_eq,
    hr.annotations_eq, hr.params_eq, hendpoints]

/-- Units that differ only in where nested resources are written give the same classes or the same
error. -/
theorem controllers_rearranged (h : u.Rearranged v) : u.controllers = v.controllers := by
  have huses : u.useNames = v.useNames := by
    have hmap : u.nodes.map (·.resource.uses) = v.nodes.map (·.resource.uses) :=
      h.map_nodes fun _ _ _ _ hr => hr.uses_eq
    rw [useNames, useNames, List.flatMap_def, List.flatMap_def, hmap]
  refine controllers_congr (by rw [h.traits]) huses (fun name _ => ?_) ?_
  · rw [traitNames, traitNames, h.traits]
  · exact h.map_nodes fun address ancestors _ _ hr => h.controller_eq hr address ancestors

end CompilationUnit

/-- The library with all nested resources written last; two levels differ. -/
def libraryUnitNestedLast : CompilationUnit :=
  { libraryUnit with
    resources := [
      .mk "books" [] [] [
        .use "Audited",
        .endpoint { verb := .get, paths := ["/"] },
        .resource (.mk "/{isbn}" [] [] [.resource (.mk "/loans" [] [] []), .use "Audited"])],
      .mk "readers" [] [] []] }

theorem controllers_rearranged_library :
    libraryUnit.Rearranged libraryUnitNestedLast ∧
      libraryUnit.controllers = libraryUnitNestedLast.controllers ∧
      ∃ out, libraryUnitNestedLast.controllers = .ok out ∧
        out.map (·.routePrefix) = ["books", "books/{isbn}", "books/{isbn}/loans", "readers"] := by
  have hleaf (path : String) : Resource.Rearranged (.mk path [] [] []) (.mk path [] [] []) :=
    .mk rfl .nil
  have hrearranged : libraryUnit.Rearranged libraryUnitNestedLast :=
    ⟨rfl, rfl, rfl, .cons (.mk rfl (.cons (.mk rfl (.cons (hleaf _) .nil)) .nil))
      (.cons (hleaf _) .nil)⟩
  exact ⟨hrearranged, CompilationUnit.controllers_rearranged hrearranged, _, rfl, rfl⟩

-- also a failing unit keeps its error, whichever of two undeclared names is written first
example :
    CompilationUnit.controllers
        { resources :=
          [.mk "/a" [] [] [.use "Outer", .resource (.mk "/b" [] [] [.use "Inner"])]] } =
      CompilationUnit.controllers
        { resources :=
          [.mk "/a" [] [] [.resource (.mk "/b" [] [] [.use "Inner"]), .use "Outer"]] } := rfl

end ResourceStubs
