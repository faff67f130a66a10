import ResourceStubs.Proofs.Rendering

/-!
# Trait uses are abbreviations

Writing the members of a trait in place of a use gives the same classes. `CompilationUnit.inlined`
is that edit: it works on units, knows nothing of rendering, and leaves a unit without traits and,
if the unit renders, without uses.

The edit moves content around, so that it must not disturb what rendering reads off the forest.
Three facts carry the proof, each of them about one resource: the edit keeps the nested resources
and their order, it keeps the sequence of endpoints once uses are replaced on the other side too,
and it leaves only uses that were undeclared before. The places of the edited unit are then those of
the unit itself, with edited resources, on every level (`nodes_inlined`).

The segments around a use are not part of the edit. A member that stands below different resources
is rendered against the segments of each of them on both sides.
-/

namespace ResourceStubs

/-! ## The edit -/

mutual

/-- A resource with the members of traits in place of their uses, on every level. -/
def Resource.inlined (traits : List Trait) : Resource → Resource
  | .mk path annotations params content =>
    .mk path annotations params (inlineContents traits content)

/-- A content list with the members of traits in place of their uses. -/
def inlineContents (traits : List Trait) : List Content → List Content
  | [] => []
  | item :: rest => Content.inlined traits item ++ inlineContents traits rest

/-- What stands for a content item; the use of a name that is not declared stays. -/
def Content.inlined (traits : List Trait) : Content → List Content
  | .endpoint e => [.endpoint e]
  | .resource r => [.resource (Resource.inlined traits r)]
  | .use name =>
    match traits.find? (·.name == name) with
    | some t => t.members.map fun m => .endpoint m.stamped
    | none => [.use name]

end

/-- A unit without traits: every use is replaced by the members of its trait. -/
def CompilationUnit.inlined (u : CompilationUnit) : CompilationUnit :=
  { u with traits := [], resources := u.resources.map (Resource.inlined u.traits) }

/-! ## What the edit does to one resource -/

lemma inlineContents_eq_flatMap (traits : List Trait) (content : List Content) :
    inlineContents traits content = content.flatMap (Content.inlined traits) := by
  induction content with
  | nil => rw [inlineContents, List.flatMap_nil]
  | cons item rest ih => rw [inlineContents, ih, List.flatMap_cons]

namespace Resource

variable (traits : List Trait) (r : Resource)

@[simp] lemma path_inlined : (r.inlined traits).path = r.path := by
  cases r
  rw [Resource.inlined, path, path]

@[simp] lemma annotations_inlined : (r.inlined traits).annotations = r.annotations := by
  cases r
  rw [Resource.inlined, annotations, annotations]

@[simp] lemma params_inlined : (r.inlined traits).params = r.params := by
  cases r
  rw [Resource.inlined, params, params]

@[simp] lemma content_inlined :
    (r.inlined traits).content = r.content.flatMap (Content.inlined traits) := by
  cases r
  rw [Resource.inlined, content, content, inlineContents_eq_flatMap]

/-- Nested resources are edited in place. -/
lemma nested_inlined : (r.inlined traits).nested = r.nested.map (Resource.inlined traits) := by
  rw [nested, nested, content_inlined]
  induction r.content with
  | nil => rfl
  | cons item rest ih =>
    rw [List.flatMap_cons, List.filterMap_append, ih]
    cases item with
    | endpoint e => simp [Content.inlined, List.filterMap_cons, Content.resource?]
    | resource s => simp [Content.inlined, Content.resource?]
    | use name =>
      cases h : traits.find? (·.name == name) with
      | none => simp [Content.inlined, List.filterMap_cons, Content.resource?, h]
      | some t => simp [Content.inlined, List.filterMap_cons, Content.resource?, h]

/-- Endpoints come in the same sequence, without any trait on one side and with the traits on the
other. -/
lemma endpoints_inlined : (r.inlined traits).endpoints [] = r.endpoints traits := by
  rw [endpoints, endpoints, content_inlined, List.flatMap_assoc]
  congr 1
  funext item
  cases item with
  | endpoint e => simp [Content.inlined, Content.endpoints]
  | resource s => simp [Content.inlined, Content.endpoints]
  | use name =>
    cases h : traits.find? (·.name == name) with
    | none => simp [Content.inlined, Content.endpoints, h]
    | some t =>
      simp only [Content.inlined, Content.endpoints, h, List.flatMap_map, Option.map_some,
        Option.getD_some]
      exact List.map_eq_flatMap.symm

variable {traits r}

/-- Only uses of undeclared names are left. -/
lemma use_mem_content_inlined {name : String} (h : .use name ∈ (r.inlined traits).content) :
    .use name ∈ r.content ∧ name ∉ traits.map (·.name) := by
  rw [content_inlined, List.mem_flatMap] at h
  obtain ⟨item, hitem, h⟩ := h
  cases item with
  | endpoint e => simp [Content.inlined] at h
  | resource s => simp [Content.inlined] at h
  | use other =>
    cases hfind : traits.find? (·.name == other) with
    | some t => simp [Content.inlined, hfind] at h
    | none =>
      obtain rfl : name = other := by simpa [Content.inlined, hfind] using h
      exact ⟨hitem, find?_name_eq_none_iff.1 hfind⟩

end Resource

/-! ## What the edit does to the forest -/

/-- The place in the edited forest. -/
def Node.inlined (traits : List Trait) (n : Node) : Node :=
  { n with resource := n.resource.inlined traits }

lemma forestNodes_inlined (traits : List Trait) (address : List Nat) (ancestors : List String)
    (i : Nat) (siblings : List Resource) :
    forestNodes address ancestors i (siblings.map (Resource.inlined traits)) =
      (forestNodes address ancestors i siblings).map (Node.inlined traits) := by
  fun_induction forestNodes address ancestors i siblings with
  | case1 => rw [List.map_nil, forestNodes, List.map_nil]
  | case2 address ancestors i s rest ihNested ihRest =>
    rw [List.map_cons, forestNodes, Resource.path_inlined, Resource.nested_inlined, ihNested,
      ihRest]
    simp [Node.inlined]

namespace CompilationUnit

/-- The edited unit has the places of the unit, on every level and in the same order. -/
lemma nodes_inlined (u : CompilationUnit) : u.inlined.nodes = u.nodes.map (Node.inlined u.traits) :=
  forestNodes_inlined u.traits [] [] 0 u.resources

lemma controller_inlined (u : CompilationUnit) (n : Node) :
    Node.controller u.inlined (n.inlined u.traits) = Node.controller u n := by
  have hendpoints := Resource.endpoints_inlined u.traits n.resource
  simp only [Node.controller, Node.layout, Node.inlined, Node.segments, inlined,
    Resource.path_inlined, Resource.annotations_inlined, Resource.params_inlined, hendpoints]

lemma use_not_mem_inlined {u : CompilationUnit}
    (hdeclared : ∀ name ∈ u.useNames, name ∈ u.traitNames) {n : Node} (hn : u.inlined.HasNode n)
    (name : String) : .use name ∉ n.resource.content := by
  intro huse
  rw [← mem_nodes, nodes_inlined, List.mem_map] at hn
  obtain ⟨m, hm, rfl⟩ := hn
  obtain ⟨huse, hname⟩ := Resource.use_mem_content_inlined huse
  exact hname (hdeclared name (mem_useNames.2 ⟨m, mem_nodes.1 hm, huse⟩))

/-- Trait uses are abbreviations: with the members of traits in place of their uses, a unit that
renders has neither traits nor uses and renders to the same classes, text by text. -/
theorem controllers_inlined {u : CompilationUnit} {out : List Controller}
    (h : u.controllers = .ok out) :
    u.inlined.controllers = .ok out ∧ u.inlined.traits = [] ∧
      ∀ n, u.inlined.HasNode n → ∀ name, .use name ∉ n.resource.content := by
  obtain ⟨-, hdeclared, rfl⟩ := controllers_eq_ok_iff.1 h
  have hnone : ∀ n, u.inlined.HasNode n → ∀ name, .use name ∉ n.resource.content :=
    fun n hn name => use_not_mem_inlined hdeclared hn name
  refine ⟨controllers_eq_ok_iff.2 ⟨List.nodup_nil, fun name hname => ?_, ?_⟩, rfl, hnone⟩
  · obtain ⟨n, hn, huse⟩ := mem_useNames.1 hname
    exact absurd huse (hnone n hn name)
  · rw [nodes_inlined, List.map_map]
    exact List.map_congr_left fun n _ => (controller_inlined u n).symm

end CompilationUnit

theorem controllers_inlined_library :
    ∃ out, libraryUnit.controllers = .ok out ∧
      libraryUnit.inlined.controllers = .ok out ∧ libraryUnit.inlined.traits = [] ∧
      ∀ n, libraryUnit.inlined.HasNode n → ∀ name, .use name ∉ n.resource.content := by
  refine ⟨_, rfl, ?_⟩
  exact CompilationUnit.controllers_inlined rfl

end ResourceStubs
