import Mathlib.Data.Multiset.Basic
import ResourceStubs.Proofs.Rendering

/-!
# What rendering does not read

A unit records more than its classes show. This module takes away what is not shown, construct by
construct, and proves that nothing of it has an influence: units with the same rendered part give
the same classes or the same error.

Where several entries compete, the first one counts and the others are erased: the first path, the
first expected body, the first doc annotation with a text. The order among traits, and traits that
are not used, are erased as well, so the traits of the rendered part form a multiset.

## From parts to units

Erasing is an edit of units (`CompilationUnit.erased`), and rendering is the same before and after
it. For one resource this is a lemma per construct that says what is still read off the erased
construct. For the forest it follows from the correspondence of places. The order of traits is not
part of the edit: it is dealt with by the fact that a name, once it is declared only once, is looked
up alike in every order.
-/

namespace ResourceStubs

/-! ## Types -/

mutual

/-- A type without the flags of unbounded wildcards. -/
def TypeRef.erased : TypeRef → TypeRef
  | .simple name => .simple name
  | .generic raw args => .generic raw (eraseTypes args)
  | .array of => .array of.erased
  | .anything _ => .anything false
  | .bounded plus bound => .bounded plus bound.erased

/-- Type arguments without the flags of unbounded wildcards. -/
def eraseTypes : List TypeRef → List TypeRef
  | [] => []
  | t :: rest => t.erased :: eraseTypes rest

end

mutual

lemma TypeRef.chars_erased : ∀ t : TypeRef, t.erased.chars = t.chars
  | .simple name => by rw [TypeRef.erased]
  | .generic raw args => by
    rw [TypeRef.erased, TypeRef.chars, TypeRef.chars, TypeRef.argChars_eraseTypes args]
  | .array of => by rw [TypeRef.erased, TypeRef.chars, TypeRef.chars, TypeRef.chars_erased of]
  | .anything plus => by rw [TypeRef.erased, TypeRef.chars, TypeRef.chars]
  | .bounded plus bound => by
    rw [TypeRef.erased, TypeRef.chars, TypeRef.chars, TypeRef.chars_erased bound]

lemma TypeRef.argChars_eraseTypes :
    ∀ types : List TypeRef, TypeRef.argChars (eraseTypes types) = TypeRef.argChars types
  | [] => by rw [eraseTypes]
  | t :: rest => by
    rw [eraseTypes, TypeRef.argChars, TypeRef.argChars, TypeRef.chars_erased t,
      TypeRef.moreArgChars_eraseTypes rest]

lemma TypeRef.moreArgChars_eraseTypes : ∀ types : List TypeRef,
    TypeRef.moreArgChars (eraseTypes types) = TypeRef.moreArgChars types
  | [] => by rw [eraseTypes]
  | t :: rest => by
    rw [eraseTypes, TypeRef.moreArgChars, TypeRef.moreArgChars, TypeRef.chars_erased t,
      TypeRef.moreArgChars_eraseTypes rest]

end

@[simp] lemma TypeRef.text_erased (t : TypeRef) : t.erased.text = t.text := by
  rw [TypeRef.text, TypeRef.text, t.chars_erased]

/-! ## Annotations -/

/-- Annotations without doc annotations, except for the first one with a text, of which only the
text stays. -/
def Annotation.eraseDocs : List Annotation → List Annotation
  | [] => []
  | a :: rest =>
    match a.docText? with
    | some text => .doc text :: rest.filter (!·.isDoc)
    | none => if a.isDoc then eraseDocs rest else a :: eraseDocs rest

namespace Annotation

lemma docText?_doc (text : String) : (doc text).docText? = some text := by
  simp [doc, positional, docText?, isDoc, positionalArg, ArgMap.get?, ArgMap.insert, ArgMap.empty,
    insertEntry]

lemma isDoc_of_docText? {a : Annotation} {text : String} (h : a.docText? = some text) :
    a.isDoc = true := by
  by_contra hdoc
  rw [docText?, if_neg hdoc] at h
  cases h

@[simp] lemma markers_eraseDocs (annotations : List Annotation) :
    markers (eraseDocs annotations) = markers annotations := by
  unfold markers
  congr 1
  induction annotations with
  | nil => rfl
  | cons a rest ih =>
    rw [eraseDocs]
    cases htext : a.docText? with
    | some text =>
      -- both the old and the new doc annotation are passed over
      have hold : (!a.isDoc) = false := by rw [isDoc_of_docText? htext]; rfl
      have hnew : (!(doc text).isDoc) = false := by rw [isDoc_of_docText? (docText?_doc text)]; rfl
      simp [hold, hnew]
    | none =>
      by_cases hdoc : a.isDoc = true
      · simp [hdoc, ih]
      · simp [hdoc, ih]

@[simp] lemma docLines_eraseDocs (annotations : List Annotation) :
    docLines (eraseDocs annotations) = docLines annotations := by
  have hfirst : (eraseDocs annotations).findSome? docText? = annotations.findSome? docText? := by
    induction annotations with
    | nil => rfl
    | cons a rest ih =>
      rw [eraseDocs, List.findSome?_cons]
      cases htext : a.docText? with
      | some text => simp [docText?_doc]
      | none =>
        by_cases hdoc : a.isDoc = true
        · simp [hdoc, ih]
        · simp [hdoc, ih, htext]
  rw [docLines, docLines, hfirst]

end Annotation

/-! ## Endpoints -/

/-- A parameter of an endpoint, with its type erased. -/
def Param.erased (p : Param) : Param :=
  { p with type := p.type.erased }

/-- A parameter of a resource: whether it is optional is not noted. -/
def Param.erasedNote (p : Param) : Param :=
  { p with type := p.type.erased, optional := false }

/-- The first expected body, then everything else in order. -/
def eraseModifiers (modifiers : List Modifier) : List Modifier :=
  ((modifiers.findSome? Endpoint.bodyOf).map fun type => .expects type.erased).toList ++
    modifiers.filter fun m => (Endpoint.bodyOf m).isNone

/-- An endpoint with its first path only, its rendered annotations and modifiers, and without its
mark. -/
def Endpoint.erased (e : Endpoint) : Endpoint where
  verb := e.verb
  paths := [e.primaryPath]
  annotations := Annotation.eraseDocs e.annotations
  params := e.params.map Param.erased
  modifiers := eraseModifiers e.modifiers
  returns := e.returns.map TypeRef.erased
  overriding := false

lemma findSome?_bodyOf_eraseModifiers (modifiers : List Modifier) :
    (eraseModifiers modifiers).findSome? Endpoint.bodyOf =
      (modifiers.findSome? Endpoint.bodyOf).map TypeRef.erased := by
  have hothers : (modifiers.filter fun m => (Endpoint.bodyOf m).isNone).findSome? Endpoint.bodyOf =
      none := by
    simp
  rw [eraseModifiers, List.findSome?_append, hothers, Option.or_none]
  cases modifiers.findSome? Endpoint.bodyOf <;> rfl

lemma filterMap_marker_eraseModifiers (modifiers : List Modifier) :
    (eraseModifiers modifiers).filterMap Modifier.marker = modifiers.filterMap Modifier.marker := by
  have hbody : (((modifiers.findSome? Endpoint.bodyOf).map fun type =>
      Modifier.expects type.erased).toList).filterMap Modifier.marker = [] := by
    cases modifiers.findSome? Endpoint.bodyOf <;> rfl
  rw [eraseModifiers, List.filterMap_append, hbody, List.nil_append, List.filterMap_filter]
  congr 1
  funext m
  cases m <;> rfl

namespace Endpoint

variable (e : Endpoint) (segments : List String)

@[simp] lemma primaryPath_erased : e.erased.primaryPath = e.primaryPath := rfl

lemma parameterText_erased (bound : List String) (p : Param) :
    parameterText bound p.erased = parameterText bound p := by
  simp [parameterText, Param.erased, Route.Binding.of]

lemma parameters_erased : e.erased.parameters segments = e.parameters segments := by
  have hbody : e.erased.expectedBody.map bodyText = e.expectedBody.map bodyText := by
    have hfirst : e.erased.expectedBody = e.expectedBody.map TypeRef.erased :=
      findSome?_bodyOf_eraseModifiers e.modifiers
    rw [hfirst, Option.map_map]
    congr 1
    funext type
    simp [bodyText]
  have hparams (bound : List String) :
      e.erased.params.map (parameterText bound) = e.params.map (parameterText bound) := by
    simp [Endpoint.erased, parameterText_erased]
  rw [parameters, parameters, hbody, primaryPath_erased, hparams]

lemma markers_erased : e.erased.markers segments = e.markers segments := by
  have hannotations : Annotation.markers e.erased.annotations = Annotation.markers e.annotations :=
    Annotation.markers_eraseDocs e.annotations
  have hmodifiers : e.erased.modifiers.filterMap Modifier.marker =
      e.modifiers.filterMap Modifier.marker :=
    filterMap_marker_eraseModifiers e.modifiers
  rw [markers, markers, hannotations, hmodifiers]
  rfl

lemma signature_erased : e.erased.signature segments = e.signature segments := by
  have hreturns : e.erased.returns.map TypeRef.text = e.returns.map TypeRef.text := by
    simp [Endpoint.erased, Function.comp_def]
  rw [signature, signature, hreturns, parameters_erased, primaryPath_erased]

/-- The method of an endpoint is the method of its rendered part. -/
lemma methodBlock_erased : e.erased.methodBlock segments = e.methodBlock segments := by
  have hdoc : Annotation.docLines e.erased.annotations = Annotation.docLines e.annotations :=
    Annotation.docLines_eraseDocs e.annotations
  have hbody : e.erased.stubBody = e.stubBody := by
    simp [stubBody, Endpoint.erased]
  rw [methodBlock, methodBlock, hdoc, hbody, markers_erased, signature_erased]

end Endpoint

/-! ## Resources, traits and units -/

open Annotation (eraseDocs)

mutual

/-- The rendered part of a resource. -/
def Resource.erased : Resource → Resource
  | .mk path annotations params content =>
    .mk path (eraseDocs annotations) (params.map Param.erasedNote) (eraseContents content)

/-- The rendered part of a content list. -/
def eraseContents : List Content → List Content
  | [] => []
  | item :: rest => item.erased :: eraseContents rest

/-- The rendered part of a content item. -/
def Content.erased : Content → Content
  | .endpoint e => .endpoint e.erased
  | .resource r => .resource r.erased
  | .use name => .use name

end

/-- The rendered part of a trait member. -/
def TraitMember.erased (m : TraitMember) : TraitMember where
  endpoint := m.endpoint.erased
  overriding := false

/-- The rendered part of a trait. -/
def Trait.erased (t : Trait) : Trait where
  name := t.name
  members := t.members.map TraitMember.erased

/-- A unit with the rendered parts of its resources and of those traits that are used in it. -/
def CompilationUnit.erased (u : CompilationUnit) : CompilationUnit where
  package := u.package
  imports := u.imports
  traits := (u.traits.filter fun t => t.name ∈ u.useNames).map Trait.erased
  resources := u.resources.map Resource.erased

/-- What rendering reads of a unit. -/
structure RenderedPart where
  /-- The package of the unit. -/
  package : Option String
  /-- The imports of the unit. -/
  imports : List String
  /-- The rendered parts of the used traits, in no particular order. -/
  traits : Multiset Trait
  /-- The rendered parts of the resources. -/
  resources : List Resource

/-- The rendered part of a unit. -/
def CompilationUnit.renderedPart (u : CompilationUnit) : RenderedPart where
  package := u.erased.package
  imports := u.erased.imports
  traits := u.erased.traits
  resources := u.erased.resources

lemma TraitMember.methodBlock_stamped (m : TraitMember) (segments : List String) :
    m.stamped.methodBlock segments = m.endpoint.methodBlock segments := by
  rw [TraitMember.stamped]
  split <;> rfl

lemma eraseContents_eq_map (content : List Content) :
    eraseContents content = content.map Content.erased := by
  induction content with
  | nil => rw [eraseContents, List.map_nil]
  | cons item rest ih => rw [eraseContents, ih, List.map_cons]

namespace Resource

variable (r : Resource)

@[simp] lemma path_erased : r.erased.path = r.path := by
  cases r
  rw [Resource.erased, path, path]

lemma annotations_erased : r.erased.annotations = Annotation.eraseDocs r.annotations := by
  cases r
  rw [Resource.erased, annotations, annotations]

lemma params_erased : r.erased.params = r.params.map Param.erasedNote := by
  cases r
  rw [Resource.erased, params, params]

lemma content_erased : r.erased.content = r.content.map Content.erased := by
  cases r
  rw [Resource.erased, content, content, eraseContents_eq_map]

lemma nested_erased : r.erased.nested = r.nested.map Resource.erased := by
  rw [nested, nested, content_erased, List.filterMap_map, List.map_filterMap]
  congr 1
  funext item
  cases item <;> simp [Content.erased, Content.resource?]

@[simp] lemma uses_erased : r.erased.uses = r.uses := by
  rw [uses, uses, content_erased, List.filterMap_map]
  congr 1
  funext item
  cases item <;> simp [Content.erased, Content.use?]

end Resource

namespace CompilationUnit

variable (u : CompilationUnit)

/-! ## Rendering before and after the edit -/

/-- The place in the erased forest. -/
def eraseNode (n : Node) : Node :=
  { n with resource := n.resource.erased }

lemma nodes_erased : u.erased.nodes = u.nodes.map eraseNode := by
  have hforest : List.Forall₂ (fun r s => s = r.erased) u.resources
      (u.resources.map Resource.erased) := by
    rw [List.forall₂_map_right_iff]
    exact List.forall₂_same.2 fun _ _ => rfl
  have hnodes : u.nodes.map eraseNode = u.erased.nodes.map id := by
    refine map_forestNodes_congr (R := fun r s => s = r.erased) ?_ ?_ ?_ hforest [] [] 0
    · rintro r s rfl
      exact r.path_erased.symm
    · rintro r s rfl
      rw [r.nested_erased, List.forall₂_map_right_iff]
      exact List.forall₂_same.2 fun _ _ => rfl
    · rintro address ancestors r s rfl
      rfl
  rw [hnodes, List.map_id]

lemma useNames_erased : u.erased.useNames = u.useNames := by
  rw [useNames, nodes_erased, List.flatMap_map]
  simp only [eraseNode, Resource.uses_erased]
  rfl

variable {u}

/-- A used name is looked up alike, up to erasure. -/
lemma find?_traits_erased {name : String} (hused : name ∈ u.useNames) :
    u.erased.traits.find? (·.name == name) =
      (u.traits.find? (·.name == name)).map Trait.erased := by
  have hfilter : (u.traits.filter fun t => t.name ∈ u.useNames).find? (·.name == name) =
      u.traits.find? (·.name == name) := by
    rw [List.find?_filter]
    refine List.find?_congr fun t _ => ?_
    by_cases hname : t.name = name
    · simp [hname, hused]
    · simp [hname]
  rw [erased, List.find?_map]
  exact congrArg (Option.map Trait.erased) hfilter

lemma map_endpoints_erased {item : Content} (segments : List String)
    (hused : ∀ name, item = .use name → name ∈ u.useNames) :
    (Content.endpoints u.erased.traits item.erased).map (·.methodBlock segments) =
      (Content.endpoints u.traits item).map (·.methodBlock segments) := by
  cases item with
  | endpoint e => simp [Content.erased, Content.endpoints, e.methodBlock_erased]
  | resource r => simp [Content.erased, Content.endpoints]
  | use name =>
    rw [Content.erased, Content.endpoints, Content.endpoints, find?_traits_erased (hused name rfl)]
    cases u.traits.find? (·.name == name) with
    | none => rfl
    | some t =>
      simp [Trait.erased, TraitMember.methodBlock_stamped, TraitMember.erased,
        Endpoint.methodBlock_erased]

/-- The class of a place is the class of its rendered part. -/
lemma controller_erased {n : Node} (hn : u.HasNode n) :
    Node.controller u.erased (eraseNode n) = Node.controller u n := by
  have hmethods : (n.resource.erased.endpoints u.erased.traits).map (·.methodBlock n.segments) =
      (n.resource.endpoints u.traits).map (·.methodBlock n.segments) := by
    rw [Resource.endpoints, Resource.endpoints, Resource.content_erased, List.flatMap_map,
      List.map_flatMap, List.map_flatMap]
    refine List.flatMap_congr fun item hitem => map_endpoints_erased n.segments fun name hname => ?_
    exact mem_useNames.2 ⟨n, hn, hname ▸ hitem⟩
  have hsegments : (eraseNode n).segments = n.segments := by
    simp [Node.segments, eraseNode]
  have hlayout : (eraseNode n).layout u.erased = n.layout u := by
    rw [Node.layout, Node.layout, hsegments]
    simp only [eraseNode, hmethods, Resource.annotations_erased, Annotation.docLines_eraseDocs,
      Annotation.markers_eraseDocs, Resource.path_erased, Resource.params_erased, List.map_map]
    simp [erased, Param.erasedNote, Function.comp_def]
  rw [Node.controller, Node.controller, hlayout]
  simp [eraseNode]

lemma mem_traitNames_erased {name : String} (hused : name ∈ u.useNames) :
    name ∈ u.erased.traitNames ↔ name ∈ u.traitNames := by
  simp only [traitNames, erased, List.mem_map, List.mem_filter, exists_exists_and_eq_and,
    decide_eq_true_eq]
  constructor
  · rintro ⟨t, ⟨ht, -⟩, rfl⟩
    exact ⟨t, ht, rfl⟩
  · rintro ⟨t, ht, rfl⟩
    exact ⟨t, ⟨ht, hused⟩, rfl⟩

lemma nodup_traitNames_erased (h : u.traitNames.Nodup) : u.erased.traitNames.Nodup := by
  have hnames : u.erased.traitNames =
      (u.traits.filter fun t => t.name ∈ u.useNames).map (·.name) := by
    rw [traitNames, erased, List.map_map]
    rfl
  rw [hnames]
  exact h.sublist (List.filter_sublist.map _)

/-- A unit with distinct trait names renders like its erased form. -/
lemma controllers_erased (h : u.traitNames.Nodup) : u.erased.controllers = u.controllers := by
  refine controllers_congr ?_ u.useNames_erased (fun name hname => ?_) ?_
  · rw [nodup_traitNames_iff.1 h, nodup_traitNames_iff.1 (nodup_traitNames_erased h)]
  · rw [useNames_erased] at hname
    exact mem_traitNames_erased hname
  · rw [nodes_erased, List.map_map]
    exact List.map_congr_left fun n hn => controller_erased (mem_nodes.1 hn)

/-! ## The order of traits -/

lemma find?_name_perm {traits traits' : List Trait} (hperm : traits.Perm traits')
    (h : (traits.map (·.name)).Nodup) (name : String) :
    traits.find? (·.name == name) = traits'.find? (·.name == name) := by
  refine List.find?_eq_find?_of_perm hperm fun s hs t ht => ?_
  have hnames : s.name = t.name := (beq_iff_eq.1 hs.2).trans (beq_iff_eq.1 ht.2).symm
  exact List.inj_on_of_nodup_map h hs.1 ht.1 hnames

lemma controllers_perm {u v : CompilationUnit} (h : u.traitNames.Nodup)
    (hpackage : u.package = v.package) (himports : u.imports = v.imports)
    (htraits : u.traits.Perm v.traits) (hresources : u.resources = v.resources) :
    u.controllers = v.controllers := by
  have hnames : u.traitNames.Perm v.traitNames := htraits.map _
  have hnodes : u.nodes = v.nodes := by rw [nodes, nodes, hresources]
  have hendpoints : Content.endpoints u.traits = Content.endpoints v.traits := by
    funext item
    cases item with
    | endpoint e => rfl
    | resource r => rfl
    | use name => rw [Content.endpoints, Content.endpoints, find?_name_perm htraits h name]
  refine controllers_congr ?_ ?_ (fun name _ => hnames.mem_iff) ?_
  · rw [nodup_traitNames_iff.1 h, nodup_traitNames_iff.1 (hnames.nodup_iff.1 h)]
  · rw [useNames, useNames, hnodes]
  · rw [hnodes]
    refine List.map_congr_left fun n _ => ?_
    simp only [Node.controller, Node.layout, Resource.endpoints, hpackage, himports, hendpoints]

/-- Units with distinct trait names and the same rendered part give the same classes or the same
error. -/
theorem controllers_of_renderedPart {u v : CompilationUnit} (hu : u.traitNames.Nodup)
    (hv : v.traitNames.Nodup) (h : u.renderedPart = v.renderedPart) :
    u.controllers = v.controllers := by
  obtain ⟨hpackage, himports, htraits, hresources⟩ := RenderedPart.mk.inj h
  have hperm : u.erased.traits.Perm v.erased.traits := Multiset.coe_eq_coe.1 htraits
  calc u.controllers
    _ = u.erased.controllers := (controllers_erased hu).symm
    _ = v.erased.controllers :=
      controllers_perm (nodup_traitNames_erased hu) hpackage himports hperm hresources
    _ = v.controllers := controllers_erased hv

end CompilationUnit

/-- A unit with two used traits. -/
def deskUnit : CompilationUnit where
  package := some "org.desk"
  traits := [
    { name := "Audited", members := [{ endpoint := { verb := .get, paths := [""] } }] },
    { name := "Listed",
      members := [
        { endpoint := { verb := .get, paths := ["/all"],
                        returns := some (.generic "List" [.anything false]) } }] }]
  resources := [
    .mk "/desks" [.doc "Desks.", .marker "Slow"] [{ name := "tenant", type := .simple "String" }] [
      .use "Listed",
      .endpoint { verb := .post, paths := ["/new"], modifiers := [.expects (.simple "Desk"), .tx] },
      .resource (.mk "/{id}" [] [] [.use "Audited"])]]

/-- The same unit with other records: traits in another order and one that is not used, generics and
descriptions; marks on members and endpoints; more paths, expected bodies and doc annotations; other
flags. -/
def deskUnitRecorded : CompilationUnit where
  package := some "org.desk"
  traits := [
    { name := "Unused", members := [{ endpoint := { verb := .delete, paths := [] } }] },
    { name := "Listed",
      generics := ["T"],
      members := [
        { endpoint := {
            verb := .get, paths := ["/all", "/every"],
            returns := some (.generic "List" [.anything true]) },
          overriding := true }] },
    { name := "Audited", members := [{ endpoint := { verb := .get, paths := [] } }],
      doc := some "Logs." }]
  resources := [
    .mk "/desks"
      [.positional "Doc" (.int 7),
        ⟨"Doc", .ofList [("", .string "Desks."), ("lang", .string "en")]⟩,
        .marker "Slow", .doc "More."]
      [{ name := "tenant", type := .simple "String", optional := true }] [
      .use "Listed",
      .endpoint {
        verb := .post, paths := ["/new"],
        modifiers := [.tx, .expects (.simple "Desk"), .expects (.simple "Chair")],
        overriding := true },
      .resource (.mk "/{id}" [] [] [.use "Audited"])]]

theorem controllers_of_renderedPart_desk :
    deskUnit.traitNames.Nodup ∧ deskUnitRecorded.traitNames.Nodup ∧
      deskUnit.renderedPart = deskUnitRecorded.renderedPart ∧
      deskUnit.controllers = deskUnitRecorded.controllers ∧
        ∃ out, deskUnit.controllers = .ok out := by
  have hdistinct : deskUnit.traitNames.Nodup := by decide
  have hdistinct' : deskUnitRecorded.traitNames.Nodup := by decide
  have huses : deskUnit.useNames = ["Listed", "Audited"] := by
    simp [CompilationUnit.useNames, CompilationUnit.nodes, deskUnit, forestNodes, Resource.nested,
      Resource.content, Content.resource?, Resource.uses, Content.use?, List.filterMap_cons]
  have huses' : deskUnitRecorded.useNames = ["Listed", "Audited"] := by
    simp [CompilationUnit.useNames, CompilationUnit.nodes, deskUnitRecorded, forestNodes,
      Resource.nested, Resource.content, Content.resource?, Resource.uses, Content.use?,
      List.filterMap_cons]
  have hpart : deskUnit.renderedPart = deskUnitRecorded.renderedPart := by
    have hperm : deskUnit.erased.traits.Perm deskUnitRecorded.erased.traits := by
      rw [CompilationUnit.erased, CompilationUnit.erased, huses, huses']
      exact List.Perm.swap _ _ []
    rw [CompilationUnit.renderedPart, CompilationUnit.renderedPart, Multiset.coe_eq_coe.2 hperm]
    rfl
  exact ⟨hdistinct, hdistinct', hpart,
    CompilationUnit.controllers_of_renderedPart hdistinct hdistinct' hpart, _, rfl⟩

end ResourceStubs
