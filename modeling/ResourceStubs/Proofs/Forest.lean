import Mathlib.Data.List.Lex
import ResourceStubs.Resource

/-!
# Places in the resource forest

A resource of a unit is found by its address: the position of its outermost resource among the
resources of the unit, then on every level the position among the nested resources of the one above.
Addresses are compared as words in a dictionary, so a resource comes before everything nested in it
and siblings come in declaration order. This order is depth-first preorder.

Only nested resources count for positions. Addresses therefore do not change when endpoints or trait
uses are added, removed or moved.

## The relation and the list

`CompilationUnit.HasNode` says what stands in the forest without any order of visiting it: a
resource of the unit, or a nested resource of one that stands there. `CompilationUnit.nodes` is the
list of all places, built by one recursion for forests of any depth and width. The main results tie
them together: the list holds exactly the places of the relation (`CompilationUnit.mem_nodes`), and
it is strictly increasing in the address (`CompilationUnit.pairwise_nodes`). A list with these two
properties is unique, so `nodes` is the preorder of the forest.
-/

namespace ResourceStubs

/-- The nested resource that a content item is. -/
def Content.resource? : Content → Option Resource
  | .resource r => some r
  | _ => none

/-- The nested resources of a resource, in declaration order. -/
def Resource.nested (r : Resource) : List Resource :=
  r.content.filterMap Content.resource?

/-- A place in a forest and the resource that stands there. -/
structure Node where
  /-- The position among the siblings on every level, outermost first. -/
  address : List Nat
  /-- The path segments of the resources around it, outermost first. -/
  ancestors : List String
  /-- The resource. -/
  resource : Resource

/-- The path segments from the outermost resource down to the one of the place. -/
def Node.segments (n : Node) : List String :=
  n.ancestors ++ [n.resource.path]

/-- The places of a unit: where its resources stand, and where their nested resources stand. -/
inductive CompilationUnit.HasNode (u : CompilationUnit) : Node → Prop
  | top {i : Nat} {r : Resource} (h : u.resources[i]? = some r) : u.HasNode ⟨[i], [], r⟩
  | nested {n : Node} {i : Nat} {r : Resource} (hn : u.HasNode n)
      (h : n.resource.nested[i]? = some r) :
    u.HasNode ⟨n.address ++ [i], n.segments, r⟩

/-! ## The list of places -/

lemma sizeOf_filterMap_resource_le (content : List Content) :
    sizeOf (content.filterMap Content.resource?) ≤ sizeOf content := by
  induction content with
  | nil => simp
  | cons item rest ih =>
    rw [List.filterMap_cons]
    cases item with
    | endpoint e => simp only [Content.resource?, List.cons.sizeOf_spec]; omega
    | resource r =>
      simp only [Content.resource?, List.cons.sizeOf_spec, Content.resource.sizeOf_spec]; omega
    | use name => simp only [Content.resource?, List.cons.sizeOf_spec]; omega

lemma Resource.sizeOf_nested_lt (r : Resource) : sizeOf r.nested < sizeOf r := by
  obtain ⟨path, annotations, params, content⟩ := r
  have h := sizeOf_filterMap_resource_le content
  simp only [Resource.nested, Resource.content, Resource.mk.sizeOf_spec]
  omega

/-- The places of sibling resources and of everything nested in them. The siblings stand below a
common address and below common segments, and the first of them has the given position. -/
def forestNodes (address : List Nat) (ancestors : List String) : Nat → List Resource → List Node
  | _, [] => []
  | i, r :: rest =>
    ⟨address ++ [i], ancestors, r⟩ ::
      forestNodes (address ++ [i]) (ancestors ++ [r.path]) 0 r.nested ++
      forestNodes address ancestors (i + 1) rest
termination_by _ siblings => sizeOf siblings
decreasing_by
  · have h := r.sizeOf_nested_lt
    simp only [List.cons.sizeOf_spec]
    omega
  · simp only [List.cons.sizeOf_spec]
    omega

/-- All places of a unit, in depth-first preorder. -/
def CompilationUnit.nodes (u : CompilationUnit) : List Node :=
  forestNodes [] [] 0 u.resources

/-! ## The list holds the places of the relation -/

lemma mem_forestNodes_of_sibling (address : List Nat) (ancestors : List String) (i : Nat) {k : Nat}
    {siblings : List Resource} {r : Resource} (h : siblings[k]? = some r) :
    ⟨address ++ [i + k], ancestors, r⟩ ∈ forestNodes address ancestors i siblings := by
  induction siblings generalizing i k with
  | nil => simp at h
  | cons s rest ih =>
    rw [forestNodes]
    cases k with
    | zero =>
      obtain rfl : s = r := by simpa using h
      simp
    | succ k =>
      have hrest := ih (i + 1) (k := k) (by simpa using h)
      rw [show i + 1 + k = i + (k + 1) by omega] at hrest
      exact List.mem_append_right _ hrest

/-- The list is closed under going to a nested resource. -/
lemma mem_forestNodes_nested {address : List Nat} {ancestors : List String} {i k : Nat}
    {siblings : List Resource} {n : Node} {r : Resource}
    (hn : n ∈ forestNodes address ancestors i siblings) (h : n.resource.nested[k]? = some r) :
    ⟨n.address ++ [k], n.segments, r⟩ ∈ forestNodes address ancestors i siblings := by
  fun_induction forestNodes address ancestors i siblings with
  | case1 => simp at hn
  | case2 address ancestors i s rest ihNested ihRest =>
    rw [List.cons_append, List.mem_cons, List.mem_append] at hn
    rcases hn with rfl | hn | hn
    · -- the place is that of the first sibling, so the nested one is a sibling one level down
      have hk := mem_forestNodes_of_sibling (address ++ [i]) (ancestors ++ [s.path]) 0 h
      rw [Nat.zero_add] at hk
      exact List.mem_cons_of_mem _ (List.mem_append_left _ hk)
    · exact List.mem_cons_of_mem _ (List.mem_append_left _ (ihNested hn))
    · exact List.mem_append_right _ (ihRest hn)

/-- Whatever holds of the siblings and goes over to nested resources holds of the whole list. -/
lemma forestNodes_induction {P : Node → Prop} {address : List Nat} {ancestors : List String}
    {i : Nat} {siblings : List Resource}
    (hsibling : ∀ k r, siblings[k]? = some r → P ⟨address ++ [i + k], ancestors, r⟩)
    (hnested : ∀ n k r, P n → n.resource.nested[k]? = some r →
      P ⟨n.address ++ [k], n.segments, r⟩) :
    ∀ n ∈ forestNodes address ancestors i siblings, P n := by
  fun_induction forestNodes address ancestors i siblings with
  | case1 => simp
  | case2 address ancestors i s rest ihNested ihRest =>
    have hfirst : P ⟨address ++ [i], ancestors, s⟩ := hsibling 0 s (by simp)
    intro n hn
    rw [List.cons_append, List.mem_cons, List.mem_append] at hn
    rcases hn with rfl | hn | hn
    · exact hfirst
    · refine ihNested (fun k r hk => ?_) n hn
      rw [Nat.zero_add]
      exact hnested _ k r hfirst hk
    · refine ihRest (fun k r hk => ?_) n hn
      rw [show i + 1 + k = i + (k + 1) by omega]
      exact hsibling (k + 1) r (by simpa using hk)

/-- Two forests are read alike when they correspond resource by resource. A correspondence has to
keep paths, which become segments, and has to go on among the nested resources; positions then agree
by themselves. -/
lemma map_forestNodes_congr {β : Type} {R : Resource → Resource → Prop} {f g : Node → β}
    (hpath : ∀ r s, R r s → r.path = s.path)
    (hnested : ∀ r s, R r s → List.Forall₂ R r.nested s.nested)
    (hread : ∀ address ancestors r s, R r s → f ⟨address, ancestors, r⟩ = g ⟨address, ancestors, s⟩)
    {siblings siblings' : List Resource} (h : List.Forall₂ R siblings siblings')
    (address : List Nat) (ancestors : List String) (i : Nat) :
    (forestNodes address ancestors i siblings).map f =
      (forestNodes address ancestors i siblings').map g := by
  fun_induction forestNodes address ancestors i siblings generalizing siblings' with
  | case1 =>
    cases h
    rw [forestNodes]
    rfl
  | case2 address ancestors i r rest ihNested ihRest =>
    cases h with
    | cons hr hrest =>
      have hbelow := ihNested (hnested _ _ hr)
      have hmore := ihRest hrest
      rw [forestNodes, ← hpath _ _ hr]
      simp only [List.cons_append, List.map_cons, List.map_append, hread _ _ _ _ hr, hbelow, hmore]

/-- The list holds exactly the places of the forest. -/
theorem CompilationUnit.mem_nodes {u : CompilationUnit} {n : Node} : n ∈ u.nodes ↔ u.HasNode n := by
  constructor
  · intro hn
    refine forestNodes_induction (fun k r hk => ?_) (fun m k r hm hk => hm.nested hk) n hn
    rw [Nat.zero_add]
    exact .top hk
  · intro hn
    induction hn with
    | top h =>
      have hmem := mem_forestNodes_of_sibling [] [] 0 h
      rwa [Nat.zero_add] at hmem
    | nested _ h ih => exact mem_forestNodes_nested ih h

/-! ## The list is in preorder -/

lemma exists_address_of_mem_forestNodes {address : List Nat} {ancestors : List String} {i : Nat}
    {siblings : List Resource} :
    ∀ n ∈ forestNodes address ancestors i siblings, ∃ k below,
      n.address = address ++ (i + k) :: below := by
  refine forestNodes_induction (fun k r _ => ⟨k, [], rfl⟩) (fun n k r hn _ => ?_)
  obtain ⟨j, below, hj⟩ := hn
  exact ⟨j, below ++ [k], by simp [hj]⟩

lemma pairwise_forestNodes (address : List Nat) (ancestors : List String) (i : Nat)
    (siblings : List Resource) :
    (forestNodes address ancestors i siblings).Pairwise fun m n => m.address < n.address := by
  fun_induction forestNodes address ancestors i siblings with
  | case1 => exact List.Pairwise.nil
  | case2 address ancestors i s rest ihNested ihRest =>
    rw [List.cons_append, List.pairwise_cons, List.pairwise_append]
    refine ⟨fun n hn => ?_, ihNested, ihRest, fun m hm n hn => ?_⟩
    · rcases List.mem_append.1 hn with hn | hn
      · -- a nested resource: its address goes on where that of the first sibling ends
        obtain ⟨k, below, hk⟩ := exists_address_of_mem_forestNodes n hn
        rw [hk, List.append_assoc]
        exact List.append_left_lt (by simp)
      · obtain ⟨k, below, hk⟩ := exists_address_of_mem_forestNodes n hn
        rw [hk]
        exact List.append_left_lt (List.cons_lt_cons_iff.2 (.inl (by omega)))
    · obtain ⟨k, below, hk⟩ := exists_address_of_mem_forestNodes m hm
      obtain ⟨j, below', hj⟩ := exists_address_of_mem_forestNodes n hn
      rw [hk, hj, List.append_assoc]
      exact List.append_left_lt (List.cons_lt_cons_iff.2 (.inl (by omega)))

/-- Addresses increase along the list. -/
theorem CompilationUnit.pairwise_nodes (u : CompilationUnit) :
    u.nodes.Pairwise fun m n => m.address < n.address :=
  pairwise_forestNodes [] [] 0 u.resources

/-- Seen from one place of the list, every other place stands before it with a smaller address or
has a larger one. -/
lemma CompilationUnit.HasNode.before_or_eq_or_after {u : CompilationUnit} {before after : List Node}
    {n m : Node} (hsplit : u.nodes = before ++ n :: after) (hm : u.HasNode m) :
    m ∈ before ∧ m.address < n.address ∨ m = n ∨ n.address < m.address := by
  have hordered := u.pairwise_nodes
  rw [hsplit] at hordered
  rw [← mem_nodes, hsplit, List.mem_append, List.mem_cons] at hm
  rcases hm with hm | rfl | hm
  · exact .inl ⟨hm, hordered.rel_of_mem_append hm (by simp)⟩
  · exact .inr (.inl rfl)
  · exact .inr (.inr (List.rel_of_pairwise_cons (List.pairwise_append.1 hordered).2.1 hm))

end ResourceStubs
