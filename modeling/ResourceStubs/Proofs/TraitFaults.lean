import ResourceStubs.Proofs.Rendering

/-!
# Which trait fault is reported

A unit may have many faults at once: trait names that repeat, and trait uses, in any resource on any
level, of names that are not declared. Rendering reports one of them. This module says which one, by
conditions that mention neither the walk nor the table:

* a repeated name comes first, whether or not any trait is used, and of several the one that repeats
  earliest;
* else the first undeclared use, where uses are ordered by the address of their resource and, inside
  one resource, by their position in its content.

Positions in the content count for uses of the same resource only. A use of a resource therefore
comes before all uses of the resources nested in it, even of those that are written down before it.
-/

namespace ResourceStubs

/-- The first use of a resource that meets a condition, by its position in the content. -/
lemma Resource.find?_uses_eq_some_iff {r : Resource} {p : String → Bool} {name : String} :
    r.uses.find? p = some name ↔
      ∃ i : Nat, r.content[i]? = some (.use name) ∧ p name ∧
        ∀ j < i, ∀ other, r.content[j]? = some (.use other) → ¬ p other := by
  rw [Resource.uses, List.find?_filterMap, Option.bind_eq_some_iff]
  constructor
  · rintro ⟨item, hitem, huse⟩
    obtain rfl := Content.use?_eq_some_iff.1 huse
    obtain ⟨hp, i, hi, hget, hbefore⟩ := List.find?_eq_some_iff_getElem.1 hitem
    refine ⟨i, List.getElem?_eq_some_iff.2 ⟨hi, hget⟩, by simpa [Content.use?] using hp,
      fun j hj other hother => ?_⟩
    obtain ⟨_, hgetj⟩ := List.getElem?_eq_some_iff.1 hother
    simpa [hgetj, Content.use?] using hbefore j hj
  · rintro ⟨i, hget, hp, hbefore⟩
    obtain ⟨hi, hget⟩ := List.getElem?_eq_some_iff.1 hget
    refine ⟨.use name, List.find?_eq_some_iff_getElem.2
      ⟨by simpa [Content.use?] using hp, i, hi, hget, ?_⟩, rfl⟩
    intro j hj
    cases h : r.content[j] with
    | endpoint e => simp [Content.use?]
    | resource s => simp [Content.use?]
    | use other =>
      simpa [Content.use?] using hbefore j hj other (List.getElem?_eq_some_iff.2 ⟨by omega, h⟩)

namespace CompilationUnit

/-- The name is used at a position of the content of a resource of the unit. -/
structure UsesAt (u : CompilationUnit) (n : Node) (i : Nat) (name : String) : Prop where
  place : u.HasNode n
  use : n.resource.content[i]? = some (.use name)

/-- The name is not declared, and everything that is used earlier is: by a resource with a smaller
address, or by the same resource at a smaller position. -/
def IsFirstUndeclaredUse (u : CompilationUnit) (name : String) : Prop :=
  ∃ n i, u.UsesAt n i name ∧ name ∉ u.traitNames ∧
    ∀ m j other, u.UsesAt m j other → (m.address < n.address ∨ m.address = n.address ∧ j < i) →
      other ∈ u.traitNames

lemma exists_usesAt_iff {u : CompilationUnit} {name : String} :
    (∃ n i, u.UsesAt n i name) ↔ name ∈ u.useNames := by
  rw [mem_useNames]
  constructor
  · rintro ⟨n, i, hplace, huse⟩
    exact ⟨n, hplace, List.mem_of_getElem? huse⟩
  · rintro ⟨n, hplace, huse⟩
    obtain ⟨i, hi⟩ := List.mem_iff_getElem?.1 huse
    exact ⟨n, i, hplace, hi⟩

lemma find?_useNames_eq_some_iff {u : CompilationUnit} {name : String} :
    (u.useNames.find? fun name => name ∉ u.traitNames) = some name ↔
      u.IsFirstUndeclaredUse name := by
  rw [useNames, List.find?_flatMap, List.findSome?_eq_some_iff]
  constructor
  · rintro ⟨before, n, after, hsplit, hn, hbefore⟩
    obtain ⟨i, huse, hname, hposition⟩ := Resource.find?_uses_eq_some_iff.1 hn
    have hplace : u.HasNode n := mem_nodes.1 (by simp [hsplit])
    refine ⟨n, i, ⟨hplace, huse⟩, by simpa using hname, fun m j other hother hearlier => ?_⟩
    rcases HasNode.before_or_eq_or_after hsplit hother.place with ⟨hm, -⟩ | rfl | hlt
    · have hmem : other ∈ m.resource.uses := Resource.mem_uses.2 (List.mem_of_getElem? hother.use)
      have hnone := List.find?_eq_none.1 (hbefore m hm) other hmem
      simpa using hnone
    · have hj : j < i := by simpa using hearlier
      simpa using hposition j hj other hother.use
    · -- the place comes later, so its use is not an earlier one
      rcases hearlier with hearlier | ⟨hearlier, -⟩
      · exact absurd hearlier (lt_asymm hlt)
      · exact absurd hlt (hearlier ▸ lt_irrefl _)
  · rintro ⟨n, i, ⟨hplace, huse⟩, hname, hearlier⟩
    obtain ⟨before, after, hsplit⟩ := List.append_of_mem (mem_nodes.2 hplace)
    refine ⟨before, n, after, hsplit, ?_, fun m hm => List.find?_eq_none.2 fun other hother => ?_⟩
    · refine Resource.find?_uses_eq_some_iff.2
        ⟨i, huse, by simpa using hname, fun j hj other hother => ?_⟩
      have hdeclared := hearlier n j other ⟨hplace, hother⟩ (.inr ⟨rfl, hj⟩)
      simpa using hdeclared
    · have hordered := u.pairwise_nodes
      rw [hsplit] at hordered
      have hlt : m.address < n.address := hordered.rel_of_mem_append hm (by simp)
      obtain ⟨j, hj⟩ := List.mem_iff_getElem?.1 (Resource.mem_uses.1 hother)
      have hdeclared := hearlier m j other ⟨mem_nodes.1 (by simp [hsplit, hm]), hj⟩ (.inl hlt)
      simpa using hdeclared

/-- A unit renders if and only if its trait names are distinct and every use, in any resource on any
level, names a declared trait. Otherwise the error is the first repeated name or, with distinct
names, the first undeclared use. -/
theorem controllers_first_fault (u : CompilationUnit) :
    ((∃ out, u.controllers = .ok out) ↔
        u.traitNames.Nodup ∧ ∀ n i name, u.UsesAt n i name → name ∈ u.traitNames) ∧
      (∀ name, u.controllers = .error (.duplicate name) ↔ IsFirstRepeat u.traitNames name) ∧
      ∀ name, u.controllers = .error (.unknown name) ↔
        u.traitNames.Nodup ∧ u.IsFirstUndeclaredUse name := by
  refine ⟨?_, fun name => controllers_eq_duplicate_iff, fun name => ?_⟩
  · constructor
    · rintro ⟨out, hout⟩
      obtain ⟨hdistinct, hdeclared, -⟩ := controllers_eq_ok_iff.1 hout
      exact ⟨hdistinct, fun n i name huse => hdeclared name (exists_usesAt_iff.1 ⟨n, i, huse⟩)⟩
    · rintro ⟨hdistinct, hdeclared⟩
      refine ⟨_, controllers_eq_ok_iff.2 ⟨hdistinct, fun name hname => ?_, rfl⟩⟩
      obtain ⟨n, i, huse⟩ := exists_usesAt_iff.2 hname
      exact hdeclared n i name huse
  · rw [controllers_eq_unknown_iff, find?_useNames_eq_some_iff]

end CompilationUnit

-- a use that is written down after a nested resource is still reported before the uses inside it
example :
    CompilationUnit.controllers
        { resources :=
          [.mk "/a" [] [] [.resource (.mk "/b" [] [] [.use "Inner"]), .use "Outer"]] } =
      .error (.unknown "Outer") := rfl

end ResourceStubs
