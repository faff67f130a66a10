import Mathlib.Data.List.Nodup
import ResourceStubs.TraitTable

/-!
# Trait names

Two questions about names decide whether a unit renders: does a declared name repeat, and is every
used name declared? Both are answered by a loop that stops at the first offence. This module says
what the loops find, in terms of the list of names alone.

The loop that builds the table keeps the names seen so far, and its invariant is that they are
distinct from each other; it finds nothing exactly if all names are (`firstRepeated_eq_none_iff`),
and otherwise the name whose second occurrence comes first (`firstRepeated_eq_some_iff`). The loop
over uses needs no invariant, since whether a name is declared does not change on the way
(`checkUses_eq`).
-/

namespace ResourceStubs

/-- The names of the declared traits, in declaration order. -/
def CompilationUnit.traitNames (u : CompilationUnit) : List String :=
  u.traits.map (·.name)

/-- The trait is declared under the name, and no other trait is. -/
structure CompilationUnit.DeclaresOnly (u : CompilationUnit) (name : String) (t : Trait) :
    Prop where
  declared : t ∈ u.traits
  named : t.name = name
  unique : ∀ s ∈ u.traits, s.name = name → s = t

lemma find?_name_eq_none_iff {traits : List Trait} {name : String} :
    traits.find? (·.name == name) = none ↔ name ∉ traits.map (·.name) := by
  simp

lemma mem_of_find?_name {traits : List Trait} {name : String} {t : Trait}
    (h : traits.find? (·.name == name) = some t) : t ∈ traits ∧ t.name = name :=
  ⟨List.mem_of_find?_eq_some h, by simpa using List.find?_some h⟩

/-- With distinct names, looking a declared name up finds its only trait. -/
lemma CompilationUnit.exists_declaresOnly {u : CompilationUnit} {name : String}
    (hdistinct : u.traitNames.Nodup) (hname : name ∈ u.traitNames) :
    ∃ t, u.DeclaresOnly name t ∧ u.traits.find? (·.name == name) = some t := by
  cases h : u.traits.find? (·.name == name) with
  | none => exact absurd hname (find?_name_eq_none_iff.1 h)
  | some t =>
    obtain ⟨hmem, same⟩ := mem_of_find?_name h
    refine ⟨t, ⟨hmem, same, fun s hs hsname => ?_⟩, rfl⟩
    exact List.inj_on_of_nodup_map hdistinct hs hmem (hsname.trans same.symm)

/-! ## Repeated names -/

/-- The first entry of a list of names that occurred before. -/
def IsFirstRepeat (names : List String) (name : String) : Prop :=
  ∃ before after, names = before ++ name :: after ∧ before.Nodup ∧ name ∈ before

lemma firstRepeated_eq_none_iff_of_seen {seen : List String} {traits : List Trait} :
    TraitTable.firstRepeated seen traits = none ↔
      (traits.map (·.name)).Nodup ∧ ∀ name ∈ traits.map (·.name), name ∉ seen := by
  induction traits generalizing seen with
  | nil => simp [TraitTable.firstRepeated]
  | cons t rest ih =>
    rw [TraitTable.firstRepeated]
    by_cases h : t.name ∈ seen
    · simp [h]
    · simp only [List.contains_eq_mem, h, decide_false, Bool.false_eq_true, if_false, ih,
        List.map_cons, List.nodup_cons, List.forall_mem_cons, not_false_eq_true, true_and]
      constructor
      · rintro ⟨hdistinct, hnew⟩
        refine ⟨⟨fun hmem => hnew _ hmem (by simp), hdistinct⟩, fun name hname hseen => ?_⟩
        exact hnew name hname (by simp [hseen])
      · rintro ⟨⟨hfresh, hdistinct⟩, hnew⟩
        refine ⟨hdistinct, fun name hname => ?_⟩
        rw [List.mem_cons, not_or]
        exact ⟨fun same => hfresh (same ▸ hname), hnew name hname⟩

/-- Building the table succeeds exactly for distinct names. -/
lemma firstRepeated_eq_none_iff {traits : List Trait} :
    TraitTable.firstRepeated [] traits = none ↔ (traits.map (·.name)).Nodup := by
  simp [firstRepeated_eq_none_iff_of_seen]

lemma CompilationUnit.nodup_traitNames_iff {u : CompilationUnit} :
    u.traitNames.Nodup ↔ TraitTable.firstRepeated [] u.traits = none :=
  firstRepeated_eq_none_iff.symm

lemma firstRepeated_eq_some_iff_of_seen {seen : List String} {traits : List Trait} {name : String} :
    TraitTable.firstRepeated seen traits = some name ↔
      ∃ before after, traits.map (·.name) = before ++ name :: after ∧ before.Nodup ∧
        (∀ x ∈ before, x ∉ seen) ∧
        (name ∈ before ∨ name ∈ seen) := by
  induction traits generalizing seen with
  | nil => simp [TraitTable.firstRepeated]
  | cons t rest ih =>
    rw [TraitTable.firstRepeated]
    by_cases h : t.name ∈ seen
    · simp only [List.contains_eq_mem, h, decide_true, if_true, Option.some.injEq, List.map_cons]
      constructor
      · rintro rfl
        exact ⟨[], _, rfl, List.nodup_nil, by simp, Or.inr h⟩
      · rintro ⟨before, after, hsplit, -, hnew, -⟩
        cases before with
        | nil => exact (List.cons.inj hsplit).1
        | cons b before =>
          -- the first name was seen, so it cannot stand before the offence
          exact absurd ((List.cons.inj hsplit).1 ▸ h) (hnew b (by simp))
    · simp only [List.contains_eq_mem, h, decide_false, Bool.false_eq_true, if_false, ih,
        List.map_cons]
      constructor
      · rintro ⟨before, after, hsplit, hdistinct, hnew, hname⟩
        refine ⟨t.name :: before, after, by rw [hsplit, List.cons_append], ?_, ?_, ?_⟩
        · exact List.nodup_cons.2 ⟨fun hmem => hnew _ hmem (by simp), hdistinct⟩
        · exact List.forall_mem_cons.2 ⟨h, fun x hx hseen => hnew x hx (by simp [hseen])⟩
        · simpa [or_left_comm, or_assoc] using hname
      · rintro ⟨before, after, hsplit, hdistinct, hnew, hname⟩
        cases before with
        | nil =>
          obtain ⟨rfl, -⟩ := List.cons.inj hsplit
          exact absurd (by simpa using hname) h
        | cons b before =>
          obtain ⟨rfl, hrest⟩ := List.cons.inj hsplit
          obtain ⟨hfresh, hdistinct⟩ := List.nodup_cons.1 hdistinct
          refine ⟨before, after, hrest, hdistinct, fun x hx => ?_, ?_⟩
          · rw [List.mem_cons, not_or]
            exact ⟨fun hxt => hfresh (hxt ▸ hx), hnew x (by simp [hx])⟩
          · simpa [or_left_comm, or_assoc] using hname

/-- Building the table fails for the first name that occurred before. -/
lemma firstRepeated_eq_some_iff {traits : List Trait} {name : String} :
    TraitTable.firstRepeated [] traits = some name ↔ IsFirstRepeat (traits.map (·.name)) name := by
  simp [firstRepeated_eq_some_iff_of_seen, IsFirstRepeat]

/-! ## Uses -/

/-- Fails for a name that no trait has. -/
def checkUse (traits : List Trait) (name : String) : Except TraitError Unit :=
  if name ∈ traits.map (·.name) then pure () else throw (.unknown name)

/-- Fails for the first name that no trait has. -/
def checkUses (traits : List Trait) (names : List String) : Except TraitError Unit :=
  forM names (checkUse traits)

/-- The loop over uses stops at the first name that is not declared. -/
lemma checkUses_eq {traits : List Trait} (names : List String) :
    checkUses traits names =
      (names.find? fun name => name ∉ traits.map (·.name)).elim (.ok ()) fun name =>
        .error (.unknown name) := by
  unfold checkUses
  induction names with
  | nil => rfl
  | cons name rest ih =>
    rw [List.forM_cons, ih, checkUse]
    by_cases h : name ∈ traits.map (·.name)
    · rw [if_pos h, List.find?_cons_of_neg (by simpa using h)]
      rfl
    · rw [if_neg h, List.find?_cons_of_pos (by simpa using h)]
      rfl

lemma checkUses_of_forall_mem {traits : List Trait} {names : List String}
    (h : ∀ name ∈ names, name ∈ traits.map (·.name)) : checkUses traits names = .ok () := by
  have hnone : (names.find? fun name => name ∉ traits.map (·.name)) = none := by simpa using h
  rw [checkUses_eq, hnone]
  rfl

end ResourceStubs
