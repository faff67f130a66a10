import Mathlib.Data.List.Nodup
import Mathlib.Data.List.Perm.Basic
import ResourceStubs.Proofs.Json.Grammar

/-!
# Edits that keep what a document says

The places of a document at which a unit can be edited without changing it. What a place holds is
its kind: a structure, a list, a choice and so on (`Json.Kind`). The kinds of the parts of a unit
are given by tables, which also say which members of a structure may be left out and which value
then takes their place (`Json.Struct.fields`, `Json.Choice.caseKind`).

An edit changes one place (`Json.Edit`). It rearranges the members of a structure or the arguments
of an annotation, or it adds or removes a member that says nothing: one that the structure does not
have, or one with its default value.

The value of a member that a structure does not have can be anything, nested to any depth. The
nesting of a document is therefore counted outside of such values (`Json.Kind.nesting`).
-/

namespace ResourceStubs.Json

/-! ## What stands where -/

/-- The structures of a unit. -/
inductive Struct where
  | unit
  | trait
  | traitMember
  | resource
  | traitUse
  | endpoint
  | param
  | annotationEntry
  | generic
  | wild
  deriving DecidableEq

/-- The choices between named cases in a unit. -/
inductive Choice where
  | verb
  | type
  | modifier
  | content
  deriving DecidableEq

/-- What a place of a document holds. -/
inductive Kind where
  /-- A single value. -/
  | leaf
  /-- The arguments of an annotation. -/
  | args
  /-- A list of things of one kind. -/
  | list (item : Kind)
  /-- A structure. -/
  | struct (s : Struct)
  /-- A choice between named cases. -/
  | choice (c : Choice)
  deriving DecidableEq

/-- What a member that is left out stands for. -/
inductive Default where
  | null
  | false
  | emptyList
  | emptyMap
  deriving DecidableEq

/-- The tree is the default. -/
def Default.Is : Default → Tree → Prop
  | null, t => t = .null
  | false, t => t = .bool Bool.false
  | emptyList, t => t = .array []
  | emptyMap, t => t = .object []

/-- A member of a structure. -/
structure StructField where
  /-- The key. -/
  name : String
  /-- What its value is. -/
  kind : Kind
  /-- What it stands for when it is left out; none if it must be there. -/
  default : Option Default
  deriving DecidableEq

/-- A member that must be there. -/
def StructField.needed (name : String) (kind : Kind) : StructField := ⟨name, kind, none⟩

/-- A member that may be null. -/
def StructField.nullable (name : String) (kind : Kind) : StructField := ⟨name, kind, some .null⟩

/-- A member that is true or false. -/
def StructField.flag (name : String) : StructField := ⟨name, .leaf, some .false⟩

/-- A member with a list that may be empty. -/
def StructField.items (name : String) (item : Kind) : StructField :=
  ⟨name, .list item, some .emptyList⟩

/-- The members of each structure. -/
def Struct.fields : Struct → List StructField
  | unit => [.nullable "package" .leaf, .items "imports" .leaf, .items "traits" (.struct .trait),
      .items "resources" (.struct .resource)]
  | trait =>
    [.needed "name" .leaf, .items "generics" .leaf, .items "members" (.struct .traitMember),
      .nullable "doc" .leaf]
  | traitMember => [.needed "endpoint" (.struct .endpoint), .flag "override"]
  | resource => [.needed "path" .leaf, .items "annotations" (.struct .annotationEntry),
      .items "params" (.struct .param), .items "content" (.choice .content)]
  | traitUse => [.needed "name" .leaf]
  | endpoint => [.needed "verb" (.choice .verb), .needed "paths" (.list .leaf),
      .items "annotations" (.struct .annotationEntry), .items "params" (.struct .param),
      .items "modifiers" (.choice .modifier), .nullable "returns" (.choice .type), .flag "override"]
  | param => [.needed "name" .leaf, .needed "type" (.choice .type), .flag "optional"]
  | annotationEntry => [.needed "name" .leaf, ⟨"args", .args, some .emptyMap⟩]
  | generic => [.needed "raw" .leaf, .needed "args" (.list (.choice .type))]
  | wild => [.nullable "bound" (.choice .type), .flag "plus"]

/-- The cases of each choice whose data has places of its own. -/
def Choice.cases : Choice → List (String × Kind)
  | verb => []
  | type => [("generic", .struct .generic), ("array", .choice .type), ("wild", .struct .wild)]
  | modifier => [("expects", .choice .type)]
  | content =>
    [("endpoint", .struct .endpoint), ("resource", .struct .resource), ("use", .struct .traitUse)]

/-- The data of a case. -/
def Choice.caseKind (c : Choice) (name : String) : Kind :=
  (c.cases.lookup name).getD .leaf

/-- What an item of a list holds. A structure can be written as the list of its members. -/
def Kind.item : Kind → Nat → Kind
  | list item, _ => item
  | struct s, i => (s.fields[i]?.map (·.kind)).getD leaf
  | _, _ => leaf

/-- What the member of an object holds; none for a member that a structure does not have. -/
def Kind.member : Kind → String → Option Kind
  | struct s, name => (s.fields.find? (·.name = name)).map (·.kind)
  | choice c, name => some (c.caseKind name)
  | _, _ => some leaf

/-! ## Nesting -/

mutual

/-- How deeply lists and objects are nested, outside the values of members that no structure has. -/
def Kind.nesting (k : Kind) : Tree → Nat
  | .array items => k.itemNesting 0 items + 1
  | .object members => k.memberNesting members + 1
  | _ => 0

/-- The nesting of the items of a list, from an index on. -/
def Kind.itemNesting (k : Kind) (i : Nat) : List Tree → Nat
  | [] => 0
  | t :: items => max ((k.item i).nesting t) (k.itemNesting (i + 1) items)

/-- The nesting of the members of an object. -/
def Kind.memberNesting (k : Kind) : List (List Part × Tree) → Nat
  | [] => 0
  | (key, t) :: members =>
    match (keyText key).bind k.member with
    | some inner => max (inner.nesting t) (k.memberNesting members)
    | none => k.memberNesting members

end

/-! ## Edits -/

/-- The key stands for a text that is not the name of a member of the structure. -/
def Struct.Unknown (s : Struct) (key : List Part) : Prop :=
  ∃ name, keyText key = some name ∧ ∀ f ∈ s.fields, f.name ≠ name

/-- The member has its default value. -/
def Struct.Defaulted (s : Struct) (key : List Part) (t : Tree) : Prop :=
  ∃ f ∈ s.fields, keyText key = some f.name ∧ ∃ d ∈ f.default, d.Is t

/-- One change of a tree at a place of the given kind. -/
inductive Edit : Kind → Tree → Tree → Prop where
  /-- The members of a structure are rearranged. -/
  | rearrange {s : Struct} {members members' : List (List Part × Tree)}
      (h : members.Perm members') :
      Edit (.struct s) (.object members) (.object members')
  /-- The arguments of an annotation are rearranged. -/
  | rearrangeArgs {members members' : List (List Part × Tree)}
      (hkeys : (members.map fun m => keyText m.1).Nodup) (h : members.Perm members') :
      Edit .args (.object members) (.object members')
  /-- A member is added that the structure does not have. -/
  | addUnknown {s : Struct} {before after : List (List Part × Tree)} {key : List Part} (t : Tree)
      (h : s.Unknown key) :
      Edit (.struct s) (.object (before ++ after)) (.object (before ++ (key, t) :: after))
  /-- A member is removed that the structure does not have. -/
  | removeUnknown {s : Struct} {before after : List (List Part × Tree)} {key : List Part} (t : Tree)
      (h : s.Unknown key) :
      Edit (.struct s) (.object (before ++ (key, t) :: after)) (.object (before ++ after))
  /-- A member that was left out is added with its default value. -/
  | addDefault {s : Struct} {before after : List (List Part × Tree)} {key : List Part} {t : Tree}
      (h : s.Defaulted key t) (habsent : ∀ m ∈ before ++ after, keyText m.1 ≠ keyText key) :
      Edit (.struct s) (.object (before ++ after)) (.object (before ++ (key, t) :: after))
  /-- A member with its default value is removed. -/
  | removeDefault {s : Struct} {before after : List (List Part × Tree)} {key : List Part} {t : Tree}
      (h : s.Defaulted key t) :
      Edit (.struct s) (.object (before ++ (key, t) :: after)) (.object (before ++ after))
  /-- An item of a list is edited. -/
  | inItem {k : Kind} {before after : List Tree} {t t' : Tree}
      (h : Edit (k.item before.length) t t') :
      Edit k (.array (before ++ t :: after)) (.array (before ++ t' :: after))
  /-- The value of a member is edited. -/
  | inMember {k inner : Kind} {before after : List (List Part × Tree)} {key : List Part}
      {name : String} {t t' : Tree} (hname : keyText key = some name)
      (hinner : k.member name = some inner) (h : Edit inner t t') :
      Edit k (.object (before ++ (key, t) :: after)) (.object (before ++ (key, t') :: after))

/-- The tree is edited at most once. -/
def Variant (k : Kind) (t t' : Tree) : Prop :=
  t' = t ∨ Edit k t t'

/-! ## Tables -/

lemma Struct.nodup_names (s : Struct) : (s.fields.map (·.name)).Nodup := by
  cases s <;> decide

lemma Struct.eq_of_name_eq {s : Struct} {f g : StructField} (hf : f ∈ s.fields) (hg : g ∈ s.fields)
    (h : f.name = g.name) : f = g :=
  List.inj_on_of_nodup_map s.nodup_names hf hg h

lemma Kind.member_struct {s : Struct} {f : StructField} (hf : f ∈ s.fields) :
    (Kind.struct s).member f.name = some f.kind := by
  cases hfind : s.fields.find? (·.name = f.name) with
  | none =>
    have hne := List.find?_eq_none.1 hfind f hf
    simp at hne
  | some g =>
    have hname : g.name = f.name := by simpa using List.find?_some hfind
    obtain rfl := Struct.eq_of_name_eq (List.mem_of_find?_eq_some hfind) hf hname
    rw [Kind.member, hfind]
    rfl

section Keys

variable {s : Struct} {key : List Part}

lemma Struct.Unknown.isSome (h : s.Unknown key) : (keyText key).isSome := by
  obtain ⟨name, hname, -⟩ := h
  rw [hname, Option.isSome_some]

lemma Struct.Unknown.ne_name (h : s.Unknown key) {f : StructField} (hf : f ∈ s.fields) :
    keyText key ≠ some f.name := by
  obtain ⟨name, hname, hunknown⟩ := h
  exact fun hkey => hunknown f hf (Option.some.inj (hkey.symm.trans hname))

lemma Struct.Defaulted.isSome {t : Tree} (h : s.Defaulted key t) : (keyText key).isSome := by
  obtain ⟨f, -, hname, -⟩ := h
  rw [hname, Option.isSome_some]

lemma Struct.Defaulted.exists_default {t : Tree} (h : s.Defaulted key t) {f : StructField}
    (hf : f ∈ s.fields) (hkey : keyText key = some f.name) : ∃ d ∈ f.default, d.Is t := by
  obtain ⟨g, hg, hname, hdefault⟩ := h
  obtain rfl : f = g := Struct.eq_of_name_eq hf hg (Option.some.inj (hkey.symm.trans hname))
  exact hdefault

end Keys

/-! ## What an edit does -/

variable {k : Kind} {t t' : Tree}

lemma not_edit_leaf : ¬Edit .leaf t t' := by
  intro h
  generalize hk : Kind.leaf = k at h
  induction h with
  | inItem h ih => exact ih (by rw [← hk]; rfl)
  | inMember hname hinner h ih =>
    rw [← hk] at hinner
    exact ih (Option.some.inj hinner)
  | _ => cases hk

lemma Variant.eq_of_leaf (h : Variant .leaf t t') : t' = t :=
  h.resolve_right not_edit_leaf

lemma append_cons_eq_singleton_iff {α : Type} {before after : List α} {a b : α} :
    before ++ a :: after = [b] ↔ before = [] ∧ a = b ∧ after = [] := by
  cases before <;> simp

/-- Every item is edited at most once. -/
def ItemVariants (k : Kind) : Nat → List Tree → List Tree → Prop
  | _, [], [] => True
  | i, t :: items, t' :: items' => Variant (k.item i) t t' ∧ ItemVariants k (i + 1) items items'
  | _, _, _ => False

lemma itemVariants_refl (k : Kind) (i : Nat) (items : List Tree) :
    ItemVariants k i items items := by
  induction items generalizing i with
  | nil => trivial
  | cons t items ih => exact ⟨.inl rfl, ih (i + 1)⟩

lemma itemVariants_of_edit {before after : List Tree} {i : Nat}
    (h : Edit (k.item (i + before.length)) t t') :
    ItemVariants k i (before ++ t :: after) (before ++ t' :: after) := by
  induction before generalizing i with
  | nil => exact ⟨.inr h, itemVariants_refl k (i + 1) after⟩
  | cons first before ih =>
    rw [List.length_cons, ← Nat.add_assoc, Nat.add_right_comm] at h
    exact ⟨.inl rfl, ih h⟩

lemma Variant.array {items : List Tree} (h : Variant k (.array items) t') :
    ∃ items', t' = .array items' ∧ ItemVariants k 0 items items' := by
  rcases h with rfl | h
  · exact ⟨items, rfl, itemVariants_refl k 0 items⟩
  · cases h with
    | inItem h =>
      rw [← Nat.zero_add (List.length _)] at h
      exact ⟨_, rfl, itemVariants_of_edit h⟩

/-- The arguments of an annotation are rearranged at most. -/
lemma Variant.args {members : List (List Part × Tree)} (h : Variant .args (.object members) t') :
    ∃ members', t' = .object members' ∧
      (members' = members ∨ (members.map fun m => keyText m.1).Nodup ∧ members.Perm members') := by
  rcases h with rfl | h
  · exact ⟨members, rfl, .inl rfl⟩
  · cases h with
    | rearrangeArgs hkeys h => exact ⟨_, rfl, .inr ⟨hkeys, h⟩⟩
    | inMember hname hinner h =>
      cases hinner
      exact absurd h not_edit_leaf

/-- The data of a case is edited at most once. -/
lemma Variant.choice {c : Choice} {key : List Part}
    (h : Variant (.choice c) (.object [(key, t)]) t') :
    ∃ u, t' = .object [(key, u)] ∧ ∀ name, keyText key = some name →
      Variant (c.caseKind name) t u := by
  rcases h with rfl | h
  · exact ⟨t, rfl, fun _ _ => .inl rfl⟩
  · generalize hsingle : [(key, t)] = members at h
    cases h with
    | inMember hname hinner h =>
      obtain ⟨rfl, hmember, rfl⟩ := append_cons_eq_singleton_iff.1 hsingle.symm
      obtain ⟨rfl, rfl⟩ := Prod.mk.inj hmember
      cases hinner
      refine ⟨_, rfl, fun name hkey => .inr ?_⟩
      cases hname.symm.trans hkey
      exact h

/-! ### Members of a structure -/

/-- The values of the members with the given key. -/
def valuesOf (name : String) (members : List (List Part × Tree)) : List Tree :=
  (members.filter fun m => keyText m.1 = some name).map (·.2)

lemma valuesOf_append (name : String) (before after : List (List Part × Tree)) :
    valuesOf name (before ++ after) = valuesOf name before ++ valuesOf name after := by
  simp [valuesOf]

section Insertion

variable {name : String} {key : List Part} (t : Tree) (before after : List (List Part × Tree))

lemma valuesOf_insert_self (hkey : keyText key = some name) :
    valuesOf name (before ++ (key, t) :: after) =
      valuesOf name before ++ t :: valuesOf name after := by
  simp [valuesOf, hkey]

lemma valuesOf_insert_of_ne (hkey : keyText key ≠ some name) :
    valuesOf name (before ++ (key, t) :: after) = valuesOf name (before ++ after) := by
  simp [valuesOf, hkey]

lemma valuesOf_singleton_self (hkey : keyText key = some name) : valuesOf name [(key, t)] = [t] :=
  valuesOf_insert_self t [] [] hkey

lemma valuesOf_singleton_of_ne {other : String} (hkey : keyText key = some name)
    (hne : name ≠ other) :
    valuesOf other [(key, t)] = [] := by
  refine valuesOf_insert_of_ne t [] [] ?_
  rw [hkey]
  exact fun h => hne (Option.some.inj h)

lemma forall_mem_insert {P : List Part × Tree → Prop} {m : List Part × Tree} :
    (∀ m' ∈ before ++ m :: after, P m') ↔ P m ∧ ∀ m' ∈ before ++ after, P m' := by
  simp only [List.forall_mem_append, List.forall_mem_cons]
  tauto

end Insertion

/-- What an edit does to the values of a member: they are kept, edited, or replaced by nothing where
the default was, and the other way round. -/
structure FieldEdited (f : StructField) (values values' : List Tree) : Prop where
  of_nil : values = [] → values' = [] ∨ ∃ t, values' = [t] ∧ ∃ d ∈ f.default, d.Is t
  of_singleton : ∀ t, values = [t] →
    (∃ t', values' = [t'] ∧ Variant f.kind t t') ∨ values' = [] ∧ ∃ d ∈ f.default, d.Is t

/-- What an edit does to the members of a structure. -/
structure MembersEdited (s : Struct) (members members' : List (List Part × Tree)) : Prop where
  keys : (∀ m ∈ members, (keyText m.1).isSome) → ∀ m ∈ members', (keyText m.1).isSome
  values : ∀ f ∈ s.fields, FieldEdited f (valuesOf f.name members) (valuesOf f.name members')

lemma FieldEdited.refl (f : StructField) (values : List Tree) : FieldEdited f values values where
  of_nil := .inl
  of_singleton t h := .inl ⟨t, h, .inl rfl⟩

lemma fieldEdited_perm {f : StructField} {values values' : List Tree} (h : values.Perm values') :
    FieldEdited f values values' where
  of_nil hnil := .inl (by simpa [hnil] using h)
  of_singleton t ht := .inl ⟨t, by simpa [ht, eq_comm] using h, .inl rfl⟩

lemma fieldEdited_add {f : StructField} {d : Default} (hd : d ∈ f.default) (ht : d.Is t) :
    FieldEdited f [] [t] where
  of_nil _ := .inr ⟨t, rfl, d, hd, ht⟩
  of_singleton _ h := by cases h

lemma fieldEdited_remove {f : StructField} {d : Default} (hd : d ∈ f.default) (ht : d.Is t)
    (before after : List Tree) :
    FieldEdited f (before ++ t :: after) (before ++ after) where
  of_nil h := by simp at h
  of_singleton u h := by
    obtain ⟨rfl, rfl, rfl⟩ := append_cons_eq_singleton_iff.1 h
    exact .inr ⟨rfl, d, hd, ht⟩

lemma fieldEdited_inMember {f : StructField} (h : Edit f.kind t t') (before after : List Tree) :
    FieldEdited f (before ++ t :: after) (before ++ t' :: after) where
  of_nil h := by simp at h
  of_singleton u hu := by
    obtain ⟨rfl, rfl, rfl⟩ := append_cons_eq_singleton_iff.1 hu
    exact .inl ⟨t', rfl, .inr h⟩

/-- An edit of a structure, seen member by member. -/
lemma Variant.struct {s : Struct} {members : List (List Part × Tree)}
    (h : Variant (.struct s) (.object members) t') :
    ∃ members', t' = .object members' ∧ MembersEdited s members members' := by
  rcases h with rfl | h
  · exact ⟨members, rfl, fun h => h, fun f _ => .refl f _⟩
  · cases h with
    | rearrange h =>
      exact ⟨_, rfl, fun hkeys m hm => hkeys m (h.mem_iff.2 hm),
        fun f _ => fieldEdited_perm ((h.filter _).map _)⟩
    | addUnknown u h =>
      refine ⟨_, rfl, fun hkeys => (forall_mem_insert _ _).2 ⟨h.isSome, hkeys⟩, fun f hf => ?_⟩
      rw [valuesOf_insert_of_ne _ _ _ (h.ne_name hf)]
      exact .refl f _
    | removeUnknown u h =>
      refine ⟨_, rfl, fun hkeys => ((forall_mem_insert _ _).1 hkeys).2, fun f hf => ?_⟩
      rw [valuesOf_insert_of_ne _ _ _ (h.ne_name hf)]
      exact .refl f _
    | @addDefault _ before after key u h habsent =>
      refine ⟨_, rfl, fun hkeys => (forall_mem_insert _ _).2 ⟨h.isSome, hkeys⟩, fun f hf => ?_⟩
      by_cases hkey : keyText key = some f.name
      · obtain ⟨d, hd, hu⟩ := h.exists_default hf hkey
        have hnil : valuesOf f.name (before ++ after) = [] := by
          rw [valuesOf, List.filter_eq_nil_iff.2 fun m hm => by simpa [hkey] using habsent m hm,
            List.map_nil]
        obtain ⟨hbefore, hafter⟩ :=
          List.append_eq_nil_iff.1 ((valuesOf_append f.name before after).symm.trans hnil)
        rw [hnil, valuesOf_insert_self _ _ _ hkey, hbefore, hafter]
        exact fieldEdited_add hd hu
      · rw [valuesOf_insert_of_ne _ _ _ hkey]
        exact .refl f _
    | @removeDefault _ before after key u h =>
      refine ⟨_, rfl, fun hkeys => ((forall_mem_insert _ _).1 hkeys).2, fun f hf => ?_⟩
      by_cases hkey : keyText key = some f.name
      · obtain ⟨d, hd, hu⟩ := h.exists_default hf hkey
        rw [valuesOf_insert_self _ _ _ hkey, valuesOf_append]
        exact fieldEdited_remove hd hu _ _
      · rw [valuesOf_insert_of_ne _ _ _ hkey]
        exact .refl f _
    | @inMember _ inner before after key name u u' hname hinner h =>
      refine ⟨_, rfl, fun hkeys => (forall_mem_insert _ _).2 ((forall_mem_insert _ _).1 hkeys),
        fun f hf => ?_⟩
      by_cases hkey : keyText key = some f.name
      · obtain rfl : name = f.name := Option.some.inj (hname.symm.trans hkey)
        obtain rfl : inner = f.kind := Option.some.inj (hinner.symm.trans (Kind.member_struct hf))
        rw [valuesOf_insert_self _ _ _ hkey, valuesOf_insert_self _ _ _ hkey]
        exact fieldEdited_inMember h _ _
      · rw [valuesOf_insert_of_ne _ _ _ hkey, valuesOf_insert_of_ne _ _ _ hkey]
        exact .refl f _

/-- The values of a member of a structure count for its nesting. -/
lemma nesting_le_of_mem_valuesOf {inner : Kind} {name : String}
    (hinner : k.member name = some inner) {members : List (List Part × Tree)}
    (ht : t ∈ valuesOf name members) :
    inner.nesting t ≤ k.memberNesting members := by
  induction members with
  | nil => cases ht
  | cons m members ih =>
    obtain ⟨key, u⟩ := m
    rw [Kind.memberNesting]
    by_cases hkey : keyText key = some name
    · rw [hkey, Option.bind_some, hinner]
      rcases List.mem_cons.1 ((valuesOf_insert_self u [] members hkey) ▸ ht) with rfl | hmore
      · exact Nat.le_max_left _ _
      · exact Nat.le_trans (ih hmore) (Nat.le_max_right _ _)
    · have hmore := ih ((valuesOf_insert_of_ne u [] members hkey) ▸ ht)
      split
      · exact Nat.le_trans hmore (Nat.le_max_right _ _)
      · exact hmore

end ResourceStubs.Json
