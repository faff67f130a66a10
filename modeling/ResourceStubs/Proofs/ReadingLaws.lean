import ResourceStubs.Json.Encoding
import ResourceStubs.Proofs.Arguments
import ResourceStubs.UnitShape

/-!
# What makes a format read units back

The shape of a unit is written once for all formats, so that it is read back need also be proved
only once. A format has to say when a reader gives a value back from the tree of JSON values it was
written as, and this relation has to follow the combinators of the shape (`ReadingLaws`). From these
laws one lemma per type leads up to whole units (`ReadingLaws.reads_compilationUnit`).

Readers of recursive shapes are built from readers that may go less deep. The relation therefore has
a bound on nesting: every list, record and choice around a reader raises it by one, and a recursive
shape is read back at all bounds if each of its levels is, given the next one for a bound less.
-/

namespace ResourceStubs

open Json (Value)

/-! ## Records -/

/-- Slots that all have a value. -/
def filled : {αs : List Type} → Row αs → Slots αs
  | [], _ => ()
  | _ :: _, (a, row) => (some a, filled row)

section Records

variable {R : Type → Type} {αs : List Type}

lemma close_filled (fields : Fields R αs) (row : Row αs) : fields.close (filled row) = .ok row := by
  induction fields with
  | nil => rfl
  | cons field fields ih =>
    obtain ⟨a, row⟩ := row
    rw [filled, Fields.close]
    dsimp only [Option.some_or]
    rw [ih]
    rfl

/-- The members are those of the record in order, and they stand for the values of the row. -/
def Fields.Describes (Reads : {α : Type} → R α → Value → α → Prop) :
    {αs : List Type} → Fields R αs → List (String × Value) → Row αs → Prop
  | _, .nil, [], _ => True
  | _, .cons field fields, (key, v) :: more, (a, row) =>
    key = field.name ∧ Reads field.read v a ∧ key ∉ more.map (·.1) ∧ fields.Describes Reads more row
  | _, _, _, _ => False

/-- The members fill slots one after the other. -/
inductive FillsAll (Fills : String × Value → Slots αs → Slots αs → Prop) :
    List (String × Value) → Slots αs → Slots αs → Prop where
  | nil (slots : Slots αs) : FillsAll Fills [] slots slots
  | cons {m : String × Value} {more : List (String × Value)} {slots slots' slots'' : Slots αs}
      (first : Fills m slots slots') (later : FillsAll Fills more slots' slots'') :
      FillsAll Fills (m :: more) slots slots''

/-- A relation that says how the member of one name fills one slot. -/
structure FillsByName (Reads : {α : Type} → R α → Value → α → Prop)
    (Fills : {αs : List Type} → Fields R αs → String × Value → Slots αs → Slots αs → Prop) :
    Prop where
  here {α : Type} {αs : List Type} {field : RecordField R α} {fields : Fields R αs} {v : Value}
    {a : α} :
    Reads field.read v a →
    ∀ slots, Fills (.cons field fields) (field.name, v) (none, slots) (some a, slots)
  later {α : Type} {αs : List Type} {field : RecordField R α} {fields : Fields R αs}
    {m : String × Value}
    {slots slots' : Slots αs} :
    Fills fields m slots slots' → m.1 ≠ field.name →
    ∀ slot, Fills (.cons field fields) m (slot, slots) (slot, slots')

variable {Reads : {α : Type} → R α → Value → α → Prop}
  {Fills : {αs : List Type} → Fields R αs → String × Value → Slots αs → Slots αs → Prop}

lemma FillsAll.later {α : Type} {field : RecordField R α} {fields : Fields R αs}
    {ms : List (String × Value)} {slots slots' : Slots αs}
    (h : FillsAll (Fills fields) ms slots slots') (hfills : FillsByName Reads Fills)
    (hname : ∀ m ∈ ms, m.1 ≠ field.name) (slot : Option α) :
    FillsAll (Fills (.cons field fields)) ms (slot, slots) (slot, slots') := by
  induction h with
  | nil slots => exact .nil _
  | cons first later ih =>
    refine .cons (hfills.later first (hname _ List.mem_cons_self) slot) (ih fun m hm => ?_)
    exact hname m (List.mem_cons_of_mem _ hm)

/-- The members of a record fill all of its slots. -/
lemma Fields.Describes.fillsAll {fields : Fields R αs} {ms : List (String × Value)} {row : Row αs}
    (h : fields.Describes Reads ms row) (hfills : FillsByName Reads Fills) :
    FillsAll (Fills fields) ms (Slots.empty αs) (filled row) := by
  induction fields generalizing ms with
  | nil =>
    cases ms with
    | nil => exact .nil _
    | cons m more => cases h
  | cons field fields ih =>
    cases ms with
    | nil => cases h
    | cons m more =>
      obtain ⟨key, v⟩ := m
      obtain ⟨a, row⟩ := row
      obtain ⟨rfl, hvalue, hkeys, hmore⟩ := h
      have hname : ∀ m ∈ more, m.1 ≠ field.name := by
        intro m hm hname
        exact hkeys (hname ▸ List.mem_map_of_mem hm)
      exact .cons (hfills.here hvalue _) ((ih hmore).later hfills hname (some a))

end Records

/-! ## Laws -/

/-- The relation between readers, written values and what is read follows the combinators of the
format. -/
structure ReadingLaws (R : Type → Type) [Format R]
    (Reads : {α : Type} → Nat → R α → Value → α → Prop) : Prop where
  mono {α : Type} {bound bound' : Nat} {reader : R α} {v : Value} {a : α} :
    bound ≤ bound' → Reads bound' reader v a → Reads bound reader v a
  map {α β : Type} {bound : Nat} {reader : R α} {v : Value} {a : α} (f : α → β) :
    Reads bound reader v a → Reads bound (Format.map f reader) v (f a)
  string (bound : Nat) (text : String) : Reads bound Format.string (.string text) text
  bool (bound : Nat) (b : Bool) : Reads bound Format.bool (.bool b) b
  int32 (bound : Nat) (n : Int32) : Reads bound Format.int32 (.int n.toInt) n
  args (bound : Nat) (m : ArgMap) : Reads bound Format.args m.toJson m
  nullable_none {α : Type} (bound : Nat) (reader : R α) :
    Reads bound (Format.nullable reader) .null none
  nullable_some {α : Type} {bound : Nat} {reader : R α} {v : Value} {a : α} :
    v ≠ .null → Reads bound reader v a → Reads bound (Format.nullable reader) v (some a)
  list {α : Type} {bound : Nat} {reader : R α} {encode : α → Value} {as : List α} :
    (∀ a ∈ as, Reads bound reader (encode a) a) →
      Reads (bound + 1) (Format.list reader) (.array (as.map encode)) as
  record {αs : List Type} {bound : Nat} {fields : Fields R αs} {ms : List (String × Value)}
    {row : Row αs} (name : String) :
    fields.Describes (Reads bound) ms row →
      Reads (bound + 1) (Format.record name fields) (.object ms) row
  choice {α : Type} {bound : Nat} {cases : List (String × Case R α)} {name : String} {reader : R α}
    {v : Value} {a : α} :
    cases.lookup name = some (.value reader) ∨ cases.lookup name = some (.body reader) →
      Reads bound reader v a →
      Reads (bound + 1) (Format.choice cases) (.object [(name, v)]) a
  bareChoice {α : Type} {cases : List (String × Case R α)} {name : String} {a : α} :
    cases.lookup name = some (.bare a) → ∀ bound, Reads bound (Format.choice cases) (.string name) a
  recursive {α : Type} {shape : R α → R α} (encode : α → Value) :
    (∀ bound reader, (∀ a, Reads bound reader (encode a) a) →
      ∀ a, Reads (bound + 1) (shape reader) (encode a) a) →
      ∀ bound a, Reads bound (Format.recursive shape) (encode a) a

/-! ## The parts of a unit -/

lemma TypeRef.toJson_ne_null (t : TypeRef) : t.toJson ≠ .null := by
  cases t <;> rw [TypeRef.toJson] <;> exact Value.noConfusion

lemma Json.Value.string_ne_null (text : String) : Value.string text ≠ .null := Value.noConfusion

lemma TypeRef.toJsonList_eq_map (types : List TypeRef) :
    TypeRef.toJsonList types = types.map TypeRef.toJson := by
  induction types with
  | nil => rw [TypeRef.toJsonList, List.map_nil]
  | cons t types ih => rw [TypeRef.toJsonList, ih, List.map_cons]

lemma Content.toJsonList_eq_map (items : List Content) :
    Content.toJsonList items = items.map Content.toJson := by
  induction items with
  | nil => rw [Content.toJsonList, List.map_nil]
  | cons item items ih => rw [Content.toJsonList, ih, List.map_cons]

namespace ReadingLaws

variable {R : Type → Type} [Format R] {Reads : {α : Type} → Nat → R α → Value → α → Prop}
  (laws : ReadingLaws R Reads)

include laws

lemma reads_array {α : Type} {bound : Nat} {reader : R α} {encode : α → Value}
    (h : ∀ a, Reads bound reader (encode a) a) (as : List α) :
    Reads bound (Format.list reader) (.array (as.map encode)) as :=
  laws.mono (Nat.le_succ bound) (laws.list fun a _ => h a)

lemma reads_ofOption {α : Type} {bound : Nat} {reader : R α} {encode : α → Value}
    (hne : ∀ a, encode a ≠ .null) (h : ∀ a, Reads bound reader (encode a) a) (o : Option α) :
    Reads bound (Format.nullable reader) (.ofOption encode o) o := by
  cases o with
  | none => exact laws.nullable_none bound reader
  | some a => exact laws.nullable_some (hne a) (h a)

/-- A record is read back when its members are, and what is made of its row with it. -/
lemma reads_struct {α : Type} {αs : List Type} {bound : Nat} {name : String} {fields : Fields R αs}
    {ms : List (String × Value)} {f : Row αs → α} {a : α} (row : Row αs) (ha : f row = a)
    (h : fields.Describes (Reads bound) ms row) :
    Reads (bound + 1) (Format.map f (Format.record name fields)) (.object ms) a :=
  ha ▸ laws.map f (laws.record name h)

lemma reads_typeRef (bound : Nat) (t : TypeRef) : Reads bound UnitShape.typeRef t.toJson t := by
  unfold UnitShape.typeRef
  -- the bound grows by at least one bracket per level, and no more than that is kept
  refine laws.recursive TypeRef.toJson (fun bound reader h t => ?_) bound t
  cases t with
  | simple name =>
    rw [TypeRef.toJson]
    exact laws.choice (.inl rfl) (laws.map TypeRef.simple (laws.string bound name))
  | generic raw args =>
    rw [TypeRef.toJson, TypeRef.toJsonList_eq_map]
    refine laws.choice (.inr rfl)
      (laws.mono (Nat.le_succ bound) (laws.reads_struct (raw, args, ()) rfl ?_))
    exact ⟨rfl, laws.string bound raw, by simp, rfl, laws.reads_array h args, by simp, trivial⟩
  | array of =>
    rw [TypeRef.toJson]
    exact laws.choice (.inl rfl) (laws.map TypeRef.array (h of))
  | anything plus =>
    rw [TypeRef.toJson]
    refine laws.choice (.inr rfl)
      (laws.mono (Nat.le_succ bound) (laws.reads_struct (none, plus, ()) rfl ?_))
    exact ⟨rfl, laws.nullable_none bound reader, by simp, rfl, laws.bool bound plus, by simp,
      trivial⟩
  | bounded plus of =>
    have hof : Reads bound (Format.nullable reader) of.toJson (some of) :=
      laws.nullable_some of.toJson_ne_null (h of)
    rw [TypeRef.toJson]
    refine laws.choice (.inr rfl)
      (laws.mono (Nat.le_succ bound) (laws.reads_struct (some of, plus, ()) rfl ?_))
    exact ⟨rfl, hof, by simp, rfl, laws.bool bound plus, by simp, trivial⟩

lemma reads_verb (bound : Nat) (v : Verb) : Reads bound UnitShape.verb (.string v.text) v := by
  cases v <;> exact laws.bareChoice rfl bound

lemma reads_annotationEntry (bound : Nat) (a : Annotation) :
    Reads bound UnitShape.annotationEntry a.toJson a := by
  refine laws.mono (Nat.le_succ bound) (laws.reads_struct (a.name, a.args, ()) rfl ?_)
  exact ⟨rfl, laws.string bound a.name, by simp, rfl, laws.args bound a.args, by simp, trivial⟩

lemma reads_param (bound : Nat) (p : Param) : Reads bound UnitShape.param p.toJson p := by
  refine laws.mono (Nat.le_succ bound) (laws.reads_struct (p.name, p.type, p.optional, ()) rfl ?_)
  exact ⟨rfl, laws.string bound p.name, by simp, rfl, laws.reads_typeRef bound p.type, by simp, rfl,
    laws.bool bound p.optional, by simp, trivial⟩

lemma reads_modifier (bound : Nat) (m : Modifier) : Reads bound UnitShape.modifier m.toJson m := by
  cases m with
  | expects type =>
    have htype := laws.map Modifier.expects (laws.reads_typeRef bound type)
    exact laws.mono (Nat.le_succ bound) (laws.choice (.inl rfl) htype)
  | status code =>
    exact laws.mono (Nat.le_succ bound)
      (laws.choice (.inl rfl) (laws.map Modifier.status (laws.int32 bound code)))
  | secure role =>
    exact laws.mono (Nat.le_succ bound)
      (laws.choice (.inl rfl) (laws.map Modifier.secure (laws.string bound role)))
  | tx => exact laws.bareChoice rfl bound

lemma reads_endpoint (bound : Nat) (e : Endpoint) : Reads bound UnitShape.endpoint e.toJson e := by
  have hpaths := laws.reads_array (laws.string bound) e.paths
  have hannotations := laws.reads_array (laws.reads_annotationEntry bound) e.annotations
  have hparams := laws.reads_array (laws.reads_param bound) e.params
  have hmodifiers := laws.reads_array (laws.reads_modifier bound) e.modifiers
  have hreturns := laws.reads_ofOption TypeRef.toJson_ne_null (laws.reads_typeRef bound) e.returns
  refine laws.mono (Nat.le_succ bound) (laws.reads_struct
    (e.verb, e.paths, e.annotations, e.params, e.modifiers, e.returns, e.overriding, ()) rfl ?_)
  exact ⟨rfl, laws.reads_verb bound e.verb, by simp, rfl, hpaths, by simp, rfl, hannotations,
    by simp, rfl, hparams,
    by simp, rfl, hmodifiers, by simp, rfl, hreturns, by simp, rfl, laws.bool bound e.overriding,
    by simp, trivial⟩

lemma reads_traitUse (bound : Nat) (name : String) :
    Reads bound UnitShape.traitUse (.object [("name", .string name)]) name := by
  refine laws.mono (Nat.le_succ bound) (laws.reads_struct (name, ()) rfl ?_)
  exact ⟨rfl, laws.string bound name, by simp, trivial⟩

lemma reads_resource (bound : Nat) (r : Resource) : Reads bound UnitShape.resource r.toJson r := by
  unfold UnitShape.resource
  refine laws.recursive Resource.toJson (fun bound nested h r => ?_) bound r
  obtain ⟨path, annotations, params, content⟩ := r
  have hannotations := laws.reads_array (laws.reads_annotationEntry bound) annotations
  have hparams := laws.reads_array (laws.reads_param bound) params
  rw [Resource.toJson, Content.toJsonList_eq_map]
  refine laws.reads_struct (path, annotations, params, content, ()) rfl ?_
  refine ⟨rfl, laws.string bound path, by simp, rfl, hannotations, by simp, rfl, hparams,
    by simp, rfl, laws.reads_array (fun item => laws.mono (Nat.le_succ bound) ?_) content, by simp,
    trivial⟩
  cases item with
  | endpoint e =>
    rw [Content.toJson]
    exact laws.choice (.inl rfl) (laws.map Content.endpoint (laws.reads_endpoint bound e))
  | resource r =>
    rw [Content.toJson]
    exact laws.choice (.inl rfl) (laws.map Content.resource (h r))
  | use name =>
    rw [Content.toJson]
    exact laws.choice (.inl rfl) (laws.map Content.use (laws.reads_traitUse bound name))

lemma reads_traitMember (bound : Nat) (m : TraitMember) :
    Reads bound UnitShape.traitMember m.toJson m := by
  refine laws.mono (Nat.le_succ bound) (laws.reads_struct (m.endpoint, m.overriding, ()) rfl ?_)
  exact ⟨rfl, laws.reads_endpoint bound m.endpoint, by simp, rfl, laws.bool bound m.overriding,
    by simp, trivial⟩

lemma reads_traitDeclaration (bound : Nat) (t : Trait) :
    Reads bound UnitShape.traitDeclaration t.toJson t := by
  have hgenerics := laws.reads_array (laws.string bound) t.generics
  have hmembers := laws.reads_array (laws.reads_traitMember bound) t.members
  have hdoc := laws.reads_ofOption Value.string_ne_null (laws.string bound) t.doc
  refine laws.mono (Nat.le_succ bound)
    (laws.reads_struct (t.name, t.generics, t.members, t.doc, ()) rfl ?_)
  exact ⟨rfl, laws.string bound t.name, by simp, rfl, hgenerics, by simp, rfl, hmembers, by simp,
    rfl, hdoc,
    by simp, trivial⟩

lemma reads_compilationUnit (bound : Nat) (u : CompilationUnit) :
    Reads bound UnitShape.compilationUnit u.toJson u := by
  have hpackage := laws.reads_ofOption Value.string_ne_null (laws.string bound) u.package
  have himports := laws.reads_array (laws.string bound) u.imports
  have htraits := laws.reads_array (laws.reads_traitDeclaration bound) u.traits
  have hresources := laws.reads_array (laws.reads_resource bound) u.resources
  refine laws.mono (Nat.le_succ bound)
    (laws.reads_struct (u.package, u.imports, u.traits, u.resources, ()) rfl ?_)
  exact ⟨rfl, hpackage, by simp, rfl, himports, by simp, rfl, htraits, by simp, rfl, hresources,
    by simp, trivial⟩

end ReadingLaws

end ResourceStubs
