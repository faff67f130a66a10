import Mathlib.Logic.Relation
import ResourceStubs.Loading
import ResourceStubs.Proofs.Json.StableRecords

/-!
# Documents that say the same thing

All readers of a unit are stable, from type references up to whole units. So a unit that was read
from a document is also read from every document that is reached by edits
(`CompilationUnit.ofJson_eq_of_edits`), whatever the white space of both.

Edits may go through documents that are nested too deeply to be read, such as when a default value
is added at the greatest depth and removed again. Each of them is still read with a higher limit,
and only the last one has to respect the limit of documents.
-/

namespace ResourceStubs

namespace Json

variable {α : Type} {k : Kind} {bound : Nat}

/-! ## Default values -/

lemma Reads.eq_of_seen {step : Read α} {t : Tree} {a b : α} (h : Reads step t a)
    (hseen : Seen step t b) : b = a := by
  obtain ⟨text, blank, rest, s, htext, hblank, hrest, hok⟩ := hseen
  cases hok.symm.trans (h htext hblank hrest)
  rfl

lemma defaultsTo_null (item : Reader α) : DefaultsTo k .null (nullable item) none := by
  rintro t rfl
  exact ⟨fun depth b hseen => (reads_null item depth).eq_of_seen hseen,
    fun depth _ => reads_null item depth⟩

lemma defaultsTo_false : DefaultsTo .leaf .false bool false := by
  rintro t rfl
  exact ⟨fun depth b hseen => (reads_bool depth false).eq_of_seen hseen,
    fun depth _ => reads_bool depth false⟩

/-- The default is an empty list or an empty object, which takes one level of nesting. -/
lemma defaultsTo_of_opened {d : Default} {reader : Reader α} {t : Tree} {a : α}
    (hd : ∀ u, d.Is u → u = t) (hnesting : k.nesting t ≠ 0) (hclosed : ∀ b, ¬Seen (reader 0) t b)
    (hreads : ∀ inner, Reads (reader (inner + 1)) t a) : DefaultsTo k d reader a := by
  intro u hu
  obtain rfl := hd u hu
  refine ⟨fun depth b hseen => ?_, fun depth hdepth => ?_⟩
  · cases depth with
    | zero => exact absurd hseen (hclosed b)
    | succ inner => exact (hreads inner).eq_of_seen hseen
  · cases depth with
    | zero => exact absurd (Nat.le_zero.1 hdepth) hnesting
    | succ inner => exact hreads inner

lemma defaultsTo_list (item : Reader α) : DefaultsTo (.list k) .emptyList (list item) [] := by
  refine defaultsTo_of_opened (fun _ hu => hu) (Nat.succ_ne_zero _) (fun b hseen => ?_)
    (fun _ => reads_list .nil)
  obtain ⟨_, _, _, _, ⟨_, -, rfl⟩, hblank, -, hok⟩ := hseen
  rw [list_blank item 0 hblank] at hok
  cases hok

lemma defaultsTo_args : DefaultsTo .args .emptyMap args ArgMap.empty := by
  refine defaultsTo_of_opened (fun _ hu => hu) (Nat.succ_ne_zero _) (fun b hseen => ?_)
    (fun _ => reads_args .nil)
  obtain ⟨_, _, _, _, ⟨_, -, rfl⟩, hblank, -, hok⟩ := hseen
  rw [args_blank 0 hblank] at hok
  cases hok

/-! ## Members and cases -/

section Fields

variable {reader reader' : Reader α} (name : String)

lemma Stable.needed (h : Stable k bound reader reader') :
    FieldStable bound (.needed name k) (.required name reader) (.required name reader') where
  name := rfl
  name' := rfl
  absent := rfl
  stable := h
  default _ hd := by cases hd

lemma Stable.withDefault {f : StructField} (hname : f.name = name) {d : Default}
    (hd : f.default = some d) {a : α} (h : Stable f.kind bound reader reader')
    (hdefault : DefaultsTo f.kind d reader a) (hdefault' : DefaultsTo f.kind d reader' a) :
    FieldStable bound f (.withDefault name reader a) (.withDefault name reader' a) where
  name := hname.symm
  name' := hname.symm
  absent := rfl
  stable := h
  default d' hd' := by
    cases hd.symm.trans hd'
    exact ⟨a, rfl, hdefault, hdefault'⟩

lemma Stable.nullableField (h : Stable k bound reader reader') :
    FieldStable bound (.nullable name k) (.withDefault name (Json.nullable reader) none)
      (.withDefault name (Json.nullable reader') none) :=
  h.nullable.withDefault name rfl rfl (defaultsTo_null reader) (defaultsTo_null reader')

lemma Stable.items (h : Stable k bound reader reader') :
    FieldStable bound (.items name k) (.withDefault name (Json.list reader) [])
      (.withDefault name (Json.list reader') []) :=
  (h.list.mono (Nat.le_succ bound)).withDefault name rfl rfl (defaultsTo_list reader)
    (defaultsTo_list reader')

lemma stable_flag (bound : Nat) :
    FieldStable bound (.flag name) (.withDefault name bool false) (.withDefault name bool false) :=
  (isScalar_bool.stable bound).withDefault name rfl rfl defaultsTo_false defaultsTo_false

end Fields

lemma CasesStable.nil {c : Choice} : CasesStable c bound ([] : List (String × Case Reader α)) [] :=
  List.Forall₂.nil

lemma CasesStable.cons {c : Choice} (name : String) (hname : c.caseKind name = k)
    {case case' : Case Reader α} (h : CaseStable k bound case case')
    {cases cases' : List (String × Case Reader α)} (hmore : CasesStable c bound cases cases') :
    CasesStable c bound ((name, case) :: cases) ((name, case') :: cases') :=
  List.Forall₂.cons ⟨rfl, hname ▸ h⟩ hmore

/-- A value that is made of the members of a structure. -/
lemma FieldsStable.struct {αs : List Type} {s : Struct} {fields fields' : Fields Reader αs}
    (h : FieldsStable bound s.fields fields fields') (name : String) (make : Row αs → α) :
    Stable (.struct s) bound (fun depth => make <$> Json.record name fields depth)
      (fun depth => make <$> Json.record name fields' depth) :=
  ((h.record name).mono (Nat.le_succ bound)).map make

end Json

namespace UnitShape

open Json

/-! ## Parts of a unit -/

variable (bound : Nat)

lemma stable_string : Stable .leaf bound string string :=
  isScalar_string.stable bound

lemma stable_typeRef : Stable (.choice .type) bound (typeRef : Reader TypeRef) typeRef := by
  unfold typeRef
  refine stable_recursive ?_ bound
  intro bound type type' h
  have hgeneric : FieldsStable bound Struct.generic.fields _ _ :=
    .cons ((stable_string bound).needed "raw") <|
    .cons ((h.list.mono (Nat.le_succ bound)).needed "args") .nil
  have hwild : FieldsStable bound Struct.wild.fields _ _ :=
    .cons (h.nullableField "bound") <|
    .cons (stable_flag "plus" bound) .nil
  exact CasesStable.choice <|
    .cons "simple" (by decide) (.value ((stable_string bound).map _)) <|
    .cons "generic" (by decide) (.body (hgeneric.struct _ _)) <|
    .cons "array" (by decide) (.value (h.map _)) <|
    .cons "wild" (by decide) (.body (hwild.struct _ _)) .nil

lemma stable_verb : Stable (.choice .verb) bound (verb : Reader Verb) verb := by
  have hcases : CasesStable .verb bound (Verb.all.map fun v => (v.text, Case.bare v))
      (Verb.all.map fun v => (v.text, Case.bare v)) := by
    refine List.forall₂_same.2 fun case hcase => ?_
    obtain ⟨v, -, rfl⟩ := List.mem_map.1 hcase
    exact ⟨rfl, .bare v⟩
  exact hcases.choice.mono (Nat.le_succ bound)

lemma stable_annotationEntry :
    Stable (.struct .annotationEntry) bound (annotationEntry : Reader Annotation)
      annotationEntry := by
  have hfields : FieldsStable bound Struct.annotationEntry.fields _ _ :=
    .cons ((stable_string bound).needed "name") <|
    .cons ((stable_args bound).withDefault "args" rfl rfl defaultsTo_args defaultsTo_args) .nil
  exact hfields.struct _ _

lemma stable_param : Stable (.struct .param) bound (param : Reader Param) param := by
  have hfields : FieldsStable bound Struct.param.fields _ _ :=
    .cons ((stable_string bound).needed "name") <|
    .cons ((stable_typeRef bound).needed "type") <|
    .cons (stable_flag "optional" bound) .nil
  exact hfields.struct _ _

lemma stable_modifier : Stable (.choice .modifier) bound (modifier : Reader Modifier) modifier := by
  have hcases : Stable (.choice .modifier) (bound + 1) _ _ := CasesStable.choice <|
    .cons "expects" (by decide) (.value ((stable_typeRef bound).map Modifier.expects)) <|
    .cons "status" (by decide) (.value ((isScalar_int32.stable bound).map Modifier.status)) <|
    .cons "secure" (by decide) (.value ((stable_string bound).map Modifier.secure)) <|
    .cons "tx" rfl (.bare Modifier.tx) .nil
  exact hcases.mono (Nat.le_succ bound)

lemma stable_endpoint : Stable (.struct .endpoint) bound (endpoint : Reader Endpoint) endpoint := by
  have hfields : FieldsStable bound Struct.endpoint.fields _ _ :=
    .cons ((stable_verb bound).needed "verb") <|
    .cons (((stable_string bound).list.mono (Nat.le_succ bound)).needed "paths") <|
    .cons ((stable_annotationEntry bound).items "annotations") <|
    .cons ((stable_param bound).items "params") <|
    .cons ((stable_modifier bound).items "modifiers") <|
    .cons ((stable_typeRef bound).nullableField "returns") <|
    .cons (stable_flag "override" bound) .nil
  exact hfields.struct _ _

lemma stable_traitUse : Stable (.struct .traitUse) bound (traitUse : Reader String) traitUse := by
  have hfields : FieldsStable bound Struct.traitUse.fields _ _ :=
    .cons ((stable_string bound).needed "name") .nil
  exact hfields.struct _ _

lemma stable_resource : Stable (.struct .resource) bound (resource : Reader Resource) resource := by
  unfold resource
  refine stable_recursive ?_ bound
  intro bound nested nested' h
  have hcontent : Stable (.choice .content) (bound + 1) _ _ := CasesStable.choice <|
    .cons "endpoint" (by decide) (.value ((stable_endpoint bound).map Content.endpoint)) <|
    .cons "resource" (by decide) (.value (h.map Content.resource)) <|
    .cons "use" (by decide) (.value ((stable_traitUse bound).map Content.use)) .nil
  have hfields : FieldsStable (bound + 1) Struct.resource.fields _ _ :=
    .cons ((stable_string (bound + 1)).needed "path") <|
    .cons ((stable_annotationEntry (bound + 1)).items "annotations") <|
    .cons ((stable_param (bound + 1)).items "params") <|
    .cons (hcontent.items "content") .nil
  exact hfields.struct _ _

lemma stable_traitMember :
    Stable (.struct .traitMember) bound (traitMember : Reader TraitMember) traitMember := by
  have hfields : FieldsStable bound Struct.traitMember.fields _ _ :=
    .cons ((stable_endpoint bound).needed "endpoint") <|
    .cons (stable_flag "override" bound) .nil
  exact hfields.struct _ _

lemma stable_traitDeclaration :
    Stable (.struct .trait) bound (traitDeclaration : Reader Trait) traitDeclaration := by
  have hfields : FieldsStable bound Struct.trait.fields _ _ :=
    .cons ((stable_string bound).needed "name") <|
    .cons ((stable_string bound).items "generics") <|
    .cons ((stable_traitMember bound).items "members") <|
    .cons ((stable_string bound).nullableField "doc") .nil
  exact hfields.struct _ _

lemma stable_compilationUnit :
    Stable (.struct .unit) bound (compilationUnit : Reader CompilationUnit) compilationUnit := by
  have hfields : FieldsStable bound Struct.unit.fields _ _ :=
    .cons ((stable_string bound).nullableField "package") <|
    .cons ((stable_string bound).items "imports") <|
    .cons ((stable_traitDeclaration bound).items "traits") <|
    .cons ((stable_resource bound).items "resources") .nil
  exact hfields.struct _ _

end UnitShape

/-! ## Documents -/

namespace Json

variable {α : Type} {t t' : Tree} {a : α}

/-- A document that a reader accepts has been read as the tree that it is the text of. -/
lemma seen_of_read {reader : Reader α} {text : String} (htext : t.IsDocument text.toList)
    (hread : read reader text = .ok a) : Seen (reader nestingLimit) t a := by
  obtain ⟨before, inside, after, hbefore, hinside, hafter, heq⟩ := htext
  rw [read, heq] at hread
  cases hrun : reader nestingLimit (before ++ (inside ++ after)) with
  | error e =>
    rw [hrun] at hread
    cases hread
  | ok found =>
    obtain ⟨b, rest⟩ := found
    rw [hrun] at hread
    by_cases hspace : rest.all isSpace
    · cases (if_pos hspace).symm.trans hread
      exact ⟨inside, before, after, rest, hinside, hbefore, hafter.follows, hrun⟩
    · cases (if_neg hspace).symm.trans hread

lemma read_of_reads {reader : Reader α} {text : String} (htext : t.IsDocument text.toList)
    (h : Reads (reader nestingLimit) t a) : read reader text = .ok a := by
  obtain ⟨before, inside, after, hbefore, hinside, hafter, heq⟩ := htext
  have hspace : after.all isSpace := List.all_eq_true.2 fun c hc => hafter.isSpace hc
  rw [read, heq, h hinside hbefore hafter.follows]
  exact if_pos hspace

/-- A stable reader that accepts a tree accepts every tree reached by edits, with a limit that is
high enough. -/
lemma Stable.exists_seen {k : Kind} {reader : Reader α}
    (hstable : ∀ bound, Stable k bound reader reader) (hedits : Relation.ReflTransGen (Edit k) t t')
    {depth : Nat} (hseen : Seen (reader depth) t a) :
    ∃ depth', Seen (reader depth') t' a := by
  induction hedits with
  | refl => exact ⟨depth, hseen⟩
  | @tail _ u _ hedit ih =>
    obtain ⟨depth', hseen'⟩ := ih
    exact ⟨k.nesting u,
      ((hstable _).reads (Nat.lt_succ_self _) (.inr hedit) (Nat.le_refl _) hseen').seen⟩

end Json

/-- Documents that say the same thing give the same unit: if one document is read as a unit and its
tree is turned into another one by any number of edits, then every document with the new tree is
read as the same unit. The new tree may be nested 127 levels deep, not counting the values of
members that its structures do not have. -/
theorem CompilationUnit.ofJson_eq_of_edits {t t' : Json.Tree} {text text' : String}
    {u : CompilationUnit} (htext : t.IsDocument text.toList) (htext' : t'.IsDocument text'.toList)
    (hread : ofJson text = .ok u) (hedits : Relation.ReflTransGen (Json.Edit (.struct .unit)) t t')
    (hnesting : (Json.Kind.struct .unit).nesting t' ≤ 127) : ofJson text' = .ok u := by
  obtain ⟨depth, hseen⟩ :=
    Json.Stable.exists_seen UnitShape.stable_compilationUnit hedits (Json.seen_of_read htext hread)
  have hstable := UnitShape.stable_compilationUnit (Json.nestingLimit + 1)
  exact Json.read_of_reads htext' (hstable.reads (Nat.lt_succ_self _) (.inl rfl) hnesting hseen)

/-- A unit with one empty resource. -/
def shop : CompilationUnit where
  package := some "shop"
  imports := []
  traits := []
  resources := [Resource.mk "/items" [] [] []]

namespace Json

/-- A member of an object. -/
def memberOf (name : String) (value : Tree) : List Part × Tree :=
  (spell name, value)

/-- The tree of the unit, with all the members of a unit. -/
def shopTree : Tree :=
  .object [memberOf "package" (.string (spell "shop")), memberOf "imports" (.array []),
    memberOf "traits" (.array []),
    memberOf "resources" (.array [.object [memberOf "path" (.string (spell "/items")),
      memberOf "annotations" (.array []), memberOf "params" (.array []),
      memberOf "content" (.array [])]])]

/-- The tree without some default values, in another order and with a member that units do not
have. -/
def editedShopTree : Tree :=
  .object [memberOf "resources" (.array [.object [memberOf "path" (.string (spell "/items")),
      memberOf "annotations" (.array []), memberOf "content" (.array [])]]),
      memberOf "traits" (.array []),
    memberOf "version" (.array [.array [.null]]), memberOf "package" (.string (spell "shop"))]

lemma shopTree_edited : Relation.ReflTransGen (Edit (.struct .unit)) shopTree editedShopTree := by
  let path := memberOf "path" (.string (spell "/items"))
  let annotations := memberOf "annotations" (.array [])
  let content := memberOf "content" (.array [])
  let package := memberOf "package" (.string (spell "shop"))
  let traits := memberOf "traits" (.array [])
  let resources := memberOf "resources" (.array [.object [path, annotations, content]])
  have hresource : Edit (.struct .resource)
      (.object ([path, annotations] ++ memberOf "params" (.array []) :: [content]))
      (.object ([path, annotations] ++ [content])) :=
    .removeDefault ⟨.items "params" (.struct .param), by decide, keyText_spell _, .emptyList,
      rfl, rfl⟩
  have hresources : Edit (.list (.struct .resource))
      (.array ([] ++ .object [path, annotations, memberOf "params" (.array []), content] :: []))
      (.array ([] ++ .object [path, annotations, content] :: [])) := .inItem hresource
  have hunit : Edit (.struct .unit)
      (.object ([package, memberOf "imports" (.array []), traits] ++ memberOf "resources"
        (.array [.object [path, annotations, memberOf "params" (.array []), content]]) :: []))
      (.object ([package, memberOf "imports" (.array []), traits] ++ resources :: [])) :=
    .inMember (keyText_spell _) (by decide) hresources
  have himports : Edit (.struct .unit)
      (.object ([package] ++ memberOf "imports" (.array []) :: [traits, resources]))
      (.object ([package] ++ [traits, resources])) :=
    .removeDefault ⟨.items "imports" .leaf, by decide, keyText_spell _, .emptyList, rfl, rfl⟩
  have hversion : Edit (.struct .unit) (.object ([package] ++ [traits, resources]))
      (.object ([package] ++
        memberOf "version" (.array [.array [.null]]) :: [traits, resources])) :=
    .addUnknown _ ⟨"version", keyText_spell _, by decide⟩
  exact (((Relation.ReflTransGen.single hunit).tail himports).tail hversion).tail
    (.rearrange (List.reverse_perm _).symm)

end Json

/-- The white space around the document differs as well. -/
theorem CompilationUnit.ofJson_eq_of_edits_shop :
    ofJson shop.toJson.text = .ok shop ∧
      ofJson
        (" \x7b\"resources\":[\x7b\"path\":\"/items\",\"annotations\":[],\"content\":[]\x7d]," ++
          "\"traits\":[],\"version\":[[null]],\"package\":\"shop\"\x7d\n") = .ok shop := by
  have hread := Json.read_text (UnitShape.readsBack_compilationUnit (Json.nestingLimit + 1) shop)
  rw [if_pos (by decide)] at hread
  have htext : Json.shopTree.IsDocument shop.toJson.text.toList :=
    ⟨[], _, [], Json.isBlank_nil, Json.shopTree.writtenAs_chars, Json.isBlank_nil,
      by decide +kernel⟩
  refine ⟨hread, ofJson_eq_of_edits htext ?_ hread Json.shopTree_edited (by decide)⟩
  exact ⟨[' '], _, ['\n'], by simp [Json.IsBlank], Json.editedShopTree.writtenAs_chars,
    by simp [Json.IsBlank], by decide +kernel⟩

end ResourceStubs
