import ResourceStubs.Proofs.Json.RoundTrip
import ResourceStubs.Proofs.Yaml.Decoding

/-!
# Units written as JSON and read as YAML

Both formats read the compact JSON text of a unit as that unit (`CompilationUnit.ofYaml_text`), so
it does not matter which of them the name of the file asks for. Beyond the limit on nesting, which
both have, YAML needs two things more. It refuses some characters that JSON allows in strings as
they are, so the strings of the unit have to be in ASCII; and it takes a member's name for a key
only up to a length, which limits the names of annotation arguments, the only ones that are not
fixed.
-/

namespace ResourceStubs

open Json (Value)

/-! ## The strings of a unit -/

mutual

/-- The strings in a type reference. -/
def TypeRef.texts : TypeRef → List String
  | .simple name => [name]
  | .generic raw args => raw :: TypeRef.textsList args
  | .array of => of.texts
  | .anything _ => []
  | .bounded _ bound => bound.texts

/-- The strings in type references. -/
def TypeRef.textsList : List TypeRef → List String
  | [] => []
  | t :: more => t.texts ++ TypeRef.textsList more

end

/-- The strings in an argument value. -/
def Literal.texts : Literal → List String
  | .int _ => []
  | .string value => [value]

/-- The keys of the arguments of an annotation. -/
def Annotation.argKeys (a : Annotation) : List String :=
  a.args.entries.map (·.1)

/-- The strings in an annotation. -/
def Annotation.texts (a : Annotation) : List String :=
  a.name :: a.argKeys ++ a.args.entries.flatMap fun e => e.2.texts

/-- The strings in a parameter. -/
def Param.texts (p : Param) : List String :=
  p.name :: p.type.texts

/-- The strings in a modifier. -/
def Modifier.texts : Modifier → List String
  | .expects type => type.texts
  | .status _ => []
  | .secure role => [role]
  | .tx => []

/-- The strings in an endpoint. -/
def Endpoint.texts (e : Endpoint) : List String :=
  e.paths ++ e.annotations.flatMap Annotation.texts ++ e.params.flatMap Param.texts ++
    e.modifiers.flatMap Modifier.texts ++ e.returns.toList.flatMap TypeRef.texts

/-- The argument keys in an endpoint. -/
def Endpoint.argKeys (e : Endpoint) : List String :=
  e.annotations.flatMap Annotation.argKeys

mutual

/-- The strings in a resource, at every depth. -/
def Resource.texts : Resource → List String
  | .mk path annotations params content =>
    path :: annotations.flatMap Annotation.texts ++ params.flatMap Param.texts ++
      Content.textsList content

/-- The strings in an item of a resource's content. -/
def Content.texts : Content → List String
  | .endpoint e => e.texts
  | .resource r => r.texts
  | .use name => [name]

/-- The strings in the items of a resource's content. -/
def Content.textsList : List Content → List String
  | [] => []
  | item :: more => item.texts ++ Content.textsList more

end

mutual

/-- The argument keys in a resource, at every depth. -/
def Resource.argKeys : Resource → List String
  | .mk _ annotations _ content =>
    annotations.flatMap Annotation.argKeys ++ Content.argKeysList content

/-- The argument keys in an item of a resource's content. -/
def Content.argKeys : Content → List String
  | .endpoint e => e.argKeys
  | .resource r => r.argKeys
  | .use _ => []

/-- The argument keys in the items of a resource's content. -/
def Content.argKeysList : List Content → List String
  | [] => []
  | item :: more => item.argKeys ++ Content.argKeysList more

end

/-- The strings in a trait. -/
def Trait.texts (t : Trait) : List String :=
  t.name :: t.generics ++ t.members.flatMap (fun m => m.endpoint.texts) ++ t.doc.toList

/-- The argument keys in a trait. -/
def Trait.argKeys (t : Trait) : List String :=
  t.members.flatMap fun m => m.endpoint.argKeys

/-- The strings in a unit. -/
def CompilationUnit.texts (u : CompilationUnit) : List String :=
  u.package.toList ++ u.imports ++ u.traits.flatMap Trait.texts ++
    u.resources.flatMap Resource.texts

/-- The keys of annotation arguments in a unit. -/
def CompilationUnit.argKeys (u : CompilationUnit) : List String :=
  u.traits.flatMap Trait.argKeys ++ u.resources.flatMap Resource.argKeys

/-! ## Scannable parts -/

namespace Yaml

/-- The names fit in a key. -/
def namesFit : List (String × Value) → Bool
  | [] => true
  | (key, _) :: more => decide (IsAscii key) && decide (key.length ≤ 128) && namesFit more

/-- All values are scannable. -/
def AllScannable : List (String × Value) → Prop
  | [] => True
  | (_, v) :: more => v.Scannable ∧ AllScannable more

lemma forall_mem_of_namesFit {ms : List (String × Value)} (h : namesFit ms = true) :
    ∀ m ∈ ms, IsAscii m.1 ∧ m.1.length ≤ 128 := by
  induction ms with
  | nil => exact List.forall_mem_nil _
  | cons m more ih =>
    simp only [namesFit, Bool.and_eq_true, decide_eq_true_eq] at h
    exact List.forall_mem_cons.2 ⟨h.1, ih h.2⟩

lemma AllScannable.forall_mem {ms : List (String × Value)} (h : AllScannable ms) :
    ∀ m ∈ ms, m.2.Scannable := by
  induction ms with
  | nil => exact List.forall_mem_nil _
  | cons m more ih => exact List.forall_mem_cons.2 ⟨h.1, ih h.2⟩

/-- The encoders write their members in a fixed list, so the names are checked by evaluation. -/
lemma scannable_object {ms : List (String × Value)} (hnames : namesFit ms = true)
    (h : AllScannable ms) :
    (Value.object ms).Scannable :=
  .object (forall_mem_of_namesFit hnames) h.forall_mem

lemma scannable_array {α : Type} {encode : α → Value} {as : List α}
    (h : ∀ a ∈ as, (encode a).Scannable) :
    (Value.array (as.map encode)).Scannable := by
  refine .array fun v hv => ?_
  obtain ⟨a, ha, rfl⟩ := List.mem_map.1 hv
  exact h a ha

lemma scannable_ofOption {α : Type} {encode : α → Value} {o : Option α}
    (h : ∀ a ∈ o.toList, (encode a).Scannable) :
    (Value.ofOption encode o).Scannable := by
  cases o with
  | none => exact .null
  | some a => exact h a List.mem_cons_self

mutual

lemma scannable_typeRef : (t : TypeRef) → (∀ text ∈ t.texts, IsAscii text) → t.toJson.Scannable
  | .simple name, h => by
    rw [TypeRef.texts, List.forall_mem_singleton] at h
    rw [TypeRef.toJson]
    exact scannable_object rfl ⟨.string h, trivial⟩
  | .generic raw args, h => by
    rw [TypeRef.texts, List.forall_mem_cons] at h
    have hargs := scannable_typeRefs args h.2
    rw [TypeRef.toJson]
    exact scannable_object rfl ⟨scannable_object rfl ⟨.string h.1, .array hargs, trivial⟩, trivial⟩
  | .array of, h => by
    rw [TypeRef.texts] at h
    have hof := scannable_typeRef of h
    rw [TypeRef.toJson]
    exact scannable_object rfl ⟨hof, trivial⟩
  | .anything plus, _ => by
    rw [TypeRef.toJson]
    exact scannable_object rfl ⟨scannable_object rfl ⟨.null, .bool plus, trivial⟩, trivial⟩
  | .bounded plus bound, h => by
    rw [TypeRef.texts] at h
    have hbound := scannable_typeRef bound h
    rw [TypeRef.toJson]
    exact scannable_object rfl ⟨scannable_object rfl ⟨hbound, .bool plus, trivial⟩, trivial⟩

lemma scannable_typeRefs :
    (types : List TypeRef) → (∀ text ∈ TypeRef.textsList types, IsAscii text) →
    ∀ v ∈ TypeRef.toJsonList types, v.Scannable
  | [], _ => by
    rw [TypeRef.toJsonList]
    exact List.forall_mem_nil _
  | t :: more, h => by
    rw [TypeRef.textsList, List.forall_mem_append] at h
    have hfirst := scannable_typeRef t h.1
    have hmore := scannable_typeRefs more h.2
    rw [TypeRef.toJsonList]
    exact List.forall_mem_cons.2 ⟨hfirst, hmore⟩

end

lemma scannable_strings {texts : List String} (h : ∀ text ∈ texts, IsAscii text) :
    (Value.strings texts).Scannable :=
  scannable_array fun text htext => .string (h text htext)

lemma scannable_literal {l : Literal} (h : ∀ text ∈ l.texts, IsAscii text) :
    l.toJson.Scannable := by
  cases l with
  | int value => exact .int _
  | string value => exact .string (h value List.mem_cons_self)

lemma scannable_annotation {a : Annotation} (htexts : ∀ text ∈ a.texts, IsAscii text)
    (hkeys : ∀ key ∈ a.argKeys, key.length ≤ 128) : a.toJson.Scannable := by
  unfold Annotation.texts at htexts
  rw [List.forall_mem_append, List.forall_mem_cons, List.forall_mem_flatMap] at htexts
  obtain ⟨⟨hname, hascii⟩, hliterals⟩ := htexts
  have hargs : a.args.toJson.Scannable := by
    refine .object (fun m hm => ?_) fun m hm => ?_
    · obtain ⟨e, he, rfl⟩ := List.mem_map.1 hm
      have hkey : e.1 ∈ a.argKeys := List.mem_map_of_mem he
      exact ⟨hascii e.1 hkey, hkeys e.1 hkey⟩
    · obtain ⟨e, he, rfl⟩ := List.mem_map.1 hm
      exact scannable_literal (hliterals e he)
  exact scannable_object rfl ⟨.string hname, hargs, trivial⟩

lemma scannable_param {p : Param} (h : ∀ text ∈ p.texts, IsAscii text) : p.toJson.Scannable := by
  rw [Param.texts, List.forall_mem_cons] at h
  exact scannable_object rfl ⟨.string h.1, scannable_typeRef p.type h.2, .bool p.optional, trivial⟩

lemma scannable_modifier {m : Modifier} (h : ∀ text ∈ m.texts, IsAscii text) :
    m.toJson.Scannable := by
  cases m with
  | expects type => exact scannable_object rfl ⟨scannable_typeRef type h, trivial⟩
  | status code => exact scannable_object rfl ⟨.int _, trivial⟩
  | secure role => exact scannable_object rfl ⟨.string (h role List.mem_cons_self), trivial⟩
  | tx => exact .string (by decide)

lemma scannable_endpoint {e : Endpoint} (htexts : ∀ text ∈ e.texts, IsAscii text)
    (hkeys : ∀ key ∈ e.argKeys, key.length ≤ 128) : e.toJson.Scannable := by
  simp only [Endpoint.texts, List.forall_mem_append, List.forall_mem_flatMap] at htexts
  obtain ⟨⟨⟨⟨hpaths, hannotations⟩, hparams⟩, hmodifiers⟩, hreturns⟩ := htexts
  rw [Endpoint.argKeys, List.forall_mem_flatMap] at hkeys
  have hverb : IsAscii e.verb.text := by
    cases e.verb <;> decide
  have hannotations' := scannable_array fun a ha =>
    scannable_annotation (hannotations a ha) (hkeys a ha)
  have hparams' := scannable_array fun p hp => scannable_param (hparams p hp)
  have hmodifiers' := scannable_array fun m hm => scannable_modifier (hmodifiers m hm)
  have hreturns' := scannable_ofOption fun t ht => scannable_typeRef t (hreturns t ht)
  exact scannable_object rfl
    ⟨.string hverb, scannable_strings hpaths, hannotations', hparams', hmodifiers', hreturns',
      .bool e.overriding, trivial⟩

mutual

lemma scannable_resource :
    (r : Resource) → (∀ text ∈ r.texts, IsAscii text) → (∀ key ∈ r.argKeys, key.length ≤ 128) →
    r.toJson.Scannable
  | .mk path annotations params content, htexts, hkeys => by
    simp only [Resource.texts, List.forall_mem_append, List.forall_mem_cons,
      List.forall_mem_flatMap] at htexts
    obtain ⟨⟨⟨hpath, hannotations⟩, hparams⟩, hcontent⟩ := htexts
    simp only [Resource.argKeys, List.forall_mem_append, List.forall_mem_flatMap] at hkeys
    have hannotations' := scannable_array fun a ha =>
      scannable_annotation (hannotations a ha) (hkeys.1 a ha)
    have hparams' := scannable_array fun p hp => scannable_param (hparams p hp)
    have hcontent' := scannable_contents content hcontent hkeys.2
    rw [Resource.toJson]
    exact scannable_object rfl ⟨.string hpath, hannotations', hparams', .array hcontent', trivial⟩

lemma scannable_content : (item : Content) → (∀ text ∈ item.texts, IsAscii text) →
    (∀ key ∈ item.argKeys, key.length ≤ 128) → item.toJson.Scannable
  | .endpoint e, htexts, hkeys => by
    rw [Content.texts] at htexts
    rw [Content.argKeys] at hkeys
    rw [Content.toJson]
    exact scannable_object rfl ⟨scannable_endpoint htexts hkeys, trivial⟩
  | .resource r, htexts, hkeys => by
    rw [Content.texts] at htexts
    rw [Content.argKeys] at hkeys
    have hresource := scannable_resource r htexts hkeys
    rw [Content.toJson]
    exact scannable_object rfl ⟨hresource, trivial⟩
  | .use name, htexts, _ => by
    rw [Content.texts, List.forall_mem_singleton] at htexts
    rw [Content.toJson]
    exact scannable_object rfl ⟨scannable_object rfl ⟨.string htexts, trivial⟩, trivial⟩

lemma scannable_contents :
    (items : List Content) → (∀ text ∈ Content.textsList items, IsAscii text) →
    (∀ key ∈ Content.argKeysList items, key.length ≤ 128) →
      ∀ v ∈ Content.toJsonList items, v.Scannable
  | [], _, _ => by
    rw [Content.toJsonList]
    exact List.forall_mem_nil _
  | item :: more, htexts, hkeys => by
    rw [Content.textsList, List.forall_mem_append] at htexts
    rw [Content.argKeysList, List.forall_mem_append] at hkeys
    have hfirst := scannable_content item htexts.1 hkeys.1
    have hmore := scannable_contents more htexts.2 hkeys.2
    rw [Content.toJsonList]
    exact List.forall_mem_cons.2 ⟨hfirst, hmore⟩

end

lemma scannable_trait {t : Trait} (htexts : ∀ text ∈ t.texts, IsAscii text)
    (hkeys : ∀ key ∈ t.argKeys, key.length ≤ 128) : t.toJson.Scannable := by
  simp only [Trait.texts, List.forall_mem_append, List.forall_mem_cons,
    List.forall_mem_flatMap] at htexts
  obtain ⟨⟨⟨hname, hgenerics⟩, hmembers⟩, hdoc⟩ := htexts
  rw [Trait.argKeys, List.forall_mem_flatMap] at hkeys
  have hmember : ∀ m ∈ t.members, m.toJson.Scannable := by
    intro m hm
    have hendpoint := scannable_endpoint (hmembers m hm) (hkeys m hm)
    exact scannable_object rfl ⟨hendpoint, .bool m.overriding, trivial⟩
  have hdoc' : (Value.ofOption .string t.doc).Scannable :=
    scannable_ofOption fun text htext => .string (hdoc text htext)
  exact scannable_object rfl
    ⟨.string hname, scannable_strings hgenerics, scannable_array hmember, hdoc', trivial⟩

lemma scannable_unit {u : CompilationUnit} (htexts : ∀ text ∈ u.texts, IsAscii text)
    (hkeys : ∀ key ∈ u.argKeys, key.length ≤ 128) : u.toJson.Scannable := by
  simp only [CompilationUnit.texts, List.forall_mem_append, List.forall_mem_flatMap] at htexts
  obtain ⟨⟨⟨hpackage, himports⟩, htraits⟩, hresources⟩ := htexts
  simp only [CompilationUnit.argKeys, List.forall_mem_append, List.forall_mem_flatMap] at hkeys
  have hpackage' : (Value.ofOption .string u.package).Scannable :=
    scannable_ofOption fun text htext => .string (hpackage text htext)
  have htraits' := scannable_array fun t ht => scannable_trait (htraits t ht) (hkeys.1 t ht)
  have hresources' := scannable_array fun r hr =>
    scannable_resource r (hresources r hr) (hkeys.2 r hr)
  exact scannable_object rfl ⟨hpackage', scannable_strings himports, htraits', hresources', trivial⟩

end Yaml

/-! ## Whole units -/

/-- A unit is read back from its compact JSON text in either format, and so whatever the name of the
file is, if its strings are in ASCII, its argument keys are short, and at most 127 brackets are open
at the same place of the text. -/
theorem CompilationUnit.ofYaml_text (u : CompilationUnit)
    (htexts : ∀ text ∈ u.texts, ∀ c ∈ text.toList, c.toNat ≤ 0x7E)
    (hkeys : ∀ key ∈ u.argKeys, key.length ≤ 128) (hdepth : Json.bracketDepth u.toJson.text ≤ 127) :
    CompilationUnit.ofYaml u.toJson.text = .ok u ∧ CompilationUnit.ofJson u.toJson.text = .ok u ∧
      ∀ path, CompilationUnit.ofFile path u.toJson.text = .ok u := by
  rw [Json.bracketDepth_text] at hdepth
  have hyaml : CompilationUnit.ofYaml u.toJson.text = .ok u := by
    have hdepth' : u.toJson.depth ≤ Yaml.nestingLimit := Nat.le_succ_of_le hdepth
    exact Yaml.read_text (Yaml.scannable_unit htexts hkeys)
      (Yaml.readingLaws.reads_compilationUnit _ u) hdepth'
  have hjson : CompilationUnit.ofJson u.toJson.text = .ok u := by
    have hread := Json.read_text (UnitShape.readsBack_compilationUnit (Json.nestingLimit + 1) u)
    exact hread.trans (if_pos hdepth)
  refine ⟨hyaml, hjson, fun path => ?_⟩
  rw [CompilationUnit.ofFile]
  cases UnitFormat.ofPath path with
  | json => exact congrArg (Except.mapError _) hjson
  | yaml => exact congrArg (Except.mapError _) hyaml

/-- A unit whose strings look like other values and like punctuation of YAML. -/
def lookalikeUnit : CompilationUnit :=
  { package := some "null"
    imports := ["true", "-1", "0x1F", "~", "", " a: b # c ", "---"]
    traits := [
      { name := "*anchor"
        generics := ["[", "{}"]
        doc := some "\x00\x1f\t\n\r\"\\/"
        members := [{
          endpoint := {
            verb := .get
            paths := ["/{id}"]
            modifiers := [.tx, .status (-1), .secure "no"] }
          overriding := true }] }]
    resources := [
      .mk "1e3"
        [{ name := "Doc"
           args := ArgMap.ofList [("", .string "12"), ("- k", .int (-12)), ("null", .int 0)] }]
        [{ name := "p"
           type := .bounded true (.generic "Map" [.array (.simple "?"), .anything true])
           optional := true }]
        [.use "*anchor",
          .resource (.mk "" [] [] [
            .endpoint { verb := .put, paths := [], returns := some (.simple "~") }])]] }

theorem ofYaml_text_lookalike :
    Json.bracketDepth lookalikeUnit.toJson.text = 12 ∧
      CompilationUnit.ofYaml lookalikeUnit.toJson.text = .ok lookalikeUnit ∧
      CompilationUnit.ofJson lookalikeUnit.toJson.text = .ok lookalikeUnit ∧
      CompilationUnit.ofFile "unit.yml" lookalikeUnit.toJson.text = .ok lookalikeUnit := by
  have hdepth : Json.bracketDepth lookalikeUnit.toJson.text = 12 := by
    rw [Json.bracketDepth_text]
    decide +kernel
  have htexts : ∀ text ∈ lookalikeUnit.texts, Yaml.IsAscii text :=
    List.forall_iff_forall_mem.1 (by decide +kernel)
  have hkeys : ∀ key ∈ lookalikeUnit.argKeys, key.length ≤ 128 :=
    List.forall_iff_forall_mem.1 (by decide +kernel)
  obtain ⟨hyaml, hjson, hfile⟩ := CompilationUnit.ofYaml_text lookalikeUnit htexts hkeys (by omega)
  exact ⟨hdepth, hyaml, hjson, hfile "unit.yml"⟩

end ResourceStubs
