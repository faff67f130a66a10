import ResourceStubs.Proofs.AnnotationText
import ResourceStubs.Proofs.Rendering

/-!
# The text of a class determines its layout

A class is written as a flat sequence of lines. Sections may be missing or repeat, and no line says
which section it belongs to. Two layouts with the same text are nevertheless equal
(`ClassLayout.eq_of_source_eq`), because every section ends at a line that cannot belong to it:

* imports start with `import` and end at the blank line, with the standard ones always last;
* a doc comment is opened and closed by lines of its own, and each line between them has a star and
  a blank in front;
* annotations and markers start with an at sign, and the lines behind them start with `public`;
* notes on parameters look like nothing at the start of a method, and methods end at the brace of
  the class.

The argument for doc comments does not depend on the indentation, so it serves classes and methods
alike. What a layout has to satisfy is little: its texts stand on one line, and markers and
signatures start as rendered ones do. Rendered classes do satisfy the second condition
(`Node.isMarked_layout`).
-/

namespace ResourceStubs

open Text (StartsWith OneLine)

/-! ## Marked layouts -/

/-- The markers and the signature of a method can be recognised. -/
structure MethodBlock.IsMarked (m : MethodBlock) : Prop where
  markers : ∀ marker ∈ m.markers, StartsWith "@" marker
  signature : StartsWith "public " m.signature

/-- The markers of a class and of its methods, and the signatures, can be recognised. -/
structure ClassLayout.IsMarked (c : ClassLayout) : Prop where
  annotations : ∀ marker ∈ c.annotations, StartsWith "@" marker
  methods : ∀ m ∈ c.methods, m.IsMarked

lemma Annotation.startsWith_text (a : Annotation) : StartsWith "@" a.text := by
  rw [text_eq, String.append_assoc]
  exact Text.startsWith_append _ _

lemma Annotation.startsWith_of_mem_markers {annotations : List Annotation} {marker : String}
    (h : marker ∈ markers annotations) : StartsWith "@" marker := by
  obtain ⟨a, -, rfl⟩ := List.mem_map.1 h
  exact a.startsWith_text

lemma Modifier.startsWith_of_marker {m : Modifier} {marker : String} (h : m.marker = some marker) :
    StartsWith "@" marker := by
  cases m with
  | expects type => cases h
  | tx =>
    obtain rfl := Option.some.inj h
    decide
  | secure role =>
    obtain rfl := Option.some.inj h
    simp only [String.append_assoc]
    exact StartsWith.append (by decide) _
  | status code =>
    obtain rfl := Option.some.inj h
    simp only [String.append_assoc]
    exact StartsWith.append (by decide) _

lemma Verb.startsWith_routeMarker (verb : Verb) (route : String) :
    StartsWith "@" (verb.routeMarker route) := by
  have hname : StartsWith "@" verb.mapping := by cases verb <;> decide
  simp only [routeMarker, String.append_assoc]
  exact hname.append _

lemma Endpoint.isMarked_methodBlock (e : Endpoint) (segments : List String) :
    (e.methodBlock segments).IsMarked where
  markers := by
    intro marker hmarker
    simp only [methodBlock, markers, List.mem_append, List.mem_filterMap,
      List.mem_singleton] at hmarker
    rcases hmarker with (hmarker | ⟨m, -, hmarker⟩) | rfl
    · exact Annotation.startsWith_of_mem_markers hmarker
    · exact Modifier.startsWith_of_marker hmarker
    · exact e.verb.startsWith_routeMarker _
  signature := by
    simp only [methodBlock, signature, String.append_assoc]
    exact Text.startsWith_append _ _

/-- Rendered classes are marked. -/
lemma Node.isMarked_layout (u : CompilationUnit) (n : Node) : (n.layout u).IsMarked where
  annotations := fun _ hmarker => Annotation.startsWith_of_mem_markers hmarker
  methods := by
    intro m hm
    obtain ⟨e, -, rfl⟩ := List.mem_map.1 hm
    exact e.isMarked_methodBlock n.segments

/-! ## Lines -/

/-- All texts of a method. -/
def MethodBlock.texts (m : MethodBlock) : List String :=
  m.docLines ++ m.markers ++ [m.signature, m.body]

/-- All texts of a class. -/
def ClassLayout.texts (c : ClassLayout) : List String :=
  [c.package, c.className] ++ c.imports ++ c.docLines ++ c.annotations ++ c.resourceParams ++
    c.methods.flatMap MethodBlock.texts

lemma oneLine_docComment {indent : String} {lines : List String} (hindent : OneLine indent)
    (h : ∀ text ∈ lines, OneLine text) : ∀ line ∈ docComment indent lines, OneLine line := by
  have hfixed : OneLine "/**" ∧ OneLine " * " ∧ OneLine " */" := by decide
  unfold docComment
  split
  · exact List.forall_mem_nil _
  · simp only [List.cons_append, List.forall_mem_cons, List.forall_mem_append, List.forall_mem_map,
      Text.oneLine_append, hindent, hfixed, true_and]
    exact ⟨h, List.forall_mem_nil _⟩

lemma MethodBlock.oneLine_lines {m : MethodBlock} (h : ∀ text ∈ m.texts, OneLine text) :
    ∀ line ∈ m.lines, OneLine line := by
  have hfixed : OneLine "    " ∧ OneLine bodyStart ∧ OneLine "        " ∧ OneLine bodyEnd ∧
      OneLine "" := by decide
  simp only [texts, List.forall_mem_append, List.forall_mem_cons] at h
  obtain ⟨⟨hdoc, hmarkers⟩, hsignature, hbody, -⟩ := h
  simp only [lines, List.forall_mem_append, List.forall_mem_cons, List.forall_mem_map,
    Text.oneLine_append, hfixed, hsignature, hbody, true_and, and_true]
  exact ⟨⟨oneLine_docComment hfixed.1 hdoc, hmarkers⟩, List.forall_mem_nil _⟩

/-- The lines of a class, seen from the first section on. -/
lemma ClassLayout.lines_eq (c : ClassLayout) :
    c.lines = packageLines c.package ++
      ((c.imports ++ standardImports).map (fun name => "import " ++ name ++ ";") ++
        "" :: (docComment "" c.docLines ++
          (c.annotations ++ ("public class " ++ c.className ++ bodyStart) :: "" ::
            (c.resourceParams.map ("    // resource param " ++ ·) ++
              (c.methods.flatMap MethodBlock.lines ++ [bodyEnd]))))) := by
  simp only [lines, List.append_assoc, List.cons_append, List.nil_append]

/-- Texts on one line are laid out in lines. -/
lemma ClassLayout.oneLine_lines {c : ClassLayout} (h : ∀ text ∈ c.texts, OneLine text) :
    ∀ line ∈ c.lines, OneLine line := by
  have hfixed : OneLine "" ∧ OneLine "package " ∧ OneLine ";" ∧ OneLine "import " ∧
      OneLine "public class " ∧
      OneLine bodyStart ∧ OneLine "    // resource param " ∧ OneLine bodyEnd := by decide
  have hstandard : ∀ name ∈ standardImports, OneLine name := by decide
  simp only [texts, List.forall_mem_append, List.forall_mem_cons, List.forall_mem_flatMap] at h
  obtain ⟨⟨⟨⟨⟨⟨hpackage, hname, -⟩, himports⟩, hdoc⟩, hannotations⟩, hparams⟩, hmethods⟩ := h
  have hpackageLines : ∀ line ∈ packageLines c.package, OneLine line := by
    unfold packageLines
    split
    · exact List.forall_mem_nil _
    · simp only [List.forall_mem_cons, Text.oneLine_append, hfixed, hpackage, true_and]
      exact List.forall_mem_nil _
  rw [lines_eq]
  simp only [List.forall_mem_append, List.forall_mem_cons, List.forall_mem_map,
    List.forall_mem_flatMap, Text.oneLine_append, hfixed, hname, true_and, and_true]
  exact ⟨hpackageLines, ⟨himports, hstandard⟩, oneLine_docComment hfixed.1 hdoc, hannotations,
    hparams, fun m hm => m.oneLine_lines (hmethods m hm), List.forall_mem_nil _⟩

/-! ## Sections -/

/-- A doc comment ends with its closing line, and it is there exactly when its opening line is. -/
lemma docComment_append_inj {indent : String} {xs ys rest rest' : List String}
    (hrest : indent ++ "/**" ∉ rest.head?) (hrest' : indent ++ "/**" ∉ rest'.head?)
    (h : docComment indent xs ++ rest = docComment indent ys ++ rest') :
    xs = ys ∧ rest = rest' := by
  have hcons : ∀ (x : String) (more : List String), docComment indent (x :: more) =
      (indent ++ "/**") :: ((x :: more).map (indent ++ " * " ++ ·) ++ [indent ++ " */"]) :=
    fun _ _ => rfl
  have hnil : docComment indent [] = [] := rfl
  cases xs with
  | nil =>
    cases ys with
    | nil => exact ⟨rfl, h⟩
    | cons y ys =>
      rw [hnil, hcons, List.nil_append] at h
      exact absurd (by rw [h]; rfl) hrest
  | cons x xs =>
    cases ys with
    | nil =>
      rw [hnil, hcons, List.nil_append] at h
      exact absurd (by rw [← h]; rfl) hrest'
    | cons y ys =>
      rw [hcons, hcons, List.cons_append, List.cons_append, List.append_assoc,
        List.append_assoc] at h
      have hstar : ∀ {lines : List String}, ∀ line ∈ lines.map (indent ++ " * " ++ ·),
          StartsWith (indent ++ " * ") line := by
        intro lines line hline
        obtain ⟨text, -, rfl⟩ := List.mem_map.1 hline
        exact Text.startsWith_append _ _
      have hclosing : ∀ {tail : List String}, ∀ line ∈ ([indent ++ " */"] ++ tail).head?,
          ¬StartsWith (indent ++ " * ") line := by
        rintro tail line ⟨⟩
        rw [Text.startsWith_indent_iff]
        decide
      obtain ⟨hmap, hbehind⟩ :=
        append_inj_of_forall hstar hstar hclosing hclosing (List.cons.inj h).2
      have hlines := (List.map_inj_right fun _ _ => (String.append_right_inj _).1).1 hmap
      exact ⟨hlines, (List.cons.inj hbehind).2⟩

namespace MethodBlock

variable {m m' : MethodBlock} {rest rest' : List String} {line : String}

/-- The lines of a method, seen from its doc comment on. -/
lemma lines_append_eq (m : MethodBlock) (rest : List String) :
    m.lines ++ rest = docComment "    " m.docLines ++ (m.markers.map ("    " ++ ·) ++
      ("    " ++ m.signature ++ bodyStart) :: ("        " ++ m.body) :: ("    " ++ bodyEnd) :: "" ::
        rest) := by
  simp only [lines, List.append_assoc, List.cons_append, List.nil_append]

lemma startsWith_marker (hm : m.IsMarked) (h : line ∈ m.markers.map ("    " ++ ·)) :
    StartsWith "    @" line := by
  obtain ⟨marker, hmarker, rfl⟩ := List.mem_map.1 h
  show StartsWith ("    " ++ "@") _
  exact Text.startsWith_indent_iff.2 (hm.markers marker hmarker)

lemma startsWith_signature (hm : m.IsMarked) :
    StartsWith "    public " ("    " ++ m.signature ++ bodyStart) := by
  show StartsWith ("    " ++ "public ") _
  exact (Text.startsWith_indent_iff.2 hm.signature).append _

/-- Behind the doc comment comes a marker or the signature. -/
lemma startsWith_behind_doc (hm : m.IsMarked)
    (h : line ∈ (m.markers.map ("    " ++ ·) ++
      ("    " ++ m.signature ++ bodyStart) :: rest).head?) :
    StartsWith "    @" line ∨ StartsWith "    public " line := by
  rcases mem_or_eq_of_mem_head? h with hmarker | rfl
  · exact .inl (startsWith_marker hm hmarker)
  · exact .inr (startsWith_signature hm)

/-- A method opens with its doc comment, a marker or the signature. -/
lemma startsWith_of_mem_head? (hm : m.IsMarked) (h : line ∈ (m.lines ++ rest).head?) :
    StartsWith "    /**" line ∨ StartsWith "    @" line ∨ StartsWith "    public " line := by
  rw [lines_append_eq] at h
  cases hdoc : m.docLines with
  | nil =>
    rw [hdoc] at h
    exact .inr (startsWith_behind_doc hm h)
  | cons text more =>
    rw [hdoc] at h
    obtain rfl : "    /**" = line := Option.some.inj h
    exact .inl (by decide)

/-- A method ends with its blank line, and all its parts are determined by its lines. -/
lemma lines_append_inj (hm : m.IsMarked) (hm' : m'.IsMarked)
    (h : m.lines ++ rest = m'.lines ++ rest') :
    m = m' ∧ rest = rest' := by
  rw [lines_append_eq, lines_append_eq] at h
  have hnoDoc : ∀ {n : MethodBlock} {tail : List String}, n.IsMarked →
      "    " ++ "/**" ∉ (n.markers.map ("    " ++ ·) ++
        ("    " ++ n.signature ++ bodyStart) :: tail).head? := by
    intro n tail hn hopen
    rcases startsWith_behind_doc hn hopen with hstart | hstart
    · exact absurd hstart (by decide)
    · exact absurd hstart (by decide)
  obtain ⟨hdoc, h⟩ := docComment_append_inj (hnoDoc hm) (hnoDoc hm') h
  have hends : ∀ {n : MethodBlock} {tail : List String}, n.IsMarked →
      ∀ line ∈ (("    " ++ n.signature ++ bodyStart) :: tail).head?, ¬StartsWith "    @" line := by
    rintro n tail hn line ⟨⟩
    exact (startsWith_signature hn).not_startsWith (by decide) (by decide)
  obtain ⟨hmarkers, h⟩ :=
    append_inj_of_forall (fun _ => startsWith_marker hm) (fun _ => startsWith_marker hm')
    (hends hm) (hends hm') h
  simp only [List.cons.injEq, String.append_left_inj, String.append_right_inj, true_and] at h
  obtain ⟨hsignature, hbody, hrest⟩ := h
  refine ⟨?_, hrest⟩
  cases m
  cases m'
  simp only [mk.injEq]
  exact ⟨hdoc, (List.map_inj_right fun _ _ => (String.append_right_inj _).1).1 hmarkers,
    hsignature, hbody⟩

/-- What comes behind the notes on parameters: a method, or the end of the class. -/
lemma startsWith_methods {methods : List MethodBlock} (hmarked : ∀ m ∈ methods, m.IsMarked)
    (h : line ∈ (methods.flatMap lines ++ [bodyEnd]).head?) :
    StartsWith bodyEnd line ∨ StartsWith "    /**" line ∨ StartsWith "    @" line ∨
      StartsWith "    public " line := by
  cases methods with
  | nil =>
    obtain rfl : bodyEnd = line := Option.some.inj h
    exact .inl (by decide)
  | cons m methods =>
    rw [List.flatMap_cons, List.append_assoc] at h
    exact .inr (startsWith_of_mem_head? (hmarked m List.mem_cons_self) h)

/-- The methods of a class end at its closing brace. -/
lemma flatMap_lines_inj {methods methods' : List MethodBlock} (hmarked : ∀ m ∈ methods, m.IsMarked)
    (hmarked' : ∀ m ∈ methods', m.IsMarked)
    (h : methods.flatMap lines ++ [bodyEnd] = methods'.flatMap lines ++ [bodyEnd]) :
    methods = methods' := by
  have hbrace : ∀ {m : MethodBlock} {tail : List String}, m.IsMarked →
      [bodyEnd] ≠ m.lines ++ tail := by
    intro m tail hm hlines
    have hfirst : bodyEnd ∈ (m.lines ++ tail).head? := by
      rw [← hlines]
      rfl
    exact absurd (startsWith_of_mem_head? hm hfirst) (by decide)
  induction methods generalizing methods' with
  | nil =>
    cases methods' with
    | nil => rfl
    | cons m' methods' =>
      rw [List.flatMap_cons, List.append_assoc] at h
      exact absurd h (hbrace (hmarked' m' List.mem_cons_self))
  | cons m methods ih =>
    cases methods' with
    | nil =>
      rw [List.flatMap_cons, List.append_assoc] at h
      exact absurd h.symm (hbrace (hmarked m List.mem_cons_self))
    | cons m' methods' =>
      rw [List.flatMap_cons, List.flatMap_cons, List.append_assoc, List.append_assoc] at h
      obtain ⟨rfl, hmore⟩ :=
        lines_append_inj (hmarked m List.mem_cons_self) (hmarked' m' List.mem_cons_self) h
      rw [ih (fun n hn => hmarked n (List.mem_cons_of_mem _ hn))
        (fun n hn => hmarked' n (List.mem_cons_of_mem _ hn))
        hmore]

end MethodBlock

namespace ClassLayout

variable {c d : ClassLayout} {rest rest' : List String}

/-- The package block ends where the imports begin, and it is there exactly when the package is not
empty. -/
lemma packageLines_append_inj {package package' : String}
    (hrest : ∀ line ∈ rest.head?, StartsWith "import " line)
    (hrest' : ∀ line ∈ rest'.head?, StartsWith "import " line)
    (h : packageLines package ++ rest = packageLines package' ++ rest') :
    package = package' ∧ rest = rest' := by
  have hblock : ∀ {name : String} {lines tail : List String},
      (∀ line ∈ lines.head?, StartsWith "import " line) →
      lines ≠ ("package " ++ name ++ ";") :: tail := by
    rintro name lines tail hlines rfl
    have hpackage : StartsWith "package " ("package " ++ name ++ ";") :=
      (Text.startsWith_append _ _).append _
    exact hpackage.not_startsWith (by decide) (by decide) (hlines _ rfl)
  unfold packageLines at h
  split at h
  · rename_i hempty
    split at h
    · rename_i hempty'
      rw [String.isEmpty_iff] at hempty hempty'
      exact ⟨hempty.trans hempty'.symm, h⟩
    · exact absurd h (hblock hrest)
  · split at h
    · exact absurd h.symm (hblock hrest')
    · simpa using h

lemma startsWith_import {names : List String} {line : String}
    (h : line ∈ names.map fun name => "import " ++ name ++ ";") : StartsWith "import " line := by
  obtain ⟨name, -, rfl⟩ := List.mem_map.1 h
  exact (Text.startsWith_append _ _).append _

lemma startsWith_note {params : List String} {line : String}
    (h : line ∈ params.map ("    // resource param " ++ ·)) :
    StartsWith "    // resource param " line := by
  obtain ⟨note, -, rfl⟩ := List.mem_map.1 h
  exact Text.startsWith_append _ _

/-- Behind the package block there is always an import. -/
lemma startsWith_import_of_mem_head? {imports : List String} {line : String}
    (h : line ∈ ((imports ++ standardImports).map
      (fun name => "import " ++ name ++ ";") ++ rest).head?) :
    StartsWith "import " line := by
  have hne : (imports ++ standardImports).map (fun name => "import " ++ name ++ ";") ≠ [] := by
    simp [standardImports]
  rw [List.head?_append_of_ne_nil _ hne] at h
  exact startsWith_import (List.mem_of_mem_head? h)

/-- The imports of a unit end three lines before the blank line. -/
lemma imports_append_inj {imports imports' : List String}
    (h : (imports ++ standardImports).map (fun name => "import " ++ name ++ ";") ++ "" :: rest =
      (imports' ++ standardImports).map (fun name => "import " ++ name ++ ";") ++ "" :: rest') :
    imports = imports' ∧ rest = rest' := by
  have hblank : ∀ {tail : List String}, ∀ line ∈ ("" :: tail).head?,
      ¬StartsWith "import " line := by
    rintro tail line ⟨⟩
    decide
  obtain ⟨hlines, hrest⟩ :=
    append_inj_of_forall (fun _ => startsWith_import) (fun _ => startsWith_import) hblank hblank h
  have hnames := (List.map_inj_right fun _ _ hname =>
    (String.append_right_inj _).1 ((String.append_left_inj _).1 hname)).1 hlines
  exact ⟨List.append_cancel_right hnames, (List.cons.inj hrest).2⟩

lemma startsWith_opening (name : String) :
    StartsWith "public class " ("public class " ++ name ++ bodyStart) :=
  (Text.startsWith_append _ _).append _

/-- The annotations end at the line that opens the class. -/
lemma annotations_append_inj {name name' : String} (hc : c.IsMarked) (hd : d.IsMarked)
    (h : c.annotations ++ ("public class " ++ name ++ bodyStart) :: rest =
      d.annotations ++ ("public class " ++ name' ++ bodyStart) :: rest') :
    c.annotations = d.annotations ∧ name = name' ∧ rest = rest' := by
  have hopens : ∀ {name : String} {tail : List String},
      ∀ line ∈ (("public class " ++ name ++ bodyStart) :: tail).head?, ¬StartsWith "@" line := by
    rintro name tail line ⟨⟩
    exact (startsWith_opening name).not_startsWith (by decide) (by decide)
  obtain ⟨hannotations, h⟩ := append_inj_of_forall hc.annotations hd.annotations hopens hopens h
  simp only [List.cons.injEq, String.append_left_inj, String.append_right_inj] at h
  exact ⟨hannotations, h⟩

/-- The notes on parameters end at the first method, or at the end of the class. -/
lemma resourceParams_append_inj (hc : c.IsMarked) (hd : d.IsMarked)
    (h : c.resourceParams.map ("    // resource param " ++ ·) ++
      (c.methods.flatMap MethodBlock.lines ++ [bodyEnd]) =
      d.resourceParams.map ("    // resource param " ++ ·) ++
        (d.methods.flatMap MethodBlock.lines ++ [bodyEnd])) :
    c.resourceParams = d.resourceParams ∧ c.methods = d.methods := by
  have hends : ∀ {e : ClassLayout}, e.IsMarked →
      ∀ line ∈ (e.methods.flatMap MethodBlock.lines ++ [bodyEnd]).head?,
      ¬StartsWith "    // resource param " line := by
    intro e he line hline
    rcases MethodBlock.startsWith_methods he.methods hline with
      hstart | hstart | hstart | hstart <;>
      exact hstart.not_startsWith (by decide) (by decide)
  obtain ⟨hnotes, hmethods⟩ :=
    append_inj_of_forall (fun _ => startsWith_note) (fun _ => startsWith_note)
      (hends hc) (hends hd) h
  exact ⟨(List.map_inj_right fun _ _ => (String.append_right_inj _).1).1 hnotes,
    MethodBlock.flatMap_lines_inj hc.methods hd.methods hmethods⟩

/-- The doc comment of a class is followed by an annotation or by the line that opens the class. -/
lemma not_opens_doc (hc : c.IsMarked) {name : String} :
    "" ++ "/**" ∉ (c.annotations ++ ("public class " ++ name ++ bodyStart) :: rest).head? := by
  intro hopen
  rcases mem_or_eq_of_mem_head? hopen with hmarker | hopens
  · exact absurd (hc.annotations _ hmarker) (by decide)
  · have hpublic := startsWith_opening name
    rw [← hopens] at hpublic
    exact absurd hpublic (by decide)

/-- The lines of a class determine all its parts. -/
lemma eq_of_lines_eq (hc : c.IsMarked) (hd : d.IsMarked) (h : c.lines = d.lines) : c = d := by
  rw [lines_eq, lines_eq] at h
  obtain ⟨hpackage, h⟩ := packageLines_append_inj (fun _ => startsWith_import_of_mem_head?)
    (fun _ => startsWith_import_of_mem_head?) h
  obtain ⟨himports, h⟩ := imports_append_inj h
  obtain ⟨hdoc, h⟩ := docComment_append_inj (not_opens_doc hc) (not_opens_doc hd) h
  obtain ⟨hannotations, hname, h⟩ := annotations_append_inj hc hd h
  obtain ⟨hparams, hmethods⟩ := resourceParams_append_inj hc hd (List.cons.inj h).2
  cases c
  cases d
  simp only [mk.injEq]
  exact ⟨hpackage, himports, hdoc, hannotations, hname, hparams, hmethods⟩

end ClassLayout

/-- Layouts that are laid out alike are equal, if their texts stand on one line and they are marked;
and every rendered class is laid out from a marked layout. -/
theorem ClassLayout.eq_of_source_eq :
    (∀ (u : CompilationUnit) (out : List Controller), u.controllers = .ok out → ∀ controller ∈ out,
      ∃ c : ClassLayout, c.IsMarked ∧ c.className = controller.className ∧
        c.source = controller.source) ∧
    ∀ c d : ClassLayout, c.IsMarked → d.IsMarked → (∀ text ∈ c.texts, OneLine text) →
      (∀ text ∈ d.texts, OneLine text) →
      c.source = d.source → c = d := by
  constructor
  · intro u out hout controller hcontroller
    obtain ⟨-, -, rfl⟩ := CompilationUnit.controllers_eq_ok_iff.1 hout
    obtain ⟨n, -, rfl⟩ := List.mem_map.1 hcontroller
    refine ⟨n.layout u, n.isMarked_layout u, ?_, ?_⟩
    · simp only [Node.layout, Node.controller]
    · simp only [Node.controller]
  · intro c d hc hd hctexts hdtexts hsource
    exact eq_of_lines_eq hc hd
      (Text.eq_of_join_eq (oneLine_lines hctexts) (oneLine_lines hdtexts) hsource)

/-- A resource with texts that look like lines of the class. -/
def archiveResource : Resource :=
  .mk "/archive" [.doc "/**\n*/\n\n", .marker "RestController"]
    [{ name := "tenant", type := .simple "String" }] []

/-- An endpoint with texts that look like lines of the class. -/
def archiveEndpoint : Endpoint where
  verb := .get
  paths := ["/{id}"]
  annotations := [.doc ("    public class Archive" ++ bodyStart)]
  modifiers := [.tx]

/-- The layout of the archive, written out. -/
def archiveLayout : ClassLayout where
  package := "org.archive"
  imports := ["java.util.*"]
  docLines := ["/**", "*/"]
  annotations := ["@RestController"]
  className := "ArchiveController"
  resourceParams := ["tenant : String"]
  methods := [{
    docLines := ["    public class Archive" ++ bodyStart]
    markers := ["@Transactional", "@GetMapping(\"/archive/{id}\")"]
    signature := "public void __id_()"
    body := "// TODO" }]

theorem eq_of_source_eq_archive :
    (archiveResource.layout ⟨"org.archive", ["java.util.*"], ⟨[]⟩⟩
      [archiveEndpoint.methodBlock ["/archive"]]).source =
        archiveLayout.source ∧
      archiveResource.layout ⟨"org.archive", ["java.util.*"], ⟨[]⟩⟩
        [archiveEndpoint.methodBlock ["/archive"]] =
        archiveLayout := by
  have hsource : (archiveResource.layout ⟨"org.archive", ["java.util.*"], ⟨[]⟩⟩
      [archiveEndpoint.methodBlock ["/archive"]]).source = archiveLayout.source := by decide +kernel
  refine ⟨hsource, ClassLayout.eq_of_source_eq.2 _ _ ⟨?_, ?_⟩ ⟨?_, ?_⟩ ?_ ?_ hsource⟩
  · intro marker hmarker
    exact Annotation.startsWith_of_mem_markers hmarker
  · intro m hm
    obtain rfl := List.mem_singleton.1 hm
    exact archiveEndpoint.isMarked_methodBlock _
  · decide +kernel
  · intro m hm
    obtain rfl := List.mem_singleton.1 hm
    exact ⟨by decide +kernel, by decide +kernel⟩
  · decide +kernel
  · decide +kernel

end ResourceStubs
