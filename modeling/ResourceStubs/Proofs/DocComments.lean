import Mathlib.Data.List.DropRight
import Mathlib.Data.List.Forall2
import ResourceStubs.Annotation
import ResourceStubs.Proofs.Cutting

/-!
# Doc comments

What a list of annotations contributes to generated code: the lines of a doc comment, from the first
`Doc` that carries a text, and one marker for each annotation that is no `Doc`.

The lines are described without the way they are found (`Annotation.LinesOf`). Put together again,
they give the text up to the line feeds at its end. The induction behind this is over the lines: a
line feed at the end of the text is an empty line at the end of the list, and the two disappear
together (`Annotation.intercalate_dropBlankTail`). Only the first line cannot disappear, so an empty
text still has a line.
-/

namespace ResourceStubs.Annotation

/-! ## Dropping at the end -/

/-- What is dropped at the end of a list goes beyond an element only if everything behind it is
dropped. -/
lemma rdropWhile_append_cons {α : Type} (p : α → Bool) (xs : List α) (x : α) (ys : List α) :
    (xs ++ x :: ys).rdropWhile p =
      if ys.rdropWhile p = [] ∧ p x then xs.rdropWhile p else xs ++ x :: ys.rdropWhile p := by
  have hreverse : (xs ++ x :: ys).reverse = ys.reverse ++ x :: xs.reverse := by simp
  simp only [List.rdropWhile, hreverse, List.dropWhile_append, List.isEmpty_iff,
    List.reverse_eq_nil_iff]
  by_cases hys : ys.reverse.dropWhile p = []
  · by_cases hx : p x
    · rw [if_pos hys, if_pos ⟨hys, hx⟩, List.dropWhile_cons_of_pos hx]
    · rw [if_pos hys, if_neg fun h => hx h.2, List.dropWhile_cons_of_neg hx, hys]
      simp
  · rw [if_neg hys, if_neg fun h => hys h.1]
    simp

lemma dropBlankTail_cons (line : List Char) (rest : List (List Char)) :
    dropBlankTail (line :: rest) =
      if dropBlankTail rest = [[]] then [line] else line :: dropBlankTail rest := by
  rw [dropBlankTail]
  split
  · rename_i hblank
    rw [if_pos hblank]
  · rename_i hkept
    rw [if_neg hkept]

lemma dropBlankTail_ne_nil {lines : List (List Char)} (h : lines ≠ []) :
    dropBlankTail lines ≠ [] := by
  obtain ⟨line, rest, rfl⟩ := List.exists_cons_of_ne_nil h
  rw [dropBlankTail_cons]
  split <;> exact List.cons_ne_nil _ _

lemma mem_of_mem_dropBlankTail {lines : List (List Char)} {line : List Char}
    (h : line ∈ dropBlankTail lines) :
    line ∈ lines := by
  induction lines with
  | nil => exact h
  | cons first rest ih =>
    rw [dropBlankTail_cons] at h
    split at h
    · rw [List.mem_singleton.1 h]
      exact List.mem_cons_self
    · rcases List.mem_cons.1 h with rfl | h
      · exact List.mem_cons_self
      · exact List.mem_cons_of_mem first (ih h)

/-- The last line is empty only if it is the only one. -/
lemma getLast?_dropBlankTail {lines : List (List Char)} (h : (dropBlankTail lines).length ≠ 1) :
    (dropBlankTail lines).getLast? ≠ some [] := by
  induction lines with
  | nil => simp [dropBlankTail]
  | cons line rest ih =>
    rw [dropBlankTail_cons] at h ⊢
    by_cases hblank : dropBlankTail rest = [[]]
    · rw [if_pos hblank] at h
      exact absurd List.length_singleton h
    rw [if_neg hblank] at h ⊢
    cases hkept : dropBlankTail rest with
    | nil =>
      rw [hkept] at h
      exact absurd List.length_singleton h
    | cons first more =>
      rw [List.getLast?_cons_cons, ← hkept]
      by_cases hsole : (dropBlankTail rest).length = 1
      · obtain ⟨last, hlast⟩ := List.length_eq_one_iff.1 hsole
        rw [hlast] at hblank ⊢
        simpa using hblank
      · exact ih hsole

lemma intercalate_ne_nil {first : List Char} {more : List (List Char)} (h : first :: more ≠ [[]]) :
    ['\n'].intercalate (first :: more) ≠ [] := by
  cases more with
  | nil => simpa using h
  | cons next more => simp [List.intercalate_cons_cons]

/-- Empty lines at the end and line feeds at the end disappear together. -/
lemma intercalate_dropBlankTail {lines : List (List Char)} (h : ∀ line ∈ lines, '\n' ∉ line) :
    ['\n'].intercalate (dropBlankTail lines) =
      (['\n'].intercalate lines).rdropWhile (· == '\n') := by
  induction lines with
  | nil => rfl
  | cons line rest ih =>
    have hline : line.rdropWhile (· == '\n') = line := by
      refine List.rdropWhile_eq_self_iff.2 fun hne hlast => ?_
      exact h line List.mem_cons_self (eq_of_beq hlast ▸ List.getLast_mem hne)
    have hrest := ih fun other hother => h other (List.mem_cons_of_mem line hother)
    cases rest with
    | nil =>
      have hsole : dropBlankTail [line] = [line] := rfl
      rw [hsole, List.intercalate_singleton, hline]
    | cons next more =>
      have htext : ['\n'].intercalate (line :: next :: more) =
          line ++ '\n' :: ['\n'].intercalate (next :: more) := by
        rw [List.intercalate_cons_cons, List.append_assoc, List.singleton_append]
      rw [htext, rdropWhile_append_cons, ← hrest, dropBlankTail_cons]
      by_cases hblank : dropBlankTail (next :: more) = [[]]
      · -- nothing but line feeds is behind this line
        rw [if_pos hblank, hblank, if_pos ⟨List.intercalate_singleton, beq_self_eq_true _⟩, hline,
          List.intercalate_singleton]
      · obtain ⟨first, others, hkept⟩ :=
          List.exists_cons_of_ne_nil (dropBlankTail_ne_nil (List.cons_ne_nil next more))
        rw [hkept] at hblank ⊢
        rw [if_neg hblank, if_neg fun hnil => intercalate_ne_nil hblank hnil.1,
          List.intercalate_cons_cons, List.append_assoc, List.singleton_append]

/-! ## The lines of a doc comment -/

/-- The lines show the text: they are its lines, without the line feeds at its end. -/
structure LinesOf (s : String) (lines : List String) : Prop where
  /-- There is a line, even for the empty text. -/
  nonempty : lines ≠ []
  /-- Lines are not broken again. -/
  oneLine : ∀ line ∈ lines, '\n' ∉ line.toList
  /-- Together the lines give the text without the line feeds at its end. -/
  joined : ("\n".intercalate lines).toList = s.toList.rdropWhile (· == '\n')
  /-- The last line is empty only if it is the only one. -/
  last : lines.length = 1 ∨ lines.getLast? ≠ some ""

lemma linesOf_textLines (s : String) : LinesOf s (textLines s) := by
  have hparts : ∀ line ∈ s.toList.splitOn '\n', '\n' ∉ line := fun line hline hbreak =>
    (mem_and_ne_of_mem_splitOn hline hbreak).2 rfl
  constructor
  case nonempty =>
    rw [textLines, ne_eq, List.map_eq_nil_iff]
    exact dropBlankTail_ne_nil (List.splitOn_ne_nil '\n' s.toList)
  case oneLine =>
    intro line hline
    obtain ⟨chars, hchars, rfl⟩ := List.mem_map.1 hline
    rw [String.toList_ofList]
    exact hparts chars (mem_of_mem_dropBlankTail hchars)
  case joined =>
    have hbreak : "\n".toList = ['\n'] := rfl
    have hchars : String.toList ∘ String.ofList = id := funext fun _ => String.toList_ofList
    rw [String.toList_intercalate, textLines, List.map_map, hchars, List.map_id, hbreak,
      intercalate_dropBlankTail hparts, List.intercalate_splitOn]
  case last =>
    rw [textLines, List.length_map, List.getLast?_map]
    by_cases hsole : (dropBlankTail (s.toList.splitOn '\n')).length = 1
    · exact .inl hsole
    · refine .inr fun hlast => getLast?_dropBlankTail hsole ?_
      obtain ⟨chars, hchars, hempty⟩ := Option.map_eq_some_iff.1 hlast
      rw [hchars, String.ofList_eq_empty_iff.1 hempty]

/-! ## Annotations -/

/-- The annotation is a `Doc` whose positional argument is the text. -/
def CarriesDoc (a : Annotation) (s : String) : Prop :=
  a.name = "Doc" ∧ a.positionalArg = some (.string s)

lemma isDoc_iff {a : Annotation} : a.isDoc = true ↔ a.name = "Doc" :=
  beq_iff_eq

lemma docText?_eq_some_iff {a : Annotation} {s : String} :
    a.docText? = some s ↔ a.CarriesDoc s := by
  unfold docText? CarriesDoc
  rw [← isDoc_iff]
  cases hdoc : a.isDoc with
  | false => simp
  | true =>
    cases hvalue : a.positionalArg with
    | none => simp
    | some value => cases value <;> simp

lemma docText?_eq_none_iff {a : Annotation} : a.docText? = none ↔ ∀ s, ¬a.CarriesDoc s := by
  simp only [Option.eq_none_iff_forall_ne_some, ne_eq, docText?_eq_some_iff]

/-- Either no annotation carries a text, or the first one that does gives the lines. -/
lemma docLines_cases (annotations : List Annotation) :
    (∀ a ∈ annotations, ∀ s, ¬a.CarriesDoc s) ∧ docLines annotations = [] ∨
      ∃ before a after s, annotations = before ++ a :: after ∧
        (∀ b ∈ before, ∀ t, ¬b.CarriesDoc t) ∧ a.CarriesDoc s ∧
        docLines annotations = textLines s := by
  unfold docLines
  cases hfound : annotations.findSome? docText? with
  | none =>
    have hnone := List.findSome?_eq_none_iff.1 hfound
    exact .inl ⟨fun a ha => docText?_eq_none_iff.1 (hnone a ha), rfl⟩
  | some s =>
    obtain ⟨before, a, after, hsplit, ha, hbefore⟩ := List.findSome?_eq_some_iff.1 hfound
    exact .inr ⟨before, a, after, s, hsplit, fun b hb => docText?_eq_none_iff.1 (hbefore b hb),
      docText?_eq_some_iff.1 ha, rfl⟩

lemma forall₂_markers (annotations : List Annotation) :
    List.Forall₂ (fun a line => line = a.text) (annotations.filter (·.name ≠ "Doc"))
      (markers annotations) := by
  have hfilter : annotations.filter (!·.isDoc) = annotations.filter (·.name ≠ "Doc") :=
    List.filter_congr fun a _ => by simp [isDoc, docName, beq_eq_decide]
  rw [markers, hfilter, List.forall₂_map_right_iff, List.forall₂_same]
  exact fun _ _ => rfl

/-- A `Doc` is no marker, whatever it carries. -/
lemma markers_insert_of_doc {a : Annotation} (h : a.name = "Doc") (before after : List Annotation) :
    markers (before ++ a :: after) = markers (before ++ after) := by
  simp [markers, isDoc_iff.2 h]

/-- What is no `Doc` does not change the doc comment, whatever it carries. -/
lemma docLines_insert_of_not_doc {a : Annotation} (h : a.name ≠ "Doc")
    (before after : List Annotation) :
    docLines (before ++ a :: after) = docLines (before ++ after) := by
  have hnone : a.docText? = none := docText?_eq_none_iff.2 fun _ ha => h ha.1
  simp only [docLines, List.findSome?_append, List.findSome?_cons, hnone]

/-- A list of annotations has no doc comment, or its doc comment shows the text of the first `Doc`
that carries one, all lines of it up to the line feeds at its end. The markers are one for each
annotation that is no `Doc`, in order. So no annotation is shown twice: taken out of the list, a
`Doc` leaves the markers and any other annotation leaves the doc comment as they are. -/
theorem docLines_markers_separate (annotations : List Annotation) :
    ((∀ a ∈ annotations, ∀ s, ¬a.CarriesDoc s) ∧ docLines annotations = [] ∨
        ∃ before a after s, annotations = before ++ a :: after ∧
          (∀ b ∈ before, ∀ t, ¬b.CarriesDoc t) ∧
          a.CarriesDoc s ∧ LinesOf s (docLines annotations)) ∧
      List.Forall₂ (fun a line => line = a.text) (annotations.filter (·.name ≠ "Doc"))
        (markers annotations) ∧
      ∀ before a after, annotations = before ++ a :: after →
        a.name = "Doc" ∧ markers annotations = markers (before ++ after) ∨
          a.name ≠ "Doc" ∧ docLines annotations = docLines (before ++ after) := by
  refine ⟨?_, forall₂_markers annotations, ?_⟩
  · rcases docLines_cases annotations with hnone |
      ⟨before, a, after, s, hsplit, hbefore, ha, hlines⟩
    · exact .inl hnone
    · exact .inr ⟨before, a, after, s, hsplit, hbefore, ha, hlines ▸ linesOf_textLines s⟩
  · rintro before a after rfl
    by_cases h : a.name = "Doc"
    · exact .inl ⟨h, markers_insert_of_doc h before after⟩
    · exact .inr ⟨h, docLines_insert_of_not_doc h before after⟩

/-- Annotations of which the first `Doc` carries a number and the second one a text with an empty
line inside and two at its end. -/
def noteAnnotations : List Annotation :=
  [positional "Doc" (.int 7), marker "Deprecated", doc "First\n\nlast\n\n", doc "other"]

theorem docLines_markers_separate_note :
    docLines noteAnnotations = ["First", "", "last"] ∧
      (∃ before a after s, noteAnnotations = before ++ a :: after ∧
        (∀ b ∈ before, ∀ t, ¬b.CarriesDoc t) ∧ a.CarriesDoc s ∧
        LinesOf s ["First", "", "last"]) ∧
      List.Forall₂ (fun a line => line = a.text) [marker "Deprecated"] (markers noteAnnotations) ∧
      docLines noteAnnotations = docLines (noteAnnotations.eraseIdx 1) ∧
      markers noteAnnotations = markers (noteAnnotations.eraseIdx 2) := by
  have hlines : docLines noteAnnotations = ["First", "", "last"] := by decide +kernel
  obtain ⟨hfirst, hmarkers, hapart⟩ := docLines_markers_separate noteAnnotations
  rw [hlines] at hfirst
  obtain ⟨-, hdocLines⟩ : _ ∧ docLines noteAnnotations = docLines (noteAnnotations.eraseIdx 1) :=
    (hapart [positional "Doc" (.int 7)] (marker "Deprecated") (noteAnnotations.drop 2)
      rfl).resolve_left fun h =>
      absurd h.1 (by decide)
  obtain ⟨-, hmarkers'⟩ : _ ∧ markers noteAnnotations = markers (noteAnnotations.eraseIdx 2) :=
    (hapart (noteAnnotations.take 2) (doc "First\n\nlast\n\n") [doc "other"] rfl).resolve_right
      fun h => h.1 rfl
  exact ⟨hlines, hfirst.resolve_left fun h => absurd h.2 (by decide), hmarkers, hdocLines,
    hmarkers'⟩

end ResourceStubs.Annotation
