import Mathlib.Data.List.TakeWhile
import ResourceStubs.OutputDir
import ResourceStubs.Proofs.ClassText
import ResourceStubs.Proofs.Paths

/-!
# Packages and directories

A class has to lie in the directory that its package line names. The two are made by different
means: the line repeats the package name, while the directory is found by cutting the name at its
dots and joining one segment after the other to the root. They agree for every root and every white
space around the name, as long as each segment is the name of a directory
(`CompilationUnit.package_agrees`). Without a package there is no line, and the root itself is the
directory.
-/

namespace ResourceStubs

open Text (StartsWith)

/-- The text can stand between the dots of a package name and names a directory. -/
structure IsPackageSegment (segment : String) : Prop where
  nonempty : segment ≠ ""
  noDot : '.' ∉ segment.toList
  noSlash : '/' ∉ segment.toList

lemma IsPackageSegment.isEntryName {segment : String} (h : IsPackageSegment segment) :
    Path.IsEntryName segment where
  nonempty := h.nonempty
  noSlash := h.noSlash
  notDot := by
    rintro rfl
    exact h.noDot (by decide)
  notDots := by
    rintro rfl
    exact h.noDot (by decide)

/-! ## The directory -/

/-- Joining names of entries one after the other adds them as components. -/
lemma Path.components_foldl_join {segments : List String}
    (h : ∀ segment ∈ segments, IsEntryName segment) (root : String) :
    components (segments.foldl join root) = components root ++ segments.map .name := by
  induction segments generalizing root with
  | nil => simp
  | cons segment rest ih =>
    rw [List.foldl_cons, ih (fun s hs => h s (List.mem_cons_of_mem segment hs)),
      components_join (h segment List.mem_cons_self), List.append_assoc, List.map_cons,
      List.singleton_append]

/-- A name made of segments is cut into these segments. -/
lemma packageSegments_intercalate {segments : List String} (hne : segments ≠ [])
    (h : ∀ segment ∈ segments, IsPackageSegment segment) :
    packageSegments (".".intercalate segments) = segments := by
  have hdots : ∀ part ∈ segments.map String.toList, '.' ∉ part := by
    intro part hpart
    obtain ⟨segment, hsegment, rfl⟩ := List.mem_map.1 hpart
    exact (h segment hsegment).noDot
  have hdot : ".".toList = ['.'] := rfl
  have hmap : segments.map String.toList ≠ [] := by simpa using hne
  rw [packageSegments, String.toList_intercalate, hdot, List.splitOn_intercalate '.' hdots hmap,
    List.map_map]
  simp

lemma intercalate_ne_empty {segments : List String} (hne : segments ≠ [])
    (h : ∀ segment ∈ segments, IsPackageSegment segment) : ".".intercalate segments ≠ "" := by
  intro hempty
  have hcut := packageSegments_intercalate hne h
  rw [hempty] at hcut
  have hsegment := h "" (by rw [← hcut]; decide)
  exact hsegment.nonempty rfl

lemma Text.trim_eq_empty {s : String} (h : ∀ c ∈ s.toList, isBlank c = true) : trim s = "" := by
  have hdropped : s.toList.dropWhile isBlank = [] := List.dropWhile_eq_nil_iff.2 h
  rw [trim, trimList, hdropped]
  rfl

/-! ## The first lines of a class -/

namespace ClassLayout

/-- The text of a class starts with the text of its first lines. -/
lemma startsWith_source {c : ClassLayout} {first rest : List String} (h : c.lines = first ++ rest) :
    StartsWith (String.join (first.map (· ++ "\n"))) c.source := by
  rw [source, h, List.map_append, String.join_append]
  exact Text.startsWith_append _ _

lemma startsWith_source_of_package {c : ClassLayout} (h : c.package ≠ "") :
    StartsWith ("package " ++ c.package ++ ";\n\n") c.source := by
  have hlines : packageLines c.package = ["package " ++ c.package ++ ";", ""] := by
    simp [packageLines, h]
  have hjoin : String.join (["package " ++ c.package ++ ";", ""].map (· ++ "\n")) =
      "package " ++ c.package ++ ";\n\n" := by
    simp only [List.map_cons, List.map_nil, String.join_cons, String.join_nil, String.append_assoc]
    rfl
  rw [← hjoin, ← hlines]
  exact startsWith_source c.lines_eq

lemma startsWith_source_of_no_package {c : ClassLayout} (h : c.package = "") :
    StartsWith "import " c.source := by
  have hnone : packageLines "" = [] := rfl
  have hhead : ∀ line ∈ c.lines.head?, StartsWith "import " line := by
    intro line hline
    rw [c.lines_eq, h, hnone, List.nil_append] at hline
    exact startsWith_import_of_mem_head? hline
  have hne : c.lines ≠ [] := by simp [lines_eq]
  obtain ⟨line, rest, hlines⟩ := List.exists_cons_of_ne_nil hne
  have hsource : StartsWith (String.join ([line].map (· ++ "\n"))) c.source :=
    startsWith_source hlines
  have hline : StartsWith "import " (line ++ "\n") := (hhead line (by rw [hlines]; rfl)).append _
  exact hline.trans (by simpa using hsource)

end ClassLayout

/-- A unit that renders writes its classes where their package lines say. If the package name,
without the white space around it, consists of segments that name directories, these directories lie
one in the other below the root, and every class starts with the line of the whole name and a blank
line. If there is no package, or nothing but white space, the classes lie in the root itself and
start with their imports. -/
theorem CompilationUnit.package_agrees {u : CompilationUnit} {out : List Controller}
    (h : u.controllers = .ok out) (root : String) :
    (∀ package segments, u.package = some package → Text.trim package = ".".intercalate segments →
      segments ≠ [] →
      (∀ segment ∈ segments, IsPackageSegment segment) →
        Path.components (u.outputDir root) = Path.components root ++ segments.map .name ∧
        ∀ c ∈ out, StartsWith ("package " ++ ".".intercalate segments ++ ";\n\n") c.source) ∧
    ((∀ package ∈ u.package, ∀ c ∈ package.toList, Text.isBlank c = true) →
      u.outputDir root = root ∧ ∀ c ∈ out, StartsWith "import " c.source) := by
  obtain ⟨-, -, rfl⟩ := controllers_eq_ok_iff.1 h
  have hsource : ∀ n : Node, (n.controller u).source = (n.layout u).source :=
    fun n => by simp only [Node.controller]
  have hlayout : ∀ n : Node, (n.layout u).package = u.packageName :=
    fun n => by simp only [Node.layout, packageName]
  constructor
  · intro package segments hpackage htrim hne hsegments
    have hname : u.packageName = ".".intercalate segments := by
      rw [packageName, hpackage, Option.getD_some, htrim]
    have hfilled : u.packageName ≠ "" := by
      rw [hname]
      exact intercalate_ne_empty hne hsegments
    constructor
    · have hdir : u.outputDir root = segments.foldl Path.join root := by
        rw [outputDir, if_neg (by simpa using hfilled), hname,
          packageSegments_intercalate hne hsegments]
      rw [hdir]
      exact Path.components_foldl_join
        (fun segment hsegment => (hsegments segment hsegment).isEntryName) root
    · intro c hc
      obtain ⟨n, -, rfl⟩ := List.mem_map.1 hc
      rw [hsource, ← hname, ← hlayout n]
      exact ClassLayout.startsWith_source_of_package (by rw [hlayout]; exact hfilled)
  · intro hblank
    have hname : u.packageName = "" := by
      unfold packageName
      cases hpackage : u.package with
      | none => rfl
      | some package => exact Text.trim_eq_empty (hblank package hpackage)
    constructor
    · rw [outputDir, if_pos (by simpa using hname)]
    · intro c hc
      obtain ⟨n, -, rfl⟩ := List.mem_map.1 hc
      rw [hsource]
      exact ClassLayout.startsWith_source_of_no_package ((hlayout n).trans hname)

/-- A unit with one class and the given package. -/
def bookUnit (package : String) : CompilationUnit where
  package := some package
  resources := [.mk "/books" [] [] []]

theorem package_agrees_padded :
    (∃ out, (bookUnit "\u2003org .library\u00a0").controllers = .ok out ∧
      Path.components ((bookUnit "\u2003org .library\u00a0").outputDir "./out//") =
        Path.components "./out//" ++ [.name "org ", .name "library"] ∧
      ∀ c ∈ out, StartsWith ("package " ++ ".".intercalate ["org ", "library"] ++ ";\n\n")
        c.source) ∧
    ∃ out, (bookUnit "\u3000\n").controllers = .ok out ∧
      (bookUnit "\u3000\n").outputDir "" = "" ∧ ∀ c ∈ out, StartsWith "import " c.source := by
  have hsegments : ∀ segment ∈ ["org ", "library"], IsPackageSegment segment := by
    simp only [List.forall_mem_cons, List.not_mem_nil, false_implies, implies_true, and_true]
    exact ⟨⟨by decide, by decide, by decide⟩, ⟨by decide, by decide, by decide⟩⟩
  have htrim : Text.trim "\u2003org .library\u00a0" = ".".intercalate ["org ", "library"] := by
    decide +kernel
  have hblank : ∀ package ∈ (bookUnit "\u3000\n").package, ∀ c ∈ package.toList,
      Text.isBlank c = true := by
    rintro package ⟨⟩
    exact List.forall_iff_forall_mem.1 (by decide +kernel)
  exact
    ⟨⟨_, rfl, (CompilationUnit.package_agrees rfl "./out//").1 _ _ rfl htrim (by simp) hsegments⟩,
      ⟨_, rfl, (CompilationUnit.package_agrees rfl "").2 hblank⟩⟩

end ResourceStubs
