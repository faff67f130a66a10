import Mathlib.Data.List.Forall2
import ResourceStubs.Proofs.Generation
import ResourceStubs.Proofs.Parameters

/-!
# Every generated name is a name

Class and method names are made from paths, which may hold any text: nothing at all, digits first,
slashes at the end, letters whose upper case is several characters. What comes out is a name in the
sense of `Text.IsName`, always, and so a class can be written to a file of its own name inside the
output directory (`CompilationUnit.names_safe`).

Everything rests on the clean-up `Text.identifier`. It is the identity on names and on nothing else,
it adds at most one character, and it treats a slash like any other foreign character, so that
replacing slashes first makes no difference.
-/

namespace ResourceStubs

namespace Text

/-- The text is a name: it has letters and digits of ASCII and underscores only, and does not start
with a digit. -/
def IsName (s : String) : Prop :=
  ∃ first rest, s.toList = first :: rest ∧ (first.isAlpha = true ∨ first = '_') ∧
    ∀ c ∈ rest, c.isAlphanum = true ∨ c = '_'

/-! ## The clean-up -/

lemma isNameStart_eq_true_iff {c : Char} : isNameStart c = true ↔ c.isAlpha = true ∨ c = '_' := by
  have hupper : ('A' ≤ c && c ≤ 'Z') = c.isUpper := (Bool.decide_and ('A' ≤ c) (c ≤ 'Z')).symm
  have hletter : isLetter c = (c.isLower || c.isUpper) := congrArg (c.isLower || ·) hupper
  have halpha : c.isAlpha = (c.isUpper || c.isLower) := rfl
  rw [isNameStart, hletter, halpha, Bool.or_comm c.isLower, Bool.or_eq_true, beq_iff_eq]

lemma nameChar_of_isNameChar {c : Char} (h : isNameChar c = true) : nameChar c = c := by
  rw [nameChar, if_pos h]

lemma isNameChar_of_isNameStart {c : Char} (h : isNameStart c = true) : isNameChar c = true := by
  rw [isNameChar, h, Bool.true_or]

/-- A name is left as it is. -/
lemma identifierList_of_name {first : Char} {rest : List Char} (hfirst : isNameStart first = true)
    (hrest : ∀ c ∈ rest, isNameChar c = true) : identifierList (first :: rest) = first :: rest := by
  have hmap : (first :: rest).map nameChar = first :: rest := by
    have hchars : ∀ c ∈ first :: rest, nameChar c = id c := by
      intro c hc
      rcases List.mem_cons.1 hc with rfl | hc
      · exact nameChar_of_isNameChar (isNameChar_of_isNameStart hfirst)
      · exact nameChar_of_isNameChar (hrest c hc)
    rw [List.map_congr_left hchars, List.map_id]
  rw [identifierList, hmap]
  exact if_pos hfirst

/-- The clean-up gives something that can start a name. -/
lemma exists_identifierList_eq_cons (cs : List Char) :
    ∃ first rest, identifierList cs = first :: rest ∧ isNameStart first = true := by
  have hunderscore : isNameStart '_' = true := by decide
  unfold identifierList
  split
  · exact ⟨'_', [], rfl, hunderscore⟩
  · rename_i c rest _
    split
    · rename_i hc
      exact ⟨c, rest, rfl, hc⟩
    · exact ⟨'_', c :: rest, rfl, hunderscore⟩

/-- At most an underscore is added. -/
lemma length_identifierList (cs : List Char) :
    (identifierList cs).length = cs.length ∨ (identifierList cs).length = cs.length + 1 := by
  have hlength : (cs.map nameChar).length = cs.length := List.length_map nameChar
  unfold identifierList
  split
  · rename_i hnil
    rw [hnil, List.length_nil] at hlength
    exact .inr (by rw [← hlength]; rfl)
  · rename_i c rest hcons
    rw [hcons] at hlength
    split
    · exact .inl hlength
    · exact .inr (by rw [← hlength]; rfl)

lemma isName_identifier (s : String) : IsName (identifier s) := by
  obtain ⟨first, rest, hlist, hfirst⟩ := exists_identifierList_eq_cons s.toList
  refine ⟨first, rest, ?_, isNameStart_eq_true_iff.1 hfirst, ?_⟩
  · rw [identifier, String.toList_ofList, hlist]
  · intro c hc
    apply isNameChar_eq_true_iff.1
    apply isNameChar_of_mem_identifierList
    rw [hlist]
    exact List.mem_cons_of_mem first hc

lemma identifier_of_isName {s : String} (h : IsName s) : identifier s = s := by
  obtain ⟨first, rest, hlist, hfirst, hrest⟩ := h
  have hname := identifierList_of_name (isNameStart_eq_true_iff.2 hfirst)
    (fun c hc => isNameChar_eq_true_iff.2 (hrest c hc))
  rw [identifier, hlist, hname, ← hlist, String.ofList_toList]

/-- The names are the texts that the clean-up leaves as they are. -/
lemma identifier_eq_self_iff {s : String} : identifier s = s ↔ IsName s := by
  constructor
  · intro h
    rw [← h]
    exact isName_identifier s
  · exact identifier_of_isName

lemma length_identifier (s : String) :
    (identifier s).length = s.length ∨ (identifier s).length = s.length + 1 := by
  rw [identifier, String.length_ofList, ← String.length_toList]
  exact length_identifierList s.toList

/-- Slashes become underscores in any case. -/
lemma methodName_eq_identifier (path : String) : methodName path = identifier path := by
  have hchar : ∀ c : Char, nameChar (if c == '/' then '_' else c) = nameChar c := by
    intro c
    split
    · rename_i hslash
      obtain rfl := beq_iff_eq.1 hslash
      decide
    · rfl
  rw [methodName, identifier, identifier, String.toList_ofList, identifierList, identifierList,
    List.map_map]
  simp only [Function.comp_def, hchar]

/-! ## Class names and their files -/

lemma IsName.append {s t : String} (hs : IsName s)
    (ht : ∀ c ∈ t.toList, c.isAlphanum = true ∨ c = '_') :
    IsName (s ++ t) := by
  obtain ⟨first, rest, hlist, hfirst, hrest⟩ := hs
  refine ⟨first, rest ++ t.toList, ?_, hfirst, ?_⟩
  · rw [String.toList_append, hlist, List.cons_append]
  · exact List.forall_mem_append.2 ⟨hrest, ht⟩

lemma isName_className (path : String) : IsName (className path) :=
  (isName_identifier _).append (List.forall_iff_forall_mem.1 (by decide))

end Text

/-- The path leads to one entry of the directory, which is named for the class and has no other dot
in its name. -/
structure Controller.IsStoredAt (c : Controller) (dir path : String) : Prop where
  joined : path = Path.join dir (c.className ++ ".java")
  components : Path.components path = Path.components dir ++ [.name (c.className ++ ".java")]
  plain : '/' ∉ c.className.toList ∧ '\x00' ∉ c.className.toList ∧ '.' ∉ c.className.toList

lemma Node.isStoredAt_path (u : CompilationUnit) (n : Node) (dir : String) :
    (n.controller u).IsStoredAt dir ((n.controller u).path dir) where
  joined := by simp only [Controller.path, Controller.fileName]
  components := Path.components_join (Controller.isEntryName_fileName rfl)
  plain := by
    have hforeign : ∀ c : Char, Text.isNameChar c = false →
        c ∉ (n.controller u).className.toList := by
      intro c hc hmem
      exact Bool.false_ne_true (hc.symm.trans (Text.isNameChar_of_mem_className hmem))
    exact ⟨hforeign '/' (by decide), hforeign '\x00' (by decide), hforeign '.' (by decide)⟩

/-- The clean-up turns every text into a name, leaves exactly the names as they are, adds at most
one character and is all there is to method names. So a unit that renders, whatever its paths are,
has names for its classes and for the methods in their signatures, and every file in the report of a
generation is the entry of the output directory that is named for its class. -/
theorem CompilationUnit.names_safe :
    (∀ s : String, Text.IsName (Text.identifier s) ∧ (Text.identifier s = s ↔ Text.IsName s) ∧
      Text.identifier (Text.identifier s) = Text.identifier s ∧
      ((Text.identifier s).length = s.length ∨ (Text.identifier s).length = s.length + 1) ∧
      Text.methodName s = Text.identifier s) ∧
    ∀ (u : CompilationUnit) (out : List Controller), u.controllers = .ok out →
      (∀ c ∈ out, Text.IsName c.className ∧ ∃ n, u.HasNode n ∧ c = n.controller u ∧
        ∀ e ∈ n.resource.endpoints u.traits, Text.IsName (Text.methodName e.primaryPath) ∧
          (e.methodBlock n.segments).signature =
            "public " ++ (e.returns.map TypeRef.text).getD "void" ++ " " ++
            Text.methodName e.primaryPath ++ "(" ++
            ", ".intercalate (e.parameters n.segments) ++ ")") ∧
      ∀ (fs : FileSystem) (root : String) (dryRun : Bool) (report : Report),
        (fs.generate u root dryRun).outcome = .ok report →
          report.outputDir = u.outputDir root ∧
          List.Forall₂ (fun c file => c.IsStoredAt (u.outputDir root) file) out report.files := by
  constructor
  · intro s
    have hname := Text.isName_identifier s
    exact ⟨hname, Text.identifier_eq_self_iff, Text.identifier_of_isName hname,
      Text.length_identifier s, Text.methodName_eq_identifier s⟩
  · intro u out hout
    obtain ⟨-, -, hnodes⟩ := controllers_eq_ok_iff.1 hout
    constructor
    · intro c hc
      rw [hnodes] at hc
      obtain ⟨n, hn, rfl⟩ := List.mem_map.1 hc
      refine ⟨Text.isName_className _, n, mem_nodes.1 hn, rfl, ?_⟩
      intro e _
      refine ⟨?_, rfl⟩
      rw [Text.methodName_eq_identifier]
      exact Text.isName_identifier _
    · intro fs root dryRun report hreport
      obtain ⟨rendered, hrendered, rfl, -, -⟩ := FileSystem.generate_eq_ok hreport
      obtain rfl : rendered = out := Except.ok.inj (hrendered.symm.trans hout)
      simp only [generationReport]
      refine ⟨trivial, ?_⟩
      rw [List.forall₂_map_right_iff, List.forall₂_same]
      intro c hc
      rw [hnodes] at hc
      obtain ⟨n, -, rfl⟩ := List.mem_map.1 hc
      exact n.isStoredAt_path u _

/-- A unit with paths that are far from names: one ends with a slash, one goes up, one starts with a
letter whose upper case is two characters. -/
def exoticUnit : CompilationUnit where
  package := some "org.exotic"
  resources := [
    .mk "/2fa/" [] [] [.endpoint { verb := .get, paths := ["/{id}/ß"] }],
    .mk "/..\x00.x" [] [] [],
    .mk "/ŉ-1" [] [] []]

theorem names_safe_exotic :
    ∃ out, exoticUnit.controllers = .ok out ∧
      out.map (·.className) = ["_Controller", "____xController", "_N_1Controller"] ∧
      (∀ c ∈ out, Text.IsName c.className) ∧
      ∃ report, (FileSystem.generate {} exoticUnit "gen" true).outcome = .ok report ∧
        List.Forall₂ (fun c file => c.IsStoredAt (exoticUnit.outputDir "gen") file) out
          report.files := by
  obtain ⟨hnames, hfiles⟩ := CompilationUnit.names_safe.2 exoticUnit _ rfl
  refine ⟨_, rfl, ?_, fun c hc => (hnames c hc).1, _, rfl, (hfiles {} "gen" true _ rfl).2⟩
  decide +kernel

end ResourceStubs
