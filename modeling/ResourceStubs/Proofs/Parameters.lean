import Mathlib.Data.List.Forall2
import ResourceStubs.Proofs.RouteVariables

/-!
# What the parameter list of a method says

The parameters of a method are compared with the declaration they come from. The body entry is there
exactly when some modifier asks for a body, and its type is that of the first such modifier
(`Endpoint.FirstExpects`). Each declared parameter has one entry, whose marker depends on whether
its name is a variable of the route.

Variables are described here without any scanning: a name over `[A-Za-z0-9_]` is a variable when it
stands in braces somewhere in a single segment, or in the first path (`Endpoint.HasVariable`). That
the scanner finds the same names, whatever stray or nested braces surround them, is
`Route.mem_variableNames_iff`.
-/

namespace ResourceStubs

/-- The characters of names are the letters and digits of ASCII and the underscore. -/
lemma Text.isNameChar_eq_true_iff {c : Char} :
    Text.isNameChar c = true ↔ c.isAlphanum = true ∨ c = '_' := by
  have hdigit : Text.isDigit c = c.isDigit := rfl
  have hupper : ('A' ≤ c && c ≤ 'Z') = c.isUpper := (Bool.decide_and ('A' ≤ c) (c ≤ 'Z')).symm
  have hletter : Text.isLetter c = (c.isLower || c.isUpper) := congrArg (c.isLower || ·) hupper
  have halpha : c.isAlpha = (c.isUpper || c.isLower) := rfl
  rw [Text.isNameChar, Text.isNameStart, hdigit, hletter, Char.isAlphanum, halpha]
  simp only [Bool.or_eq_true, beq_iff_eq]
  tauto

namespace Endpoint

variable {e : Endpoint} {segments : List String}

/-- The name stands in braces in one of the segments or in the first path of the endpoint. -/
structure HasVariable (e : Endpoint) (segments : List String) (name : String) : Prop where
  nonempty : name ≠ ""
  chars : ∀ c ∈ name.toList, c.isAlphanum = true ∨ c = '_'
  braced : ∃ text ∈ segments ++ e.paths.take 1, '{' :: name.toList ++ ['}'] <:+: text.toList

/-- The type is the one that the first modifier with a body asks for. -/
def FirstExpects (e : Endpoint) (type : TypeRef) : Prop :=
  ∃ before later, e.modifiers = before ++ .expects type :: later ∧ ∀ other, .expects other ∉ before

/-! ## The body -/

lemma bodyOf_eq_none_iff {m : Modifier} : bodyOf m = none ↔ ∀ type, m ≠ .expects type := by
  cases m <;> simp [bodyOf]

lemma expectedBody_eq_none_iff : e.expectedBody = none ↔ ∀ type, .expects type ∉ e.modifiers := by
  simp only [expectedBody, List.findSome?_eq_none_iff, bodyOf_eq_none_iff]
  constructor
  · intro h type hmem
    exact h _ hmem type rfl
  · intro h m hm type hmodifier
    exact h type (hmodifier ▸ hm)

lemma FirstExpects.expectedBody_eq {type : TypeRef} (h : e.FirstExpects type) :
    e.expectedBody = some type := by
  obtain ⟨before, later, hmodifiers, hbefore⟩ := h
  have hnone : before.findSome? bodyOf = none := by
    simp only [List.findSome?_eq_none_iff, bodyOf_eq_none_iff]
    intro m hm other hmodifier
    exact hbefore other (hmodifier ▸ hm)
  have hfirst : bodyOf (.expects type) = some type := rfl
  rw [expectedBody, hmodifiers, List.findSome?_append, hnone, Option.none_or, List.findSome?_cons,
    hfirst]

/-! ## The markers -/

/-- A missing path names nothing, so it does not matter whether it counts as the empty one. -/
lemma exists_braced_iff {name : List Char} :
    (∃ text ∈ segments ++ [e.primaryPath], Route.braced name <:+: text.toList) ↔
      ∃ text ∈ segments ++ e.paths.take 1, Route.braced name <:+: text.toList := by
  have hempty : ¬Route.braced name <:+: "".toList := by simp [Route.braced]
  have hpaths : (∃ text ∈ [e.primaryPath], Route.braced name <:+: text.toList) ↔
      ∃ text ∈ e.paths.take 1, Route.braced name <:+: text.toList := by
    rw [primaryPath]
    cases e.paths with
    | nil => simpa using hempty
    | cons path more => simp
  simp only [List.mem_append, or_and_right, exists_or, hpaths]

lemma mem_variableNames_iff_hasVariable {name : String} :
    name ∈ Route.variableNames segments e.primaryPath ↔ e.HasVariable segments name := by
  have hnonempty : name.toList ≠ [] ↔ name ≠ "" := by simp
  rw [Route.mem_variableNames_iff, exists_braced_iff]
  constructor
  · rintro ⟨⟨hne, hchars⟩, hinfix⟩
    exact ⟨hnonempty.1 hne, fun c hc => Text.isNameChar_eq_true_iff.1 (hchars c hc), hinfix⟩
  · rintro ⟨hne, hchars, hinfix⟩
    exact ⟨⟨hnonempty.2 hne, fun c hc => Text.isNameChar_eq_true_iff.2 (hchars c hc)⟩, hinfix⟩

lemma binding_of_hasVariable {p : Param} (h : e.HasVariable segments p.name) :
    Route.Binding.of (Route.variableNames segments e.primaryPath) p = .path := by
  have hmem := mem_variableNames_iff_hasVariable.2 h
  exact if_pos (by simpa using hmem)

lemma binding_of_not_hasVariable {p : Param} (h : ¬e.HasVariable segments p.name) :
    Route.Binding.of (Route.variableNames segments e.primaryPath) p = .query (!p.optional) := by
  have hmem := mt mem_variableNames_iff_hasVariable.1 h
  exact if_neg (by simpa using hmem)

end Endpoint

/-! ## The whole list -/

/-- The parameter list is the body entry, if some modifier asks for a body, and one entry per
declared parameter in order. A parameter has a path marker exactly when its name is a variable of
the route; the marker of any other parameter says whether a request may leave it out. -/
theorem Endpoint.parameters_eq_body_append (e : Endpoint) (segments : List String) :
    ∃ body markers : List String,
      e.parameters segments =
        body ++ List.zipWith (fun marker p => marker ++ " " ++ p.type.text ++ " " ++ p.name)
          markers e.params ∧
      (body = [] ↔ ∀ type, .expects type ∉ e.modifiers) ∧
      (∀ type, e.FirstExpects type → body = ["@RequestBody " ++ type.text ++ " body"]) ∧
      List.Forall₂ (fun marker p =>
        (marker = "@PathVariable" ↔ e.HasVariable segments p.name) ∧
        (¬e.HasVariable segments p.name →
          marker = if p.optional then "@RequestParam(required = false)" else "@RequestParam"))
            markers e.params := by
  let bound := Route.variableNames segments e.primaryPath
  refine ⟨(e.expectedBody.map bodyText).toList,
    e.params.map fun p => (Route.Binding.of bound p).marker, ?_, ?_, ?_, ?_⟩
  · rw [parameters, List.zipWith_map_left, List.zipWith_self]
    rfl
  · rw [← expectedBody_eq_none_iff]
    cases e.expectedBody <;> simp
  · intro type htype
    rw [htype.expectedBody_eq]
    rfl
  · rw [List.forall₂_map_left_iff, List.forall₂_same]
    intro p _
    by_cases hvariable : e.HasVariable segments p.name
    · have hbinding := binding_of_hasVariable hvariable
      exact ⟨iff_of_true (Route.marker_eq_pathVariable_iff.2 hbinding) hvariable,
        fun h => absurd hvariable h⟩
    · have hbinding : Route.Binding.of bound p = .query (!p.optional) :=
        binding_of_not_hasVariable hvariable
      rw [hbinding, Route.marker_eq_pathVariable_iff]
      refine ⟨iff_of_false (by simp) hvariable, fun _ => ?_⟩
      cases p.optional <;> rfl

-- an inner brace starts afresh, doubled braces hide nothing, and other characters make no name
example : Endpoint.parameters
    { verb := .get, paths := ["/{{id}}/{x-y}"],
      params := [⟨"a", .simple "int", false⟩, ⟨"b", .simple "int", false⟩,
        ⟨"id", .simple "int", true⟩, ⟨"x-y", .simple "int", true⟩] }
      ["/".push '{' ++ "a{b}"] =
    ["@RequestParam int a", "@PathVariable int b", "@PathVariable int id",
      "@RequestParam(required = false) int x-y"] := by
  decide +kernel

end ResourceStubs
