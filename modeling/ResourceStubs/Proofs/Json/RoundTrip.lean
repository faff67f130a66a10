import ResourceStubs.Loading
import ResourceStubs.Proofs.Json.Containers
import ResourceStubs.Proofs.Json.Nesting

/-!
# Units read back from their own text

JSON satisfies the laws of reading back, so every part of a unit is read back from the text it is
written as. The only obstacle is the limit on nesting, which a unit can exceed in two ways: by
resources within resources and by types within types. Below the limit the unit comes back as it was;
above it the text is refused, and for no other reason (`CompilationUnit.ofJson_text`).
-/

namespace ResourceStubs

/-! ## Arguments -/

namespace Json

lemma anyLiteral_eq_singleLiteral {c : Char} (hspace : isSpace c = false) (hlist : c ≠ '[')
    (hobject : c ≠ '{') (depth : Nat) (s : List Char) :
    anyLiteral depth (c :: s) = singleLiteral (c :: s) := by
  cases depth <;> rw [anyLiteral, bind_of_ok (peek_cons hspace s)] <;> simp [hlist, hobject]

lemma anyLiteral_int (depth : Nat) (n : Int64) {rest : List Char} (hrest : Ends rest) :
    anyLiteral depth (intChars n.toInt ++ rest) = .ok (some (.int n), rest) := by
  have hrange : -Int.pow 2 63 ≤ n.toInt ∧ n.toInt < Int.pow 2 63 :=
    ⟨Int64.le_toInt n, Int64.toInt_lt n⟩
  have hread := number_intChars n hrest.follows
  obtain ⟨c, digits, hchars, hc⟩ := exists_intChars_eq_cons n.toInt
  have hspace := isSpace_of_startsNumber hc
  have hlist := ne_of_startsNumber (d := '[') hc (by decide)
  have hobject := ne_of_startsNumber (d := '{') hc (by decide)
  have hn := ne_of_startsNumber (d := 'n') hc (by decide)
  have ht := ne_of_startsNumber (d := 't') hc (by decide)
  have hf := ne_of_startsNumber (d := 'f') hc (by decide)
  have hquote := ne_of_startsNumber (d := '"') hc (by decide)
  rw [hchars, List.cons_append] at hread ⊢
  rw [anyLiteral_eq_singleLiteral hspace hlist hobject, singleLiteral,
    bind_of_ok (peek_cons hspace _)]
  -- the facts above leave only the last case of the match
  simp only [if_pos hc]
  rw [bind_of_ok hread]
  dsimp only
  rw [if_pos hrange, Int64.ofInt_toInt]
  rfl

lemma anyLiteral_string (depth : Nat) (text : String) (rest : List Char) :
    anyLiteral depth (stringChars text ++ rest) = .ok (some (.string text), rest) := by
  have hsingle : singleLiteral (stringChars text ++ rest) =
      (quotedString >>= fun text => pure (some (.string text))) (stringChars text ++ rest) := rfl
  have hany : anyLiteral depth (stringChars text ++ rest) =
      singleLiteral (stringChars text ++ rest) :=
    anyLiteral_eq_singleLiteral (c := '"') (by decide) (by decide) (by decide) depth _
  rw [hany, hsingle, bind_of_ok (quotedString_stringChars text rest)]
  rfl

lemma readsBack_literal (bound : Nat) (l : Literal) : ReadsBack bound literal l.toJson l := by
  intro depth _ rest hrest
  have hany : anyLiteral depth (l.toJson.chars ++ rest) = .ok (some l, rest) := by
    cases l with
    | int n => rw [Literal.toJson, Value.chars, anyLiteral_int depth n hrest]
    | string text => rw [Literal.toJson, Value.chars, anyLiteral_string depth text rest]
  have hdepth : l.toJson.depth = 0 := by
    cases l <;> rfl
  rw [literal, bind_of_ok hany, if_pos (by omega)]
  rfl

lemma args_zero (s : List Char) : args 0 ('{' :: s) = .error .recursionLimit := rfl

lemma args_succ (inner : Nat) (s : List Char) :
    args (inner + 1) ('{' :: s) =
      (allEntries (literal inner) >>= fun entries => pure (ArgMap.ofList entries)) s := rfl

lemma readsBack_args (bound : Nat) (m : ArgMap) : ReadsBack bound args m.toJson m := by
  intro depth _ rest _
  rw [ArgMap.toJson, chars_object_append, Value.depth]
  cases depth with
  | zero => exact args_zero _
  | succ inner =>
    have hvalues : ∀ e ∈ m.entries, Recovers (literal inner) inner e.2.toJson e.2 := fun e _ =>
      readsBack_literal (inner + 1) e.2 inner (Nat.lt_succ_self inner)
    rw [args_succ, bind_of_ite (allEntries_memberChars hvalues rest), ArgMap.ofList_entries,
      pure_run]
    simp only [Nat.add_le_add_iff_right]

/-! ## All parts of a unit -/

lemma readingLaws : ReadingLaws Reader ReadsBack where
  mono := ReadsBack.mono
  map := readsBack_map
  string := readsBack_string
  bool := readsBack_bool
  int32 := readsBack_int32
  args := readsBack_args
  nullable_none := readsBack_nullable_none
  nullable_some := readsBack_nullable_some
  list := readsBack_list
  record := readsBack_record
  choice := by
    rintro _ _ _ _ _ _ _ (hcase | hcase) h
    · exact readsBack_choice hcase h
    · exact readsBack_choice hcase h
  bareChoice := readsBack_bareChoice
  recursive := readsBack_recursive

end Json

lemma UnitShape.readsBack_compilationUnit (bound : Nat) (u : CompilationUnit) :
    Json.ReadsBack bound compilationUnit u.toJson u :=
  Json.readingLaws.reads_compilationUnit bound u

/-! ## Whole units -/

open Json

/-- A unit is read back from its compact text if at most 127 brackets are open at the same place of
the text. If more are, the text is refused for its nesting. -/
theorem CompilationUnit.ofJson_text (u : CompilationUnit) :
    (CompilationUnit.ofJson u.toJson.text).mapError Error.message =
      if bracketDepth u.toJson.text ≤ 127 then .ok u else .error "recursion limit exceeded" := by
  have hread : CompilationUnit.ofJson u.toJson.text =
      if u.toJson.depth ≤ 127 then .ok u else .error .recursionLimit :=
    read_text (UnitShape.readsBack_compilationUnit (nestingLimit + 1) u)
  rw [bracketDepth_text, hread]
  by_cases hdepth : u.toJson.depth ≤ 127
  · rw [if_pos hdepth, if_pos hdepth]
    rfl
  · rw [if_neg hdepth, if_neg hdepth]
    rfl

end ResourceStubs
