import ResourceStubs.Proofs.Json.Tokens
import ResourceStubs.Yaml.FlowScalar

/-!
# JSON scalars read as YAML

What the scanner of YAML makes of the strings, numbers and words of a JSON text. A JSON string is a
scalar in double quotes on one line: each of its escapes is an escape of YAML with the same meaning,
and blanks inside the quotes are kept. Everything else without brackets is a plain scalar that ends
where JSON says it does, because a comma or a closing bracket ends a plain scalar inside brackets.

Position matters: at the start of a line the characters of a scalar may be a document marker, so all
of this is about positions further right.
-/

namespace ResourceStubs.Yaml

open Json (escapedChar hexChar)

/-! ## Characters and positions -/

/-- Characters of ASCII that leave ink; a JSON text has no others outside its strings. -/
def IsVisible (c : Char) : Prop :=
  0x20 < c.toNat ∧ c.toNat ≤ 0x7E

instance : DecidablePred IsVisible := fun c =>
  inferInstanceAs (Decidable (0x20 < c.toNat ∧ c.toNat ≤ 0x7E))

/-- Strings of ASCII characters, control characters included but not the delete character. -/
def IsAscii (text : String) : Prop :=
  ∀ c ∈ text.toList, c.toNat ≤ 0x7E

instance : DecidablePred IsAscii := fun text =>
  decidable_of_iff (text.toList.all (fun c => decide (c.toNat ≤ 0x7E)) = true) (by simp [IsAscii])

lemma IsVisible.isBlank_eq {c : Char} (h : IsVisible c) : isBlank c = false := by
  have hspace : c ≠ ' ' := by
    rintro rfl
    exact absurd h.1 (by decide)
  have htab : c ≠ '\t' := by
    rintro rfl
    exact absurd h.1 (by decide)
  simp [isBlank, hspace, htab]

lemma isBreak_eq_false {c : Char} (hlow : 0x20 ≤ c.toNat) (hhigh : c.toNat ≤ 0x7E) :
    isBreak c = false := by
  have hne (d : Char) (hd : ¬(0x20 ≤ d.toNat ∧ d.toNat ≤ 0x7E)) : c ≠ d := by
    rintro rfl
    exact hd ⟨hlow, hhigh⟩
  simp [isBreak, hne '\n' (by decide), hne '\r' (by decide), hne '\u0085' (by decide),
    hne '\u2028' (by decide), hne '\u2029' (by decide)]

lemma IsVisible.isBreak_eq {c : Char} (h : IsVisible c) : isBreak c = false :=
  isBreak_eq_false (Nat.le_of_lt h.1) h.2

lemma isVisible_of_isWordChar {c : Char} (h : isWordChar c = true) : IsVisible c := by
  have hrange (first last : Char) (hvisible : 0x20 < first.toNat ∧ last.toNat ≤ 0x7E)
      (hc : first ≤ c ∧ c ≤ last) : IsVisible c :=
    ⟨Nat.lt_of_lt_of_le hvisible.1 hc.1, Nat.le_trans hc.2 hvisible.2⟩
  simp only [isWordChar, Bool.or_eq_true, Bool.and_eq_true, decide_eq_true_eq, beq_iff_eq] at h
  rcases h with (((hdigit | hlower) | hupper) | rfl) | rfl
  · exact hrange '0' '9' (by decide) hdigit
  · exact hrange 'a' 'z' (by decide) hlower
  · exact hrange 'A' 'Z' (by decide) hupper
  · decide
  · decide

lemma ne_of_isWordChar {c d : Char} (hc : isWordChar c = true) (hd : isWordChar d = false) :
    c ≠ d := by
  rintro rfl
  exact Bool.false_ne_true (hd.symm.trans hc)

namespace Cursor

lemma advance_advance (c : Cursor) (m n : Nat) : (c.advance m).advance n = c.advance (m + n) := by
  simp [advance, Nat.add_assoc]

lemma rest_advance {c : Cursor} {w more : List Char} (h : c.rest = w ++ more) :
    (c.advance w.length).rest = more := by
  simp [advance, h]

lemma isAtMarker_of_column {c : Cursor} (h : 0 < c.column) (ch : Char) :
    c.isAtMarker ch = false := by
  have hcolumn : (c.column == 0) = false := beq_eq_false_iff_ne.2 (Nat.ne_of_gt h)
  simp [isAtMarker, hcolumn]

lemma isAtMarker_of_ne {c : Cursor} {d : Char} {more : List Char} (h : c.rest = d :: more)
    {ch : Char} (hne : d ≠ ch) :
    c.isAtMarker ch = false := by
  simp [isAtMarker, h, hne]

lemma isAtDocumentMarker_of_column {c : Cursor} (h : 0 < c.column) :
    c.isAtDocumentMarker = false := by
  rw [isAtDocumentMarker, isAtMarker_of_column h, isAtMarker_of_column h, Bool.or_false]

end Cursor

/-! ## Strings -/

section Quoted

variable {c : Cursor} {more gap : List Char} {steps : Nat}

lemma quotedTail_close (hcolumn : 0 < c.column) (hrest : c.rest = '"' :: more) :
    quotedTail '"' (steps + 1) c (.blanks gap) = .ok (gap, c.advance 1) := by
  rw [quotedTail, if_neg (Bool.eq_false_iff.1 (Cursor.isAtDocumentMarker_of_column hcolumn))]
  simp only [hrest]
  rfl

lemma quotedTail_blank (hcolumn : 0 < c.column) (hrest : c.rest = ' ' :: more) :
    quotedTail '"' (steps + 1) c (.blanks gap) =
      quotedTail '"' steps (c.advance 1) (.blanks (gap ++ [' '])) := by
  rw [quotedTail, if_neg (Bool.eq_false_iff.1 (Cursor.isAtDocumentMarker_of_column hcolumn))]
  simp only [hrest]
  rfl

/-- A character that stands for itself. -/
lemma quotedTail_visible {d : Char} (hcolumn : 0 < c.column) (hrest : c.rest = d :: more)
    (hd : IsVisible d) (hquote : d ≠ '"') (hescape : d ≠ '\\') :
    quotedTail '"' (steps + 1) c (.blanks gap) =
      (quotedTail '"' steps (c.advance 1) (.blanks [])).map fun p => (gap ++ d :: p.1, p.2) := by
  rw [quotedTail, if_neg (Bool.eq_false_iff.1 (Cursor.isAtDocumentMarker_of_column hcolumn))]
  simp only [hrest, hd.isBlank_eq, hd.isBreak_eq, if_neg hquote, hescape, and_false, if_false,
    Bool.false_eq_true]
  rfl

lemma quotedTail_escape {d e : Char} {count : Nat} (hcolumn : 0 < c.column)
    (hrest : c.rest = '\\' :: e :: more) (he : IsVisible e)
    (hcode : escapeCode (e :: more) = .ok (d, count)) :
    quotedTail '"' (steps + 1) c (.blanks gap) =
      (quotedTail '"' steps (c.advance (count + 1)) (.blanks [])).map fun p =>
        (gap ++ d :: p.1, p.2) := by
  have hblank : isBlank '\\' = false := by decide
  have hbreak : isBreak '\\' = false := by decide
  have hline : (e :: more).head?.any isBreak = false := he.isBreak_eq
  rw [quotedTail, if_neg (Bool.eq_false_iff.1 (Cursor.isAtDocumentMarker_of_column hcolumn))]
  simp only [hrest, hblank, hbreak, hline, hcode, Bool.false_eq_true, if_false]
  rfl

lemma length_escapedChar (d : Char) : 0 < (escapedChar d).length ∧ (escapedChar d).length ≤ 6 := by
  unfold escapedChar
  split
  case h_8 => split <;> simp
  all_goals simp

/-- Escapes make a text longer, up to six times. -/
lemma length_escaped (text : List Char) :
    text.length ≤ (text.flatMap escapedChar).length ∧
      (text.flatMap escapedChar).length ≤ 6 * text.length := by
  induction text with
  | nil => exact ⟨Nat.le_refl 0, Nat.le_refl 0⟩
  | cons d text ih =>
    have hchar := length_escapedChar d
    rw [List.flatMap_cons, List.length_cons, List.length_append]
    omega

lemma length_stringChars (text : String) :
    (Json.stringChars text).length = (text.toList.flatMap escapedChar).length + 2 := by
  rw [Json.stringChars, List.length_append, List.length_cons]
  rfl

lemma stringChars_ne_nil (text : String) : Json.stringChars text ≠ [] := by
  simp [Json.stringChars]

lemma hexValue_hexChar : ∀ n < 16, hexValue (hexChar n) = some n := by
  decide

lemma escapeCode_control {d : Char} (hd : d.toNat < 0x20) (more : List Char) :
    escapeCode ('u' :: '0' :: '0' :: hexChar (d.toNat / 16) :: hexChar (d.toNat % 16) :: more) =
      .ok (d, 5) := by
  have hhigh := hexValue_hexChar (d.toNat / 16) (by omega)
  have hlow := hexValue_hexChar (d.toNat % 16) (by omega)
  have hzero : hexValue '0' = some 0 := by decide
  have hvalue : ((0 * 16 + 0) * 16 + d.toNat / 16) * 16 + d.toNat % 16 = d.toNat := by omega
  have hnumber : hexNumber ['0', '0', hexChar (d.toNat / 16), hexChar (d.toNat % 16)] =
      some d.toNat := by
    simp only [hexNumber, List.foldlM, hzero, hhigh, hlow, Option.map, bind, Option.bind, pure,
      hvalue]
  have hsmall : d.toNat < 0xD800 ∨ (0xDFFF < d.toNat ∧ d.toNat ≤ 0x10FFFF) := .inl (by omega)
  have hcode : codeEscape 4
      ('0' :: '0' :: hexChar (d.toNat / 16) :: hexChar (d.toNat % 16) :: more) = .ok (d, 5) := by
    simp only [codeEscape, List.take, List.length_cons, List.length_nil, Nat.reduceAdd, if_true,
      hnumber, if_pos hsmall, Char.ofNat_toNat]
  exact hcode

/-- One character of a string. A blank joins the gap behind the last word; anything else ends the
gap. -/
lemma quotedTail_escapedChar (steps : Nat) (gap : List Char) {d : Char} (hcolumn : 0 < c.column)
    (hd : d.toNat ≤ 0x7E) (hrest : c.rest = escapedChar d ++ more) :
    ∃ front gap', front ++ gap' = gap ++ [d] ∧ quotedTail '"' (steps + 1) c (.blanks gap) =
      (quotedTail '"' steps (c.advance (escapedChar d).length) (.blanks gap')).map fun p =>
        (front ++ p.1, p.2) := by
  -- every character but the blank
  have hword (h : quotedTail '"' (steps + 1) c (.blanks gap) =
      (quotedTail '"' steps (c.advance (escapedChar d).length) (.blanks [])).map fun p =>
        (gap ++ d :: p.1, p.2)) :
      ∃ front gap', front ++ gap' = gap ++ [d] ∧ quotedTail '"' (steps + 1) c (.blanks gap) =
        (quotedTail '"' steps (c.advance (escapedChar d).length) (.blanks gap')).map fun p =>
          (front ++ p.1, p.2) :=
    ⟨gap ++ [d], [], List.append_nil _, by simpa using h⟩
  unfold escapedChar at hrest hword ⊢
  split at hrest
  case h_8 hquote hescape _ _ _ _ _ =>
    simp only at hword ⊢
    split at hrest
    · rename_i hcontrol
      simp only [if_pos hcontrol] at hword ⊢
      exact hword (quotedTail_escape hcolumn hrest (by decide) (escapeCode_control hcontrol more))
    · rename_i hplain
      simp only [if_neg hplain] at hword ⊢
      by_cases hspace : d = ' '
      · subst hspace
        refine ⟨[], gap ++ [' '], rfl, ?_⟩
        rw [quotedTail_blank hcolumn hrest]
        cases quotedTail '"' steps (c.advance [' '].length) (.blanks (gap ++ [' '])) <;> rfl
      · have hvisible : IsVisible d := by
          have hne : d.toNat ≠ 0x20 := fun h => hspace (Char.toNat_inj.1 h)
          exact ⟨by omega, hd⟩
        exact hword (quotedTail_visible hcolumn hrest hvisible hquote hescape)
  all_goals exact hword (quotedTail_escape hcolumn hrest (by decide) rfl)

/-- A JSON string is read back up to its closing quote. -/
lemma quotedTail_escaped {text : List Char} (htext : ∀ d ∈ text, d.toNat ≤ 0x7E)
    (hcolumn : 0 < c.column) (hsteps : text.length < steps)
    (hrest : c.rest = text.flatMap escapedChar ++ '"' :: more) :
    quotedTail '"' steps c (.blanks gap) =
      .ok (gap ++ text, c.advance ((text.flatMap escapedChar).length + 1)) := by
  induction text generalizing c gap steps with
  | nil =>
    obtain ⟨steps, rfl⟩ := Nat.exists_eq_succ_of_ne_zero (Nat.ne_of_gt hsteps)
    rw [quotedTail_close hcolumn hrest, List.append_nil]
    rfl
  | cons d text ih =>
    cases steps with
    | zero => cases hsteps
    | succ steps =>
      rw [List.flatMap_cons, List.append_assoc] at hrest
      obtain ⟨front, gap', hgap, hstep⟩ :=
        quotedTail_escapedChar steps gap hcolumn (htext d List.mem_cons_self) hrest
      have hcolumn' : 0 < (c.advance (escapedChar d).length).column :=
        Nat.lt_of_lt_of_le hcolumn (Nat.le_add_right _ _)
      rw [hstep, ih (fun e he => htext e (List.mem_cons_of_mem d he)) hcolumn'
        (Nat.lt_of_succ_lt_succ hsteps)
        (Cursor.rest_advance hrest), Cursor.advance_advance]
      simp only [Except.map, ← List.append_assoc, hgap]
      simp [Nat.add_assoc]

end Quoted

/-! ## Words and numbers -/

/-- Texts of letters, digits and dashes, but no dash alone. -/
structure IsWord (word : List Char) : Prop where
  ne_nil : word ≠ []
  ne_dash : word ≠ ['-']
  all_isWordChar : word.all isWordChar = true

lemma isWord_null : IsWord Json.Value.null.chars :=
  ⟨by decide, by decide, by decide⟩

lemma isWord_bool (value : Bool) : IsWord (Json.Value.bool value).chars := by
  cases value <;> exact ⟨by decide, by decide, by decide⟩

lemma isWord_intChars (n : Int) : IsWord (Json.intChars n) := by
  have hdigit {c : Char} (hc : c ∈ Nat.toDigits 10 n.natAbs) : Json.isDigit c = true :=
    Json.isDigit_of_mem_toDigits hc
  have hword : (Nat.toDigits 10 n.natAbs).all isWordChar = true := by
    refine List.all_eq_true.2 fun c hc => ?_
    have hrange : ('0' ≤ c && c ≤ '9') = true := hdigit hc
    simp [isWordChar, hrange]
  obtain ⟨c, digits, hdigits⟩ :=
    List.exists_cons_of_ne_nil (Nat.toDigits_ne_nil (n := n.natAbs) (b := 10))
  have hc : Json.isDigit c = true := hdigit (by rw [hdigits]; exact List.mem_cons_self)
  rw [Json.intChars]
  rw [hdigits] at hword ⊢
  split
  · exact ⟨by simp, by simp, hword⟩
  · refine ⟨by simp, ?_, hword⟩
    rintro ⟨⟩
    exact absurd hc (by decide)

/-- A word inside brackets ends where the text starts that follows a JSON value. -/
lemma plainTail_word {c : Cursor} {word more : List Char} {margin steps : Nat}
    (hword : word.all isWordChar = true) (hmore : Json.Ends more) (hcolumn : 0 < c.column)
    (hsteps : word.length < steps) (hrest : c.rest = word ++ more) :
    plainTail true margin steps c .none = .ok (word, c.advance word.length, .none) := by
  induction word generalizing c steps with
  | nil =>
    obtain ⟨steps, rfl⟩ := Nat.exists_eq_succ_of_ne_zero (Nat.ne_of_gt hsteps)
    rw [List.nil_append] at hrest
    cases more with
    | nil =>
      simp only [plainTail, hrest]
      rfl
    | cons d more =>
      have hd : isBlank d = false ∧ isBreak d = false ∧ d ≠ ':' ∧ isFlowIndicator d = true := by
        rcases hmore d rfl with rfl | rfl | rfl <;> decide
      simp only [plainTail, hrest, hd.1, hd.2.1, hd.2.2.1, false_and, and_false, if_false,
        Bool.false_eq_true]
      rw [if_pos (by simp [plainEnds, hd.2.2.2])]
      rfl
  | cons d word ih =>
    cases steps with
    | zero => cases hsteps
    | succ steps =>
      obtain ⟨hd, hword⟩ := Bool.and_eq_true_iff.1 hword
      have hvisible := isVisible_of_isWordChar hd
      have hcolon : d ≠ ':' := ne_of_isWordChar hd (by decide)
      have hflow : isFlowIndicator d = false := by
        simp (disch := decide) [isFlowIndicator, ne_of_isWordChar hd]
      have hends : plainEnds true margin c .none d (word ++ more) = false := by
        simp [plainEnds, Cursor.isAtDocumentMarker_of_column hcolumn, Gap.none, Gap.isEmpty, hflow,
          hcolon]
      have hnext : (c.advance [d].length).rest = word ++ more := Cursor.rest_advance hrest
      have htail := ih hword (Nat.lt_of_lt_of_le hcolumn (Nat.le_add_right _ _))
        (Nat.lt_of_succ_lt_succ hsteps) hnext
      rw [List.cons_append] at hrest
      simp only [plainTail, hrest, hvisible.isBlank_eq, hvisible.isBreak_eq, hcolon, hends,
        false_and, and_false, if_false, Bool.false_eq_true]
      rw [List.length_singleton] at htail
      rw [htail, Cursor.advance_advance, List.length_cons, Nat.add_comm 1]
      rfl

end ResourceStubs.Yaml
