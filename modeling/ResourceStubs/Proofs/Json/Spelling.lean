import ResourceStubs.Proofs.Json.Grammar
import ResourceStubs.Proofs.Json.Tokens

/-!
# Reading any spelling of a string

White space is passed over by every step that looks at the next character, so it may stand in front
of anything that may follow a value. A string is read as the text it stands for, and rejected if it
stands for none (`Json.quotedString_quoted`); one half of a surrogate pair is such a case. Where a
string is skipped it is not asked what it stands for, and every string of the grammar is taken off
the text (`Json.skipString_quoted`).
-/

namespace ResourceStubs.Json

/-! ## White space and what may follow a value -/

lemma IsBlank.isSpace {s : List Char} (h : IsBlank s) {c : Char} (hc : c ∈ s) :
    isSpace c = true := by
  have hmem := h c hc
  simp only [List.mem_cons, List.not_mem_nil, or_false] at hmem
  rcases hmem with rfl | rfl | rfl | rfl <;> rfl

lemma dropWhile_blank {blank : List Char} (hblank : IsBlank blank) (s : List Char) :
    (blank ++ s).dropWhile isSpace = s.dropWhile isSpace :=
  List.dropWhile_append_of_pos fun _ hc => hblank.isSpace hc

/-- Steps that look at the next character do not see white space. -/
lemma peek_blank {blank : List Char} (hblank : IsBlank blank) (s : List Char) :
    peek (blank ++ s) = peek s := by
  rw [peek, peek, dropWhile_blank hblank]

lemma peek_blank_cons {blank : List Char} (hblank : IsBlank blank) {c : Char}
    (hc : isSpace c = false) (s : List Char) : peek (blank ++ c :: s) = .ok (some c, c :: s) := by
  rw [peek_blank hblank, peek_cons hc]

lemma IsBlank.follows {s : List Char} (h : IsBlank s) : Follows s :=
  fun _ hc => .inl (h.isSpace (List.mem_of_mem_head? hc))

lemma follows_blank {blank rest : List Char} (hblank : IsBlank blank) (hrest : Follows rest) :
    Follows (blank ++ rest) := by
  cases blank with
  | nil => exact hrest
  | cons c blank =>
    rintro d ⟨⟩
    exact .inl (hblank.isSpace List.mem_cons_self)

/-! ## Strings -/

lemma hexDigit_char (d : HexDigit) : hexDigit d.char = some d.value := by
  have hall : ∀ p ∈ hexDigits, hexDigit p.1 = some p.2 := by decide
  exact hall _ d.isHex

lemma hexEscape_digits (a b c d : HexDigit) (s : List Char) :
    hexEscape (a.char :: b.char :: c.char :: d.char :: s) = .ok (codeUnit a b c d, s) := by
  simp only [hexEscape, hexDigit_char, codeUnit]

lemma shortEscape_letter {c meaning : Char} (h : (c, meaning) ∈ letterEscapes) :
    shortEscape c = some meaning := by
  have hall : ∀ p ∈ letterEscapes, shortEscape p.1 = some p.2 := by decide
  exact hall _ h

lemma escape_letter {c meaning : Char} (h : (c, meaning) ∈ letterEscapes) (s : List Char) :
    escape (c :: s) = .ok (meaning, s) := by
  simp only [escape, shortEscape_letter h]

lemma escape_code (a b c d : HexDigit) (s : List Char) :
    escape ('u' :: a.char :: b.char :: c.char :: d.char :: s) =
      if IsTrailing (codeUnit a b c d) then .error .loneSurrogate
      else if IsLeading (codeUnit a b c d) then trailingSurrogate (codeUnit a b c d) s
      else .ok (Char.ofNat (codeUnit a b c d), s) := by
  have hshort : shortEscape 'u' = none := by decide
  simp only [escape, hshort, if_true, hexEscape_digits]
  rfl

lemma trailingSurrogate_code (lead : Nat) (a b c d : HexDigit) (s : List Char) :
    trailingSurrogate lead ('\\' :: 'u' :: a.char :: b.char :: c.char :: d.char :: s) =
      if IsTrailing (codeUnit a b c d) then .ok (pairChar lead (codeUnit a b c d), s)
      else .error .loneSurrogate := by
  simp only [trailingSurrogate, hexEscape_digits]
  rfl

/-- A leading half is followed by four digits or stands alone. -/
lemma trailingSurrogate_of_not_code {parts : List Part}
    (h : ∀ a b c d rest, parts ≠ .code a b c d :: rest) (lead : Nat) (s : List Char) :
    ∃ e, trailingSurrogate lead (partChars parts ++ '"' :: s) = .error e := by
  cases parts with
  | nil => exact ⟨_, rfl⟩
  | cons part rest =>
    cases part with
    | plain c isPlain =>
      simp only [partChars, List.flatMap_cons, Part.chars, List.cons_append, List.nil_append]
      unfold trailingSurrogate
      split
      · exact ⟨_, rfl⟩
      · exact ⟨_, rfl⟩
      · rename_i hc
        exact absurd (List.cons.inj hc).1 isPlain.2.1
      · exact ⟨_, rfl⟩
    | letter c meaning isEscape =>
      simp only [partChars, List.flatMap_cons, Part.chars, List.cons_append, List.nil_append]
      unfold trailingSurrogate
      split
      · exact ⟨_, rfl⟩
      · exact ⟨_, rfl⟩
      · rename_i hc
        obtain ⟨rfl, -⟩ := List.cons.inj (List.cons.inj hc).2
        cases shortEscape_letter isEscape
      · exact ⟨_, rfl⟩
    | code a b c d => exact absurd rfl (h a b c d rest)

lemma stringTail_escape_error {s : List Char} {e : Error} (h : escape s = .error e) :
    stringTail ('\\' :: s) = .error e := by
  rw [stringTail, if_neg (by decide), if_pos rfl]
  split
  · rename_i e' he
    cases h.symm.trans he
    rfl
  · rename_i d rest hd
    cases h.symm.trans hd

lemma stringTail_plain {c : Char} (isPlain : c ≠ '"' ∧ c ≠ '\\' ∧ 0x20 ≤ c.toNat) (s : List Char) :
    stringTail (c :: s) = (stringTail s).map fun p => (c :: p.1, p.2) := by
  rw [stringTail, if_neg isPlain.1, if_neg isPlain.2.1, if_neg (Nat.not_lt.2 isPlain.2.2)]

/-- The rest of a string is read as the text it stands for. -/
lemma stringTail_parts (parts : List Part) (rest : List Char) :
    Gives (stringTail (partChars parts ++ '"' :: rest)) (textOf parts) rest := by
  fun_induction textOf parts with
  | case1 =>
    rw [partChars, List.flatMap_nil, List.nil_append, stringTail, if_pos rfl]
    exact gives_some [] rest
  | case2 c isPlain parts ih =>
    exact (stringTail_plain isPlain _).symm ▸ ih.map (c :: ·)
  | case3 c meaning isEscape parts ih =>
    exact (stringTail_escape (escape_letter isEscape _)).symm ▸ ih.map (meaning :: ·)
  | case4 a b c d parts htrail =>
    have hescape := escape_code a b c d (partChars parts ++ '"' :: rest)
    rw [if_pos htrail] at hescape
    exact (stringTail_escape_error hescape).symm ▸ gives_none _ rest
  | case5 a b c d htrail hlead a' b' c' d' more htrail' ih =>
    have hescape := escape_code a b c d (partChars (.code a' b' c' d' :: more) ++ '"' :: rest)
    rw [if_neg htrail, if_pos hlead] at hescape
    have hpair :=
      trailingSurrogate_code (codeUnit a b c d) a' b' c' d' (partChars more ++ '"' :: rest)
    rw [if_pos htrail'] at hpair
    exact (stringTail_escape (hescape.trans hpair)).symm ▸ ih.map (pairChar _ _ :: ·)
  | case6 a b c d htrail hlead a' b' c' d' more htrail' =>
    have hescape := escape_code a b c d (partChars (.code a' b' c' d' :: more) ++ '"' :: rest)
    rw [if_neg htrail, if_pos hlead] at hescape
    have hpair :=
      trailingSurrogate_code (codeUnit a b c d) a' b' c' d' (partChars more ++ '"' :: rest)
    rw [if_neg htrail'] at hpair
    exact (stringTail_escape_error (hescape.trans hpair)).symm ▸ gives_none _ rest
  | case7 a b c d parts htrail hlead hnext =>
    have hescape := escape_code a b c d (partChars parts ++ '"' :: rest)
    rw [if_neg htrail, if_pos hlead] at hescape
    obtain ⟨e, he⟩ := trailingSurrogate_of_not_code hnext (codeUnit a b c d) rest
    exact (stringTail_escape_error (hescape.trans he)).symm ▸ gives_none e rest
  | case8 a b c d parts htrail hlead ih =>
    have hescape := escape_code a b c d (partChars parts ++ '"' :: rest)
    rw [if_neg htrail, if_neg hlead] at hescape
    exact (stringTail_escape hescape).symm ▸ ih.map (Char.ofNat (codeUnit a b c d) :: ·)

/-- A string is read as the text it stands for. -/
lemma quotedString_quoted (parts : List Part) (rest : List Char) :
    Gives (quotedString (quoted parts ++ rest)) (keyText parts) rest := by
  have htail : (quoted parts ++ rest).drop 1 = partChars parts ++ '"' :: rest := by
    simp [quoted]
  rw [quotedString, htail]
  exact (stringTail_parts parts rest).map String.ofList

lemma skipEscape_code (a b c d : HexDigit) (s : List Char) :
    skipEscape ('u' :: a.char :: b.char :: c.char :: d.char :: s) = .ok s := by
  have hshort : (shortEscape 'u').isSome = false := by decide
  simp only [skipEscape, hshort, hexEscape_digits]
  rfl

lemma skipEscape_letter {c meaning : Char} (h : (c, meaning) ∈ letterEscapes) (s : List Char) :
    skipEscape (c :: s) = .ok s := by
  simp only [skipEscape, shortEscape_letter h, Option.isSome_some, if_true]

lemma skipStringTail_escape {s more : List Char} (h : skipEscape s = .ok more) :
    skipStringTail ('\\' :: s) = skipStringTail more := by
  rw [skipStringTail, if_neg (by decide), if_pos rfl]
  split
  · rename_i e he
    cases h.symm.trans he
  · rename_i rest hrest
    cases h.symm.trans hrest
    rfl

/-- A string that is skipped need not stand for a text. -/
lemma skipStringTail_parts (parts : List Part) (rest : List Char) :
    skipStringTail (partChars parts ++ '"' :: rest) = .ok rest := by
  induction parts with
  | nil => rw [partChars, List.flatMap_nil, List.nil_append, skipStringTail, if_pos rfl]
  | cons part parts ih =>
    cases part with
    | plain c isPlain =>
      change skipStringTail (c :: (partChars parts ++ '"' :: rest)) = .ok rest
      rw [skipStringTail, if_neg isPlain.1, if_neg isPlain.2.1,
        if_neg (Nat.not_lt.2 isPlain.2.2), ih]
    | letter c meaning isEscape =>
      exact (skipStringTail_escape (skipEscape_letter isEscape _)).trans ih
    | code a b c d => exact (skipStringTail_escape (skipEscape_code a b c d _)).trans ih

lemma skipString_quoted (parts : List Part) (rest : List Char) :
    skipString (quoted parts ++ rest) = .ok ((), rest) := by
  have htail : (quoted parts ++ rest).drop 1 = partChars parts ++ '"' :: rest := by
    simp [quoted]
  rw [skipString, htail, skipStringTail_parts]
  rfl

end ResourceStubs.Json
