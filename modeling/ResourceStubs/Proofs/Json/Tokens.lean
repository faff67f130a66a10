import Mathlib.Data.List.Basic
import ResourceStubs.Json.Reader
import ResourceStubs.Json.Value

/-!
# Reading back strings, numbers and punctuation

The readers of the smallest parts of a document, run on the compact text of a value. Each lemma says
what a reader makes of such a text in front of any further text, so that they can be chained from
left to right.

A number has no mark at its end. It is read back only if what follows cannot belong to it. In a
compact text only a comma, a closing bracket or the end of the document follows a value
(`Json.Ends`); any other text may have white space in front of them (`Json.Follows`).
-/

namespace ResourceStubs

/-! ## Running steps with a state -/

section Steps

variable {σ ε α β : Type} {x : StateT σ (Except ε) α} {f : α → StateT σ (Except ε) β} {s s' : σ}
  {a : α} {e : ε}

lemma pure_run (a : α) (s : σ) : (pure a : StateT σ (Except ε) α) s = .ok (a, s) := rfl

lemma bind_of_ok (h : x s = .ok (a, s')) : (x >>= f) s = f a s' := by
  simp only [bind, StateT.bind, h, Except.bind]

lemma bind_of_error (h : x s = .error e) : (x >>= f) s = .error e := by
  simp only [bind, StateT.bind, h, Except.bind]

/-- A step that fails under a condition makes what follows fail under it. -/
lemma bind_of_ite {p : Prop} [Decidable p] (h : x s = if p then .ok (a, s') else .error e) :
    (x >>= f) s = if p then f a s' else .error e := by
  by_cases hp : p
  · rw [if_pos hp] at h ⊢
    exact bind_of_ok h
  · rw [if_neg hp] at h ⊢
    exact bind_of_error h

lemma map_of_ite {p : Prop} [Decidable p] (g : α → β)
    (h : x s = if p then .ok (a, s') else .error e) :
    (g <$> x) s = if p then .ok (g a, s') else .error e := by
  rw [map_eq_pure_bind, bind_of_ite h]
  rfl

end Steps

namespace Json

lemma peek_cons {c : Char} (h : isSpace c = false) (s : List Char) :
    peek (c :: s) = .ok (some c, c :: s) := by
  simp [peek, h]

lemma skipOne_cons (c : Char) (s : List Char) : skipOne (c :: s) = .ok ((), s) := rfl

/-! ## What may follow a value -/

/-- The character ends a value in a compact text. -/
def EndsValue (c : Char) : Prop :=
  c = ',' ∨ c = ']' ∨ c = '}'

/-- The text can follow a value in a compact text. -/
def Ends (rest : List Char) : Prop :=
  ∀ c ∈ rest.head?, EndsValue c

lemma ends_nil : Ends [] := nofun

lemma ends_comma (s : List Char) : Ends (',' :: s) := by
  simp [Ends, EndsValue]

lemma ends_bracket (s : List Char) : Ends (']' :: s) := by
  simp [Ends, EndsValue]

lemma ends_brace (s : List Char) : Ends ('}' :: s) := by
  simp [Ends, EndsValue]

/-- The text can follow a value in any text, where white space may come first. -/
def Follows (rest : List Char) : Prop :=
  ∀ c ∈ rest.head?, isSpace c = true ∨ EndsValue c

lemma Ends.follows {rest : List Char} (h : Ends rest) : Follows rest :=
  fun c hc => .inr (h c hc)

lemma follows_cons {c : Char} (hc : EndsValue c) (s : List Char) : Follows (c :: s) := by
  rintro d ⟨⟩
  exact .inr hc

/-! ## What a step gives -/

section Gives

variable {α β : Type}

/-- The step gives the value and the rest of the text, or it fails if there is no value. -/
def Gives (outcome : Except Error (α × List Char)) (value : Option α) (rest : List Char) : Prop :=
  (∀ a, value = some a → outcome = .ok (a, rest)) ∧ (value = none → ∃ e, outcome = .error e)

lemma gives_some (a : α) (rest : List Char) : Gives (.ok (a, rest)) (some a) rest :=
  ⟨fun _ h => by rw [Option.some.inj h], nofun⟩

lemma gives_none (e : Error) (rest : List Char) : Gives (.error e) (none : Option α) rest :=
  ⟨nofun, fun _ => ⟨e, rfl⟩⟩

lemma gives_toOption (o : Except Error α) (rest : List Char) :
    Gives (o.map (·, rest)) o.toOption rest := by
  cases o with
  | error e => exact gives_none e rest
  | ok a => exact gives_some a rest

lemma Gives.map {outcome : Except Error (α × List Char)} {value : Option α} {rest : List Char}
    (h : Gives outcome value rest) (f : α → β) :
    Gives (outcome.map fun p => (f p.1, p.2)) (value.map f) rest := by
  cases value with
  | none =>
    obtain ⟨e, he⟩ := h.2 rfl
    rw [he]
    exact gives_none e rest
  | some a =>
    rw [h.1 a rfl]
    exact gives_some (f a) rest

/-- A step that succeeds has a value and leaves the rest. -/
lemma Gives.of_ok {outcome : Except Error (α × List Char)} {value : Option α} {rest s : List Char}
    {a : α} (h : Gives outcome value rest) (hok : outcome = .ok (a, s)) :
    value = some a ∧ s = rest := by
  cases value with
  | none =>
    obtain ⟨e, he⟩ := h.2 rfl
    cases hok.symm.trans he
  | some b =>
    cases hok.symm.trans (h.1 b rfl)
    exact ⟨rfl, rfl⟩

end Gives

/-! ## Strings -/

lemma hexDigit_hexChar : ∀ n < 16, hexDigit (hexChar n) = some n := by
  decide

lemma escape_control {c : Char} (hc : c.toNat < 0x20) (s : List Char) :
    escape ('u' :: '0' :: '0' :: hexChar (c.toNat / 16) :: hexChar (c.toNat % 16) :: s) =
      .ok (c, s) := by
  have hhigh : hexDigit (hexChar (c.toNat / 16)) = some (c.toNat / 16) :=
    hexDigit_hexChar _ (by omega)
  have hlow : hexDigit (hexChar (c.toNat % 16)) = some (c.toNat % 16) :=
    hexDigit_hexChar _ (by omega)
  have hzero : hexDigit '0' = some 0 := by decide
  have hvalue : ((0 * 16 + 0) * 16 + c.toNat / 16) * 16 + c.toNat % 16 = c.toNat := by omega
  have hhex : hexEscape ('0' :: '0' :: hexChar (c.toNat / 16) :: hexChar (c.toNat % 16) :: s) =
      .ok (c.toNat, s) := by
    simp only [hexEscape, hzero, hhigh, hlow, hvalue]
  have hshort : shortEscape 'u' = none := by decide
  simp only [escape, hshort, if_true, hhex]
  have hplain : ¬(0xDC00 ≤ c.toNat ∧ c.toNat ≤ 0xDFFF) ∧
      ¬(0xD800 ≤ c.toNat ∧ c.toNat ≤ 0xDBFF) := by omega
  simp [bind, Except.bind, hplain, pure, Except.pure]

lemma stringTail_escape {c : Char} {s more : List Char} (h : escape s = .ok (c, more)) :
    stringTail ('\\' :: s) = (stringTail more).map fun p => (c :: p.1, p.2) := by
  rw [stringTail, if_neg (by decide), if_pos rfl]
  split
  · rename_i e he
    cases h.symm.trans he
  · rename_i d rest hd
    cases h.symm.trans hd
    rfl

/-- One character of a string, escaped where it has to be. -/
lemma stringTail_escapedChar (c : Char) (s : List Char) :
    stringTail (escapedChar c ++ s) = (stringTail s).map fun p => (c :: p.1, p.2) := by
  unfold escapedChar
  split
  · exact stringTail_escape rfl
  · exact stringTail_escape rfl
  · exact stringTail_escape rfl
  · exact stringTail_escape rfl
  · exact stringTail_escape rfl
  · exact stringTail_escape rfl
  · exact stringTail_escape rfl
  · rename_i hquote hbackslash _ _ _ _ _
    split
    · rename_i hcontrol
      exact stringTail_escape (escape_control hcontrol s)
    · rename_i hplain
      rw [List.singleton_append, stringTail, if_neg hquote, if_neg hbackslash, if_neg hplain]

lemma stringTail_escaped (text s : List Char) :
    stringTail (text.flatMap escapedChar ++ '"' :: s) = .ok (text, s) := by
  induction text with
  | nil =>
    rw [List.flatMap_nil, List.nil_append, stringTail, if_pos rfl]
  | cons c text ih =>
    rw [List.flatMap_cons, List.append_assoc, stringTail_escapedChar, ih]
    rfl

/-- A string is read back. -/
lemma quotedString_stringChars (text : String) (s : List Char) :
    quotedString (stringChars text ++ s) = .ok (text, s) := by
  have htail : (stringChars text ++ s).drop 1 = text.toList.flatMap escapedChar ++ '"' :: s := by
    simp [stringChars]
  rw [quotedString, htail, stringTail_escaped]
  simp [Except.map]

/-! ## Numbers -/

lemma isDigit_of_mem_toDigits {n : Nat} {c : Char} (hc : c ∈ Nat.toDigits 10 n) :
    isDigit c = true :=
  Nat.isDigit_of_mem_toDigits (by decide) (by decide) hc

/-- Only the number zero starts with the digit zero. -/
lemma tail_toDigits_eq_nil {n : Nat} {more : List Char} (h : Nat.toDigits 10 n = '0' :: more) :
    more = [] := by
  induction n using Nat.strongRecOn generalizing more with
  | ind n ih =>
    rw [Nat.toDigits_eq_if (by decide)] at h
    split at h
    · exact (List.cons.inj h).2.symm
    · rename_i hlarge
      obtain ⟨first, digits, hdigits⟩ :=
        List.exists_cons_of_ne_nil (Nat.toDigits_ne_nil (n := n / 10) (b := 10))
      rw [hdigits, List.cons_append] at h
      obtain ⟨rfl, -⟩ := List.cons.inj h
      have hnil : digits = [] := ih (n / 10) (by omega) hdigits
      have hzero : Nat.ofDigitChars 10 (Nat.toDigits 10 (n / 10)) 0 = 0 := by
        rw [hdigits, hnil]
        rfl
      rw [Nat.ofDigitChars_ten_toDigits] at hzero
      omega

lemma toList_toString_int (n : Int) : (toString n).toList = intChars n := by
  rw [intChars]
  cases n with
  | ofNat m =>
    have hnonneg : ¬Int.ofNat m < 0 := Int.not_lt.2 (Int.natCast_nonneg m)
    rw [if_neg hnonneg]
    exact Nat.toList_repr
  | negSucc m =>
    rw [if_pos (Int.negSucc_lt_zero m)]
    show ("-" ++ m.succ.repr).toList = _
    rw [String.toList_append, Nat.toList_repr]
    rfl

/-- The text of a number starts with a sign or a digit. -/
lemma exists_intChars_eq_cons (n : Int) :
    ∃ c s, intChars n = c :: s ∧ (c = '-' ∨ isDigit c = true) := by
  obtain ⟨c, digits, hdigits⟩ :=
    List.exists_cons_of_ne_nil (Nat.toDigits_ne_nil (n := n.natAbs) (b := 10))
  rw [intChars, hdigits]
  split
  · exact ⟨'-', c :: digits, rfl, .inl rfl⟩
  · exact ⟨c, digits, rfl,
      .inr (isDigit_of_mem_toDigits (n := n.natAbs) (by rw [hdigits]; exact List.mem_cons_self))⟩

lemma ne_of_startsNumber {c d : Char} (hc : c = '-' ∨ isDigit c = true)
    (hd : ¬(d = '-' ∨ isDigit d = true)) :
    c ≠ d := by
  rintro rfl
  exact hd hc

lemma isSpace_of_startsNumber {c : Char} (hc : c = '-' ∨ isDigit c = true) : isSpace c = false := by
  have hblank := ne_of_startsNumber (d := ' ') hc (by decide)
  have htab := ne_of_startsNumber (d := '\t') hc (by decide)
  have hline := ne_of_startsNumber (d := '\n') hc (by decide)
  have hreturn := ne_of_startsNumber (d := '\r') hc (by decide)
  simp [isSpace, hblank, htab, hline, hreturn]

/-! ## Punctuation -/

lemma colon_colon (s : List Char) : colon (':' :: s) = .ok ((), s) := rfl

lemma hasElement_first {c : Char} (hspace : isSpace c = false) (hc : c ≠ ']') (s : List Char) :
    hasElement true (c :: s) = .ok (true, c :: s) := by
  rw [hasElement, bind_of_ok (peek_cons hspace s)]
  simp [pure_run]

lemma hasElement_comma {c : Char} (hspace : isSpace c = false) (hc : c ≠ ']') (s : List Char) :
    hasElement false (',' :: c :: s) = .ok (true, c :: s) := by
  have hcomma : peek (',' :: c :: s) = .ok (some ',', ',' :: c :: s) := rfl
  rw [hasElement, bind_of_ok hcomma]
  simp [bind_of_ok (skipOne_cons ',' _), bind_of_ok (peek_cons hspace s), pure_run]

lemma closeList_bracket (s : List Char) : closeList (']' :: s) = .ok ((), s) := rfl

lemma chars_array_append (items : List Value) (rest : List Char) :
    (Value.array items).chars ++ rest = '[' :: (Value.itemChars items ++ ']' :: rest) := by
  simp [Value.chars]

lemma chars_object_append (members : List (String × Value)) (rest : List Char) :
    (Value.object members).chars ++ rest = '{' :: (Value.memberChars members ++ '}' :: rest) := by
  simp [Value.chars]

end Json

end ResourceStubs
