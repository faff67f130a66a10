import ResourceStubs.Proofs.Json.Grammar
import ResourceStubs.Proofs.Json.Tokens

/-!
# Reading numerals

What a number is read as depends on its spelling alone, never on what follows it
(`Json.number_append`), and a number that is skipped is taken off the text whatever its size
(`Json.skipNumber_append`). The digits in front of the point are gathered first, and what comes
behind them decides how the number goes on (`Json.afterWhole`).

For the numeral of a whole number this can be made exact. The loop over the digits takes all of them
exactly when their value fits in 64 bits (`Json.gather_rest_eq_nil_iff`); the others are counted,
and the number is rounded. With its sign the value may again be too large. What is left are the
whole numbers that are read as such, on both sides of zero (`Json.exists_number_ofInt`). Those of 64
bits with a sign are among them, so they are read back from their digits (`Json.number_intChars`).
-/

namespace ResourceStubs.Json

/-! ## Digits and their end -/

/-- What follows a value does not continue a number. -/
lemma Follows.no_number {rest : List Char} (h : Follows rest) {c : Char} (hc : c ∈ rest.head?) :
    isDigit c = false ∧ c ≠ '.' ∧ c ≠ 'e' ∧ c ≠ 'E' := by
  rcases h c hc with hspace | rfl | rfl | rfl
  · simp only [Json.isSpace, Bool.or_eq_true, beq_iff_eq] at hspace
    rcases hspace with ((rfl | rfl) | rfl) | rfl <;> decide
  all_goals decide

/-- The text does not start with a digit. -/
def NoDigit (s : List Char) : Prop :=
  ∀ c ∈ s.head?, isDigit c = false

lemma Follows.noDigit {rest : List Char} (h : Follows rest) : NoDigit rest :=
  fun _ hc => (h.no_number hc).1

lemma IsDigits.isDigit {s : List Char} (h : IsDigits s) : ∀ c ∈ s, isDigit c = true := by
  have hall : "0123456789".toList.all Json.isDigit = true := by decide
  exact fun c hc => List.all_eq_true.1 hall c (h.2 c hc)

lemma IsDigits.exists_cons {s : List Char} (h : IsDigits s) :
    ∃ c more, s = c :: more ∧ Json.isDigit c = true := by
  obtain ⟨c, more, rfl⟩ := List.exists_cons_of_ne_nil h.1
  exact ⟨c, more, rfl, h.isDigit c List.mem_cons_self⟩

/-- A run of digits ends where no digit follows. -/
lemma span_digits {digits tail : List Char} (hdigits : ∀ c ∈ digits, isDigit c = true)
    (htail : NoDigit tail) :
    (digits ++ tail).takeWhile isDigit = digits ∧ (digits ++ tail).dropWhile isDigit = tail := by
  rw [List.takeWhile_append_of_pos hdigits, List.dropWhile_append_of_pos hdigits]
  cases tail with
  | nil => simp
  | cons c tail => simp [htail c rfl]

/-- What digits are gathered into does not depend on what follows them. -/
lemma gather_append (digits : List Char) {tail : List Char} (htail : NoDigit tail)
    (significand count : Nat) :
    gather significand count (digits ++ tail) =
      ⟨(gather significand count digits).significand, (gather significand count digits).count,
        (gather significand count digits).rest ++ tail⟩ := by
  induction digits generalizing significand count with
  | nil =>
    cases tail with
    | nil => rfl
    | cons c tail => simp [gather, htail c rfl]
  | cons c digits ih =>
    rw [List.cons_append, gather, gather]
    split
    · exact ih _ _
    · rfl

lemma isDigit_of_mem_gather {digits : List Char} (hdigits : ∀ c ∈ digits, isDigit c = true)
    (significand count : Nat) :
    ∀ c ∈ (gather significand count digits).rest, isDigit c = true := by
  induction digits generalizing significand count with
  | nil => exact hdigits
  | cons c digits ih =>
    rw [gather]
    split
    · exact ih (fun d hd => hdigits d (List.mem_cons_of_mem c hd)) _ _
    · exact hdigits

lemma IsExponent.noDigit {exponent rest : List Char} (hexp : IsExponent exponent)
    (hrest : NoDigit rest) :
    NoDigit (exponent ++ rest) := by
  rcases hexp with rfl | ⟨mark, sign, digits, hmark, -, -, rfl⟩
  · exact hrest
  · rintro c ⟨⟩
    simp only [List.mem_cons, List.not_mem_nil, or_false] at hmark
    rcases hmark with rfl | rfl <;> rfl

lemma IsFraction.noDigit {fraction rest : List Char} (hfraction : IsFraction fraction)
    (hrest : NoDigit rest) :
    NoDigit (fraction ++ rest) := by
  rcases hfraction with rfl | ⟨digits, -, rfl⟩
  · exact hrest
  · rintro c ⟨⟩
    rfl

/-- Only the number zero starts with a zero. -/
lemma IsWhole.no_leading_zero {c : Char} {more tail : List Char} (h : IsWhole (c :: more))
    (htail : NoDigit tail) :
    ¬(c = '0' ∧ (more ++ tail).head?.any Json.isDigit = true) := by
  rintro ⟨rfl, hnext⟩
  obtain rfl : more = [] := (List.cons.inj (h.2 rfl)).2
  cases tail with
  | nil => cases hnext
  | cons d tail => simp [htail d rfl] at hnext

lemma ne_minus_of_isDigit {c : Char} (hc : isDigit c = true) : c ≠ '-' := by
  rintro rfl
  exact absurd hc (by decide)

lemma sign_append {text digits : List Char} (htext : text ∈ [[], ['+'], ['-']])
    (hdigits : IsDigits digits) :
    ∃ down, ∀ rest, sign (text ++ (digits ++ rest)) = (down, digits ++ rest) := by
  simp only [List.mem_cons, List.not_mem_nil, or_false] at htext
  rcases htext with rfl | rfl | rfl
  · obtain ⟨c, more, rfl, hc⟩ := hdigits.exists_cons
    refine ⟨false, fun rest => ?_⟩
    have hplus : c ≠ '+' := ne_of_startsNumber (.inr hc) (by decide)
    simp [sign, hplus, ne_minus_of_isDigit hc]
  · exact ⟨false, fun _ => rfl⟩
  · exact ⟨true, fun _ => rfl⟩

/-! ## Numbers that are read -/

section Numerals

variable (negative : Bool) (significand : Nat) (ex : Int)

lemma exponentPart_append {text digits : List Char} (htext : text ∈ [[], ['+'], ['-']])
    (hdigits : IsDigits digits) :
    ∃ o : Except Error Number, ∀ rest, Follows rest →
      exponentPart negative significand ex (text ++ (digits ++ rest)) = o.map (·, rest) := by
  obtain ⟨down, hdown⟩ := sign_append htext hdigits
  obtain ⟨c, more, hcons, hc⟩ := hdigits.exists_cons
  refine ⟨ofParts negative significand
    (if down then ex - digitsValue digits else ex + digitsValue digits), fun rest hrest => ?_⟩
  obtain ⟨htake, hdrop⟩ := span_digits hdigits.isDigit hrest.noDigit
  rw [hcons, List.cons_append] at htake hdrop
  simp only [exponentPart, hdown]
  rw [hcons, List.cons_append]
  simp only [hc, if_true, htake, hdrop]

lemma exponentOrEnd_follows {rest : List Char} (hrest : Follows rest) :
    exponentOrEnd negative significand ex rest =
      (ofParts negative significand ex).map (·, rest) := by
  unfold exponentOrEnd
  split
  · exact absurd rfl (hrest.no_number (c := 'e') rfl).2.2.1
  · exact absurd rfl (hrest.no_number (c := 'E') rfl).2.2.2
  · rfl

lemma exponentOrEnd_append {exponent : List Char} (hexp : IsExponent exponent) :
    ∃ o : Except Error Number, ∀ rest, Follows rest →
      exponentOrEnd negative significand ex (exponent ++ rest) = o.map (·, rest) := by
  rcases hexp with rfl | ⟨mark, text, digits, hmark, htext, hdigits, rfl⟩
  · exact ⟨_, fun rest hrest => exponentOrEnd_follows negative significand ex hrest⟩
  · obtain ⟨o, ho⟩ := exponentPart_append negative significand ex htext hdigits
    simp only [List.mem_cons, List.not_mem_nil, or_false] at hmark
    refine ⟨o, fun rest hrest => ?_⟩
    rw [← ho rest hrest, List.cons_append, List.append_assoc]
    rcases hmark with rfl | rfl <;> rfl

lemma fractionPart_append {digits exponent : List Char} (hdigits : IsDigits digits)
    (hexp : IsExponent exponent) :
    ∃ o : Except Error Number, ∀ rest, Follows rest →
      fractionPart negative significand ex (digits ++ (exponent ++ rest)) = o.map (·, rest) := by
  obtain ⟨o, ho⟩ := exponentOrEnd_append negative (gather significand 0 digits).significand
    (ex - (gather significand 0 digits).count) hexp
  refine ⟨o, fun rest hrest => ?_⟩
  have htail : NoDigit (exponent ++ rest) := hexp.noDigit hrest.noDigit
  have hgather := gather_append digits htail significand 0
  have hdrop := (span_digits (isDigit_of_mem_gather hdigits.isDigit significand 0) htail).2
  obtain ⟨c, more, hcons, hc⟩ := hdigits.exists_cons
  rw [← ho rest hrest]
  rw [hcons, List.cons_append] at hgather ⊢
  rw [hcons] at hdrop
  simp only [fractionPart, hc, if_true, hgather, hdrop]

/-- What decides about a number behind its whole part: a point, an exponent or neither. -/
def afterWhole (dropped : Nat) (tail : List Char) : Except Error (Number × List Char) :=
  match tail with
  | '.' :: tail => fractionPart negative significand dropped tail
  | _ =>
    if dropped = 0 ∧ !(tail.head?.any fun c => c == 'e' || c == 'E') then
      .ok (wholeNumber negative significand, tail)
    else exponentOrEnd negative significand dropped tail

lemma unsignedNumber_whole {whole tail : List Char} (hwhole : IsWhole whole)
    (htail : NoDigit tail) :
    unsignedNumber negative (whole ++ tail) =
      afterWhole negative (gather 0 0 whole).significand (gather 0 0 whole).rest.length tail := by
  have hgather := gather_append whole htail 0 0
  obtain ⟨htake, hdrop⟩ := span_digits (isDigit_of_mem_gather hwhole.1.isDigit 0 0) htail
  obtain ⟨c, more, rfl, hc⟩ := hwhole.1.exists_cons
  rw [List.cons_append] at hgather ⊢
  rw [unsignedNumber, if_neg (hwhole.no_leading_zero htail), if_pos hc]
  simp only [hgather, htake, hdrop]
  rfl

lemma afterWhole_follows (dropped : Nat) {rest : List Char} (hrest : Follows rest) :
    afterWhole negative significand dropped rest =
      (if dropped = 0 then .ok (wholeNumber negative significand)
        else ofParts negative significand dropped : Except Error Number).map (·, rest) := by
  have hmark : (rest.head?.any fun c => c == 'e' || c == 'E') = false := by
    cases rest with
    | nil => rfl
    | cons c rest =>
      obtain ⟨-, -, he, hE⟩ := hrest.no_number (c := c) rfl
      simp [he, hE]
  unfold afterWhole
  split
  · exact absurd rfl (hrest.no_number (c := '.') rfl).2.1
  · by_cases hdropped : dropped = 0
    · rw [if_pos ⟨hdropped, by rw [hmark]; rfl⟩, if_pos hdropped]
      rfl
    · rw [if_neg fun h => hdropped h.1, if_neg hdropped, exponentOrEnd_follows _ _ _ hrest]

lemma afterWhole_exponent (dropped : Nat) {exponent : List Char} (hexp : IsExponent exponent) :
    ∃ o : Except Error Number, ∀ rest, Follows rest →
      afterWhole negative significand dropped (exponent ++ rest) = o.map (·, rest) := by
  rcases hexp with rfl | hmarked
  · exact ⟨_, fun rest hrest => afterWhole_follows negative significand dropped hrest⟩
  · obtain ⟨o, ho⟩ := exponentOrEnd_append negative significand dropped (.inr hmarked)
    obtain ⟨mark, text, digits, hmark, -, -, rfl⟩ := hmarked
    simp only [List.mem_cons, List.not_mem_nil, or_false] at hmark
    refine ⟨o, fun rest hrest => ?_⟩
    rw [← ho rest hrest]
    rcases hmark with rfl | rfl <;> simp [afterWhole]

/-- A number behind its sign is read by its spelling alone. -/
lemma unsignedNumber_append (n : Numeral) :
    ∃ o : Except Error Number, ∀ rest, Follows rest →
      unsignedNumber negative (n.unsignedChars ++ rest) = o.map (·, rest) := by
  have hread (rest : List Char) (hrest : Follows rest) :
      unsignedNumber negative (n.unsignedChars ++ rest) =
        afterWhole negative (gather 0 0 n.whole).significand (gather 0 0 n.whole).rest.length
          (n.fraction ++ (n.exponent ++ rest)) := by
    rw [Numeral.unsignedChars, List.append_assoc, List.append_assoc]
    exact unsignedNumber_whole negative n.isWhole
      (n.isFraction.noDigit (n.isExponent.noDigit hrest.noDigit))
  have hafter : ∃ o : Except Error Number, ∀ rest, Follows rest →
      afterWhole negative (gather 0 0 n.whole).significand (gather 0 0 n.whole).rest.length
        (n.fraction ++ (n.exponent ++ rest)) = o.map (·, rest) := by
    rcases n.isFraction with hnone | ⟨digits, hdigits, hpoint⟩
    · rw [hnone]
      exact afterWhole_exponent _ _ _ n.isExponent
    · rw [hpoint]
      exact fractionPart_append _ _ _ hdigits n.isExponent
  obtain ⟨o, ho⟩ := hafter
  exact ⟨o, fun rest hrest => (hread rest hrest).trans (ho rest hrest)⟩

end Numerals

/-- The text of a number starts with a sign or a digit. -/
lemma Numeral.exists_chars_eq_cons (n : Numeral) :
    ∃ c s, n.chars = c :: s ∧ (c = '-' ∨ isDigit c = true) := by
  obtain ⟨c, more, hcons, hc⟩ := n.isWhole.1.exists_cons
  rw [chars]
  split
  · exact ⟨'-', n.unsignedChars, rfl, .inl rfl⟩
  · exact ⟨c, more ++ (n.fraction ++ n.exponent), by rw [unsignedChars, hcons]; rfl, .inr hc⟩

/-- A sign is taken off the text; other numbers start with a digit. -/
lemma number_chars (n : Numeral) (rest : List Char) :
    number (n.chars ++ rest) = unsignedNumber n.negative (n.unsignedChars ++ rest) ∧
      skipNumber (n.chars ++ rest) = (skipUnsigned (n.unsignedChars ++ rest)).map ((), ·) := by
  obtain ⟨c, more, hcons, hc⟩ := n.isWhole.1.exists_cons
  rw [Numeral.chars]
  cases n.negative with
  | true => exact ⟨rfl, rfl⟩
  | false =>
    have hstart : n.unsignedChars ++ rest = c :: (more ++ (n.fraction ++ n.exponent) ++ rest) := by
      rw [Numeral.unsignedChars, hcons]
      rfl
    rw [if_neg Bool.false_ne_true, hstart]
    simp [number, skipNumber, ne_minus_of_isDigit hc]

/-- A number is read by its spelling alone. -/
lemma number_append (n : Numeral) :
    ∃ o : Except Error Number, ∀ rest, Follows rest →
      number (n.chars ++ rest) = o.map (·, rest) := by
  obtain ⟨o, ho⟩ := unsignedNumber_append n.negative n
  exact ⟨o, fun rest hrest => (number_chars n rest).1.trans (ho rest hrest)⟩

/-! ## Numbers that are skipped -/

lemma head_any_isDigit {digits : List Char} (hdigits : IsDigits digits) (tail : List Char) :
    (digits ++ tail).head?.any isDigit = true := by
  obtain ⟨c, more, rfl, hc⟩ := hdigits.exists_cons
  simpa using hc

lemma skipExponent_append {text digits rest : List Char} (htext : text ∈ [[], ['+'], ['-']])
    (hdigits : IsDigits digits) (hrest : Follows rest) :
    skipExponent (text ++ (digits ++ rest)) = .ok rest := by
  have hskip : skipExponent (text ++ (digits ++ rest)) =
      if (digits ++ rest).head?.any isDigit then .ok ((digits ++ rest).dropWhile isDigit)
      else .error .invalidNumber := by
    simp only [List.mem_cons, List.not_mem_nil, or_false] at htext
    rcases htext with rfl | rfl | rfl
    · obtain ⟨c, more, rfl, hc⟩ := hdigits.exists_cons
      have hplus : c ≠ '+' := ne_of_startsNumber (.inr hc) (by decide)
      simp [skipExponent, hplus, ne_minus_of_isDigit hc, hc]
    · rfl
    · rfl
  rw [hskip, if_pos (head_any_isDigit hdigits rest), (span_digits hdigits.isDigit hrest.noDigit).2]

lemma skipExponentOrEnd_append {exponent rest : List Char} (hexp : IsExponent exponent)
    (hrest : Follows rest) :
    skipExponentOrEnd (exponent ++ rest) = .ok rest := by
  rcases hexp with rfl | ⟨mark, text, digits, hmark, htext, hdigits, rfl⟩
  · rw [List.nil_append]
    unfold skipExponentOrEnd
    split
    · exact absurd rfl (hrest.no_number (c := 'e') rfl).2.2.1
    · exact absurd rfl (hrest.no_number (c := 'E') rfl).2.2.2
    · rfl
  · rw [← skipExponent_append htext hdigits hrest, List.cons_append, List.append_assoc]
    simp only [List.mem_cons, List.not_mem_nil, or_false] at hmark
    rcases hmark with rfl | rfl <;> rfl

lemma skipUnsigned_append (n : Numeral) {rest : List Char} (hrest : Follows rest) :
    skipUnsigned (n.unsignedChars ++ rest) = .ok rest := by
  have htail := n.isExponent.noDigit hrest.noDigit
  have hwhole := n.isWhole
  have hdrop := (span_digits hwhole.1.isDigit (n.isFraction.noDigit htail)).2
  obtain ⟨c, more, hcons, hc⟩ := hwhole.1.exists_cons
  rw [Numeral.unsignedChars, List.append_assoc, List.append_assoc]
  rw [hcons] at hwhole
  rw [hcons, List.cons_append] at hdrop ⊢
  have hstart := hwhole.no_leading_zero (n.isFraction.noDigit htail)
  rw [skipUnsigned, if_neg (not_or.2 ⟨hstart, not_not.2 hc⟩), hdrop]
  rcases n.isFraction with hnone | ⟨digits, hdigits, hpoint⟩
  · rw [hnone, List.nil_append, ← skipExponentOrEnd_append n.isExponent hrest]
    split
    · rename_i tail hpoint
      rcases n.isExponent with hend | ⟨mark, text, digits, hmark, -, -, hexp⟩
      · rw [hend, List.nil_append] at hpoint
        exact absurd rfl (hrest.no_number (c := '.') (by rw [hpoint]; rfl)).2.1
      · rw [hexp, List.cons_append] at hpoint
        rw [(List.cons.inj hpoint).1] at hmark
        exact absurd hmark (by decide)
    · rfl
  · simp only [hpoint, List.cons_append, head_any_isDigit hdigits, if_true,
      (span_digits hdigits.isDigit htail).2]
    exact skipExponentOrEnd_append n.isExponent hrest

/-- A number of any size is skipped. -/
lemma skipNumber_append (n : Numeral) {rest : List Char} (hrest : Follows rest) :
    skipNumber (n.chars ++ rest) = .ok ((), rest) := by
  rw [(number_chars n rest).2, skipUnsigned_append n hrest]
  rfl

/-! ## Gathering digits -/

lemma le_ofDigitChars (digits : List Char) (n : Nat) : n ≤ Nat.ofDigitChars 10 digits n := by
  rw [Nat.ofDigitChars_eq_ofDigitChars_zero]
  have hpow : 1 ≤ 10 ^ digits.length := Nat.one_le_pow _ _ (by decide)
  have hmul : 1 * n ≤ 10 ^ digits.length * n := Nat.mul_le_mul_right n hpow
  omega

/-- Digits that were all gathered have the value of the significand. -/
lemma gather_significand_of_rest {digits : List Char} {significand count : Nat}
    (h : (gather significand count digits).rest = []) :
    (gather significand count digits).significand = Nat.ofDigitChars 10 digits significand := by
  induction digits generalizing significand count with
  | nil => rfl
  | cons c digits ih =>
    rw [gather] at h ⊢
    split at h
    · rename_i hfits
      rw [if_pos hfits, ih h, Nat.ofDigitChars_cons, digitValue, Nat.mul_comm]
    · cases h

/-- All digits are gathered exactly when their value fits. -/
lemma gather_rest_eq_nil_iff {digits : List Char} (hdigits : ∀ c ∈ digits, isDigit c = true)
    {significand : Nat} (count : Nat) (h : significand ≤ significandLimit) :
    (gather significand count digits).rest = [] ↔
      Nat.ofDigitChars 10 digits significand ≤ significandLimit := by
  induction digits generalizing significand count with
  | nil => exact iff_of_true rfl h
  | cons c digits ih =>
    have hvalue : 10 * significand + (c.toNat - '0'.toNat) = significand * 10 + digitValue c := by
      rw [digitValue]
      omega
    rw [gather, Nat.ofDigitChars_cons, hvalue]
    by_cases hfits : significand * 10 + digitValue c ≤ significandLimit
    · rw [if_pos ⟨hdigits c List.mem_cons_self, hfits⟩]
      exact ih (fun d hd => hdigits d (List.mem_cons_of_mem c hd)) _ hfits
    · -- the digit that does not fit stays, and further digits only make the value larger
      have hbeyond := le_ofDigitChars digits (significand * 10 + digitValue c)
      rw [if_neg fun hc => hfits hc.2]
      exact iff_of_false (List.cons_ne_nil c digits) (by omega)

/-! ## The numeral of a whole number -/

lemma mem_digits_of_isDigit {c : Char} (hc : isDigit c = true) : c ∈ "0123456789".toList := by
  have hall : ∀ k < 58, 48 ≤ k → Char.ofNat k ∈ "0123456789".toList := by decide
  simp only [isDigit, Bool.and_eq_true, decide_eq_true_eq] at hc
  obtain ⟨hlow, hhigh⟩ := hc
  have hcode : 48 ≤ c.toNat ∧ c.toNat < 58 := ⟨hlow, Nat.lt_succ_of_le hhigh⟩
  rw [← Char.ofNat_toNat c]
  exact hall c.toNat hcode.2 hcode.1

lemma isWhole_toDigits (n : Nat) : IsWhole (Nat.toDigits 10 n) := by
  refine ⟨⟨Nat.toDigits_ne_nil, fun c hc => mem_digits_of_isDigit (isDigit_of_mem_toDigits hc)⟩,
    fun hzero => ?_⟩
  obtain ⟨more, hmore⟩ := List.head?_eq_some_iff.1 hzero
  rw [hmore, tail_toDigits_eq_nil hmore]

/-- A whole number in decimal digits. -/
def Numeral.ofInt (n : Int) : Numeral where
  negative := n < 0
  whole := Nat.toDigits 10 n.natAbs
  fraction := []
  exponent := []
  isWhole := isWhole_toDigits n.natAbs
  isFraction := .inl rfl
  isExponent := .inl rfl

lemma Numeral.chars_ofInt (n : Int) : (Numeral.ofInt n).chars = intChars n := by
  rw [intChars, chars, unsignedChars]
  simp [ofInt]

/-- The whole number that a number stands for. -/
def integerOf : Number → Option Int
  | .integer n => some n
  | .float _ => none

lemma integerOf_ofParts (negative : Bool) (significand : Nat) (exponent : Int) :
    (ofParts negative significand exponent).toOption.bind integerOf = none := by
  unfold ofParts
  cases Decimal.scale significand exponent <;> rfl

/-- Digits alone stand for a whole number unless the sign makes them too large. -/
lemma integerOf_wholeNumber (n : Int) :
    integerOf (wholeNumber (n < 0) n.natAbs) = if -Int.pow 2 63 ≤ n then some n else none := by
  have hnat : Nat.pow 2 63 = 9223372036854775808 := by decide
  have hint : Int.pow 2 63 = 9223372036854775808 := by decide
  unfold wholeNumber
  rw [hnat, hint]
  by_cases hneg : n < 0
  · rw [if_pos (decide_eq_true hneg)]
    by_cases hlow : -9223372036854775808 ≤ n
    · have hvalue : -(n.natAbs : Int) = n := by omega
      rw [if_neg (by omega), if_pos hlow, hvalue, integerOf]
    · rw [if_pos (by omega), if_neg hlow, integerOf]
  · have hvalue : (n.natAbs : Int) = n := by omega
    rw [if_neg (by simpa using hneg), if_pos (by omega), hvalue, integerOf]

lemma number_ofInt (n : Int) {rest : List Char} (hrest : Follows rest) :
    number ((Numeral.ofInt n).chars ++ rest) =
      (if (gather 0 0 (Nat.toDigits 10 n.natAbs)).rest.length = 0 then
          .ok (wholeNumber (n < 0) (gather 0 0 (Nat.toDigits 10 n.natAbs)).significand)
        else ofParts (n < 0) (gather 0 0 (Nat.toDigits 10 n.natAbs)).significand
          (gather 0 0 (Nat.toDigits 10 n.natAbs)).rest.length : Except Error Number).map
            (·, rest) := by
  have hunsigned := unsignedNumber_whole (n < 0) (isWhole_toDigits n.natAbs) hrest.noDigit
  rw [afterWhole_follows _ _ _ hrest] at hunsigned
  rw [(number_chars _ rest).1, ← hunsigned]
  simp [Numeral.unsignedChars, Numeral.ofInt]

/-- A whole number is read as such exactly when it fits in 64 bits, with or without a sign. -/
lemma exists_number_ofInt (n : Int) :
    ∃ value : Option Number,
      (∀ rest, Follows rest → Gives (number ((Numeral.ofInt n).chars ++ rest)) value rest) ∧
      value.bind integerOf = if -Int.pow 2 63 ≤ n ∧ n < Int.pow 2 64 then some n else none := by
  have hlimit : significandLimit = 18446744073709551615 := by decide
  have hhalf : Int.pow 2 63 = 9223372036854775808 := by decide
  have hfull : Int.pow 2 64 = 18446744073709551616 := by decide
  have hvalue : Nat.ofDigitChars 10 (Nat.toDigits 10 n.natAbs) 0 = n.natAbs :=
    Nat.ofDigitChars_ten_toDigits
  have hdigits : ∀ c ∈ Nat.toDigits 10 n.natAbs, isDigit c = true :=
    fun _ hc => isDigit_of_mem_toDigits hc
  have hall := gather_rest_eq_nil_iff hdigits 0 (Nat.zero_le significandLimit)
  refine ⟨_, fun rest hrest => number_ofInt n hrest ▸ gives_toOption _ rest, ?_⟩
  by_cases hfits : n.natAbs ≤ significandLimit
  · have hnone := hall.2 (hvalue.symm ▸ hfits)
    have hbelow : n < Int.pow 2 64 := by omega
    rw [gather_significand_of_rest hnone, hnone, hvalue, if_pos List.length_nil]
    refine (integerOf_wholeNumber n).trans ?_
    simp only [hbelow, and_true]
  · have hsome : (gather 0 0 (Nat.toDigits 10 n.natAbs)).rest ≠ [] :=
      fun h => hfits (hvalue ▸ hall.1 h)
    have hbeyond : ¬(-Int.pow 2 63 ≤ n ∧ n < Int.pow 2 64) := by omega
    rw [if_neg fun h => hsome (List.length_eq_zero_iff.1 h), integerOf_ofParts, if_neg hbeyond]

lemma eq_integer_of_integerOf {number : Number} {n : Int} (h : integerOf number = some n) :
    number = .integer n := by
  cases number with
  | integer m => exact congrArg Number.integer (Option.some.inj h)
  | float x => cases h

/-- A whole number of 64 bits is read back. -/
lemma number_intChars (i : Int64) {rest : List Char} (hrest : Follows rest) :
    number (intChars i.toInt ++ rest) = .ok (.integer i.toInt, rest) := by
  have hrange : -Int.pow 2 63 ≤ i.toInt ∧ i.toInt < Int.pow 2 64 :=
    ⟨Int64.le_toInt i, Int.lt_trans (Int64.toInt_lt i) (by decide)⟩
  obtain ⟨value, hnumber, hvalue⟩ := exists_number_ofInt i.toInt
  rw [if_pos hrange] at hvalue
  obtain ⟨number, hsome, hinteger⟩ := Option.bind_eq_some_iff.1 hvalue
  rw [← Numeral.chars_ofInt, (hnumber rest hrest).1 number hsome, eq_integer_of_integerOf hinteger]

end ResourceStubs.Json
