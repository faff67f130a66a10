import ResourceStubs.Proofs.Arguments
import ResourceStubs.Proofs.Cutting
import ResourceStubs.Proofs.Json.Tokens

/-!
# Markers with the same text

The marker of an annotation shows its name and its arguments. Names and keys are words, texts are in
quotes, and numbers are not; so the text of a marker is read from left to right, and each part ends
at a character that cannot belong to it. Arguments that are texts may hold any punctuation except
the quote.

There is one exception. A sole positional argument is quoted even if it is a number, so a number and
the text of its digits look alike there. `quoteSole` puts the exception into the arguments
themselves: after it, a marker is nothing but a list of arguments (`Annotation.text_eq`), and such
lists are determined by their text (`Annotation.listed_inj`).

The order in which arguments are set does not show, because an argument map keeps them in the order
of their keys.
-/

namespace ResourceStubs

/-! ## Numbers in digits -/

lemma isDigit_of_mem_toDigits_ten {n : Nat} {c : Char} (h : c ∈ Nat.toDigits 10 n) :
    c.isDigit = true :=
  Nat.isDigit_of_mem_toDigits (by decide) (by decide) h

lemma isDigit_or_eq_of_mem_toString {n : Int} {c : Char} (h : c ∈ (toString n).toList) :
    c.isDigit = true ∨ c = '-' := by
  rw [Json.toList_toString_int, Json.intChars] at h
  split at h
  · rcases List.mem_cons.1 h with rfl | h
    · exact .inr rfl
    · exact .inl (isDigit_of_mem_toDigits_ten h)
  · exact .inl (isDigit_of_mem_toDigits_ten h)

lemma toString_int_inj {m n : Int} (h : toString m = toString n) : m = n := by
  have hdigits : ∀ {k l : Nat}, Nat.toDigits 10 k = Nat.toDigits 10 l → k = l := by
    intro k l hkl
    calc
      k = Nat.ofDigitChars 10 (Nat.toDigits 10 k) 0 := Nat.ofDigitChars_ten_toDigits.symm
      _ = Nat.ofDigitChars 10 (Nat.toDigits 10 l) 0 := by rw [hkl]
      _ = l := Nat.ofDigitChars_ten_toDigits
  have hminus : ∀ {k : Nat} {s : List Char}, Nat.toDigits 10 k ≠ '-' :: s := by
    intro k s hk
    have hdigit : '-' ∈ Nat.toDigits 10 k := by rw [hk]; exact List.mem_cons_self
    exact absurd (isDigit_of_mem_toDigits_ten hdigit) (by decide)
  have hchars := congrArg String.toList h
  rw [Json.toList_toString_int, Json.toList_toString_int, Json.intChars, Json.intChars] at hchars
  split at hchars
  · split at hchars
    · have habs := hdigits (List.cons.inj hchars).2
      omega
    · exact absurd hchars.symm hminus
  · split at hchars
    · exact absurd hchars hminus
    · have habs := hdigits hchars
      omega

namespace Annotation

/-! ## Plain annotations -/

/-- Characters of names and keys. -/
def IsWordChar (c : Char) : Prop :=
  c.isAlphanum = true ∨ c = '_' ∨ c = '.'

instance (c : Char) : Decidable (IsWordChar c) :=
  inferInstanceAs (Decidable (_ ∨ _ ∨ _))

/-- The value does not hold a quote. -/
def QuoteFree : Literal → Prop
  | .int _ => True
  | .string s => '"' ∉ s.toList

/-- The key is a word, or empty, and the value does not hold a quote. -/
structure IsPlainEntry (e : String × Literal) : Prop where
  key : ∀ c ∈ e.1.toList, IsWordChar c
  value : QuoteFree e.2

/-- The name is a word and all arguments are plain. -/
structure IsPlain (a : Annotation) : Prop where
  name : ∀ c ∈ a.name.toList, IsWordChar c
  args : ∀ e ∈ a.args.entries, IsPlainEntry e

/-! ## Values -/

/-- Characters of words and of numbers, which other characters end. -/
def IsSolid (c : Char) : Prop :=
  IsWordChar c ∨ c = '-'

instance (c : Char) : Decidable (IsSolid c) :=
  inferInstanceAs (Decidable (_ ∨ _))

/-- The text can follow an argument. -/
def EndsEntry (rest : List Char) : Prop :=
  ∀ c ∈ rest.head?, c = ',' ∨ c = ')'

variable {rest rest' : List Char}

lemma EndsEntry.not_isSolid (h : EndsEntry rest) : ∀ c ∈ rest.head?, ¬IsSolid c := by
  intro c hc
  rcases h c hc with rfl | rfl <;> decide

lemma isSolid_of_mem_toString (n : Int) : ∀ c ∈ (toString n).toList, IsSolid c := by
  intro c hc
  rcases isDigit_or_eq_of_mem_toString hc with hdigit | rfl
  · exact .inl (.inl (by rw [Char.isAlphanum, hdigit, Bool.or_true]))
  · exact .inr rfl

/-- A number does not look like a text in quotes. -/
lemma toString_append_ne {n : Int} {s : List Char} (hrest : EndsEntry rest) :
    (toString n).toList ++ rest ≠ [] ++ '"' :: s := by
  intro h
  have hquote : ∀ c ∈ ('"' :: s).head?, ¬IsSolid c := by
    rintro c ⟨⟩
    decide
  obtain ⟨-, rfl⟩ :=
    append_inj_of_forall (isSolid_of_mem_toString n) (List.forall_mem_nil IsSolid) hrest.not_isSolid
      hquote h
  exact absurd (hrest '"' rfl) (by decide)

lemma display_string_append (s : String) (rest : List Char) :
    (Literal.string s).display.toList ++ rest = '"' :: (s.toList ++ '"' :: rest) := by
  have hquote : "\"".toList = ['"'] := rfl
  rw [Literal.display, String.toList_append, String.toList_append, hquote]
  simp

/-- A value ends where its digits end, or at its second quote. -/
lemma display_append_inj {v w : Literal} (hv : QuoteFree v) (hw : QuoteFree w)
    (hrest : EndsEntry rest) (hrest' : EndsEntry rest')
    (h : v.display.toList ++ rest = w.display.toList ++ rest') : v = w ∧ rest = rest' := by
  cases v with
  | int m =>
    cases w with
    | int n =>
      obtain ⟨hdigits, hends⟩ := append_inj_of_forall (isSolid_of_mem_toString m.toInt)
        (isSolid_of_mem_toString n.toInt) hrest.not_isSolid hrest'.not_isSolid h
      have hvalue := toString_int_inj (String.toList_inj.1 hdigits)
      exact ⟨congrArg _ (Int64.toInt_inj.1 hvalue), hends⟩
    | string t =>
      rw [display_string_append] at h
      exact absurd h (toString_append_ne hrest)
  | string s =>
    cases w with
    | int n =>
      rw [display_string_append] at h
      exact absurd h.symm (toString_append_ne hrest')
    | string t =>
      rw [display_string_append, display_string_append] at h
      have hfree : ∀ {u : String}, '"' ∉ u.toList → ∀ c ∈ u.toList, c ≠ '"' := by
        intro u hu c hc
        exact ne_of_mem_of_not_mem hc hu
      have hquote : ∀ {tail : List Char}, ∀ c ∈ ('"' :: tail).head?, ¬c ≠ '"' := by
        rintro tail c ⟨⟩
        simp
      obtain ⟨htext, hends⟩ :=
        append_inj_of_forall (hfree hv) (hfree hw) hquote hquote (List.cons.inj h).2
      exact ⟨congrArg _ (String.toList_inj.1 htext), (List.cons.inj hends).2⟩

/-- A value without a key does not look like a key. -/
lemma display_append_ne {v : Literal} {key s : List Char} (hkey : ∀ c ∈ key, IsWordChar c)
    (hne : key ≠ []) (hrest : EndsEntry rest) : v.display.toList ++ rest ≠ key ++ '=' :: s := by
  intro h
  cases v with
  | int n =>
    have hequals : ∀ c ∈ ('=' :: s).head?, ¬IsSolid c := by
      rintro c ⟨⟩
      decide
    obtain ⟨-, rfl⟩ :=
      append_inj_of_forall (isSolid_of_mem_toString n.toInt) (fun c hc => .inl (hkey c hc))
      hrest.not_isSolid hequals h
    exact absurd (hrest '=' rfl) (by decide)
  | string t =>
    obtain ⟨c, others, rfl⟩ := List.exists_cons_of_ne_nil hne
    rw [display_string_append] at h
    obtain rfl := (List.cons.inj h).1
    exact absurd (hkey '"' List.mem_cons_self) (by decide)

/-! ## Arguments -/

variable {e d : String × Literal}

lemma entryText_of_positional (h : e.1 = "") : entryText e = e.2.display := by
  rw [entryText, if_pos (String.isEmpty_iff.2 h)]

lemma entryText_of_key (h : e.1 ≠ "") (rest : List Char) :
    (entryText e).toList ++ rest = e.1.toList ++ '=' :: (e.2.display.toList ++ rest) := by
  have hequals : "=".toList = ['='] := rfl
  rw [entryText, if_neg (mt String.isEmpty_iff.1 h), String.toList_append, String.toList_append,
    hequals]
  simp

/-- An argument ends where its value ends. -/
lemma entryText_append_inj (he : IsPlainEntry e) (hd : IsPlainEntry d) (hrest : EndsEntry rest)
    (hrest' : EndsEntry rest') (h : (entryText e).toList ++ rest = (entryText d).toList ++ rest') :
    e = d ∧ rest = rest' := by
  have hfilled : ∀ {key : String}, key ≠ "" → key.toList ≠ [] :=
    fun hkey hnil => hkey (String.toList_inj.1 hnil)
  by_cases hekey : e.1 = ""
  · rw [entryText_of_positional hekey] at h
    by_cases hdkey : d.1 = ""
    · rw [entryText_of_positional hdkey] at h
      obtain ⟨hvalue, hends⟩ := display_append_inj he.value hd.value hrest hrest' h
      exact ⟨Prod.ext (hekey.trans hdkey.symm) hvalue, hends⟩
    · rw [entryText_of_key hdkey] at h
      exact absurd h (display_append_ne hd.key (hfilled hdkey) hrest)
  · rw [entryText_of_key hekey] at h
    by_cases hdkey : d.1 = ""
    · rw [entryText_of_positional hdkey] at h
      exact absurd h.symm (display_append_ne he.key (hfilled hekey) hrest')
    · rw [entryText_of_key hdkey] at h
      have hequals : ∀ {tail : List Char}, ∀ c ∈ ('=' :: tail).head?, ¬IsWordChar c := by
        rintro tail c ⟨⟩
        decide
      obtain ⟨hkey, htail⟩ := append_inj_of_forall he.key hd.key hequals hequals h
      obtain ⟨hvalue, hends⟩ :=
        display_append_inj he.value hd.value hrest hrest' (List.cons.inj htail).2
      exact ⟨Prod.ext (String.toList_inj.1 hkey) hvalue, hends⟩

/-- The arguments behind the first one. -/
def moreChars (entries : List (String × Literal)) : List Char :=
  entries.flatMap fun e => ',' :: ' ' :: (entryText e).toList

lemma toList_intercalate_entryText (e : String × Literal) (entries : List (String × Literal)) :
    (", ".intercalate ((e :: entries).map entryText)).toList =
      (entryText e).toList ++ moreChars entries := by
  have hcomma : ", ".toList = [',', ' '] := rfl
  induction entries generalizing e with
  | nil => simp [moreChars]
  | cons d entries ih =>
    rw [List.map_cons, List.map_cons, String.intercalate_cons_cons, String.toList_append,
      String.toList_append, ← List.map_cons, ih d, hcomma]
    simp [moreChars]

lemma endsEntry_moreChars (entries : List (String × Literal)) :
    EndsEntry (moreChars entries ++ [')']) := by
  intro c hc
  cases entries with
  | nil => exact .inr (Option.some.inj hc).symm
  | cons e entries => exact .inl (Option.some.inj hc).symm

/-- The list of arguments ends at the bracket. -/
lemma moreChars_inj {entries entries' : List (String × Literal)} (h : ∀ e ∈ entries, IsPlainEntry e)
    (h' : ∀ e ∈ entries', IsPlainEntry e)
    (heq : moreChars entries ++ [')'] = moreChars entries' ++ [')']) :
    entries = entries' := by
  have hcons : ∀ (e : String × Literal) (more : List (String × Literal)),
      moreChars (e :: more) ++ [')'] =
      ',' :: ' ' :: ((entryText e).toList ++ (moreChars more ++ [')'])) := by
    intro e more
    simp [moreChars]
  have hnil : moreChars [] ++ [')'] = [')'] := rfl
  induction entries generalizing entries' with
  | nil =>
    cases entries' with
    | nil => rfl
    | cons d entries' =>
      rw [hnil, hcons] at heq
      exact absurd (List.cons.inj heq).1 (by decide)
  | cons e entries ih =>
    cases entries' with
    | nil =>
      rw [hnil, hcons] at heq
      exact absurd (List.cons.inj heq).1 (by decide)
    | cons d entries' =>
      rw [hcons, hcons] at heq
      obtain ⟨rfl, hmore⟩ := entryText_append_inj (h e List.mem_cons_self) (h' d List.mem_cons_self)
        (endsEntry_moreChars entries) (endsEntry_moreChars entries')
          (List.cons.inj (List.cons.inj heq).2).2
      rw [ih (fun x hx => h x (List.mem_cons_of_mem _ hx))
        (fun x hx => h' x (List.mem_cons_of_mem _ hx)) hmore]

/-- Arguments in brackets; no arguments, no brackets. -/
def listed : List (String × Literal) → String
  | [] => ""
  | e :: entries => "(" ++ ", ".intercalate ((e :: entries).map entryText) ++ ")"

lemma toList_listed_cons (e : String × Literal) (entries : List (String × Literal)) :
    (listed (e :: entries)).toList =
      '(' :: ((entryText e).toList ++ (moreChars entries ++ [')'])) := by
  have hopen : "(".toList = ['('] := rfl
  have hclose : ")".toList = [')'] := rfl
  rw [listed, String.toList_append, String.toList_append, toList_intercalate_entryText, hopen,
    hclose]
  simp

/-- The text of plain arguments determines them. -/
lemma listed_inj {entries entries' : List (String × Literal)} (h : ∀ e ∈ entries, IsPlainEntry e)
    (h' : ∀ e ∈ entries', IsPlainEntry e)
    (heq : (listed entries).toList = (listed entries').toList) :
    entries = entries' := by
  cases entries with
  | nil =>
    cases entries' with
    | nil => rfl
    | cons d entries' =>
      rw [toList_listed_cons] at heq
      cases heq
  | cons e entries =>
    cases entries' with
    | nil =>
      rw [toList_listed_cons] at heq
      cases heq
    | cons d entries' =>
      rw [toList_listed_cons, toList_listed_cons] at heq
      obtain ⟨rfl, hmore⟩ := entryText_append_inj (h e List.mem_cons_self) (h' d List.mem_cons_self)
        (endsEntry_moreChars entries) (endsEntry_moreChars entries') (List.cons.inj heq).2
      rw [moreChars_inj (fun x hx => h x (List.mem_cons_of_mem _ hx))
        (fun x hx => h' x (List.mem_cons_of_mem _ hx))
        hmore]

/-! ## The exception -/

/-- A sole positional argument as a text; all other arguments stay. -/
def quoteSole : List (String × Literal) → List (String × Literal)
  | [(key, value)] => [(key, if key.isEmpty then .string value.raw else value)]
  | entries => entries

/-- A marker is the name and a list of arguments. -/
lemma text_eq (a : Annotation) : a.text = "@" ++ a.name ++ listed (quoteSole a.args.entries) := by
  unfold text
  rcases a.args.entries with _ | ⟨⟨key, value⟩, _ | ⟨d, more⟩⟩
  · simp only [quoteSole, listed, String.append_empty]
  · have hopen : "(\"" = "(" ++ "\"" := rfl
    have hclose : "\")" = "\"" ++ ")" := rfl
    by_cases hkey : key.isEmpty = true
    · simp only [quoteSole, listed, hkey, if_true, List.map_cons, List.map_nil,
        String.intercalate_singleton, entryText, Literal.display, hopen, hclose,
        String.append_assoc]
    · simp only [quoteSole, listed, hkey, Bool.false_eq_true, if_false, List.map_cons, List.map_nil,
        String.intercalate_singleton, String.append_assoc]
  · simp only [quoteSole, listed, String.append_assoc]

lemma isPlainEntry_quoteSole {entries : List (String × Literal)}
    (h : ∀ e ∈ entries, IsPlainEntry e) :
    ∀ e ∈ quoteSole entries, IsPlainEntry e := by
  unfold quoteSole
  split
  · rename_i key value
    have hentry := h (key, value) List.mem_cons_self
    intro e he
    obtain rfl := List.mem_singleton.1 he
    refine ⟨hentry.key, ?_⟩
    dsimp only
    split
    · cases value with
      | int n =>
        intro hquote
        exact absurd (isSolid_of_mem_toString _ _ hquote) (by decide)
      | string s => exact hentry.value
    · exact hentry.value
  · exact h

lemma length_quoteSole (entries : List (String × Literal)) :
    (quoteSole entries).length = entries.length := by
  unfold quoteSole
  split <;> rfl

lemma quoteSole_of_length_ne {entries : List (String × Literal)} (h : entries.length ≠ 1) :
    quoteSole entries = entries := by
  unfold quoteSole
  split
  · exact absurd rfl h
  · rfl

/-- Only sole positional arguments are changed, and they still show what they are without quotes. -/
lemma quoteSole_eq_iff {entries entries' : List (String × Literal)} :
    quoteSole entries = quoteSole entries' ↔
      entries = entries' ∨ ∃ v w, entries = [("", v)] ∧ entries' = [("", w)] ∧ v.raw = w.raw := by
  constructor
  · intro h
    have hlength : entries.length = entries'.length := by
      rw [← length_quoteSole, h, length_quoteSole]
    by_cases hone : entries.length = 1
    · obtain ⟨⟨key, v⟩, rfl⟩ := List.length_eq_one_iff.1 hone
      obtain ⟨⟨key', w⟩, rfl⟩ := List.length_eq_one_iff.1 (hlength.symm.trans hone)
      simp only [quoteSole, List.cons.injEq, Prod.mk.injEq, and_true] at h
      obtain ⟨rfl, hvalue⟩ := h
      by_cases hkey : key = ""
      · subst hkey
        exact .inr ⟨v, w, rfl, rfl, Literal.string.inj hvalue⟩
      · simp only [String.isEmpty_iff, hkey, if_false] at hvalue
        exact .inl (by rw [hvalue])
    · rw [quoteSole_of_length_ne hone, quoteSole_of_length_ne (hlength ▸ hone)] at h
      exact .inl h
  · rintro (rfl | ⟨v, w, rfl, rfl, hraw⟩)
    · rfl
    · have hempty : "".isEmpty = true := rfl
      simp only [quoteSole, hempty, if_true, hraw]

/-- The name of a marker ends at the bracket, or with the marker. -/
lemma not_isWordChar_listed (entries : List (String × Literal)) :
    ∀ c ∈ (listed entries).toList.head?, ¬IsWordChar c := by
  intro c hc
  cases entries with
  | nil => cases hc
  | cons e entries =>
    rw [toList_listed_cons] at hc
    obtain rfl : '(' = c := Option.some.inj hc
    decide

/-- The marker of a plain annotation shows its name, and its arguments up to the exception. -/
lemma text_eq_iff_quoteSole {a b : Annotation} (ha : a.IsPlain) (hb : b.IsPlain) :
    a.text = b.text ↔ a.name = b.name ∧ quoteSole a.args.entries = quoteSole b.args.entries := by
  constructor
  · intro h
    rw [text_eq, text_eq, String.append_assoc, String.append_assoc, String.append_right_inj,
      ← String.toList_inj, String.toList_append, String.toList_append] at h
    obtain ⟨hname, hargs⟩ :=
      append_inj_of_forall ha.name hb.name (not_isWordChar_listed _) (not_isWordChar_listed _) h
    exact ⟨String.toList_inj.1 hname,
      listed_inj (isPlainEntry_quoteSole ha.args) (isPlainEntry_quoteSole hb.args) hargs⟩
  · rintro ⟨hname, hargs⟩
    rw [text_eq, text_eq, hname, hargs]

end Annotation

/-- Values with the same text without quotes are equal, or they are a number and its digits. -/
lemma Literal.raw_eq_iff {v w : Literal} :
    v.raw = w.raw ↔ v = w ∨ ∃ n : Int64, (v = .int n ∧ w = .string (toString n.toInt)) ∨
      (v = .string (toString n.toInt) ∧ w = .int n) := by
  constructor
  · intro h
    cases v with
    | int m =>
      cases w with
      | int n => exact .inl (congrArg _ (Int64.toInt_inj.1 (toString_int_inj h)))
      | string t => exact .inr ⟨m, .inl ⟨rfl, congrArg _ h.symm⟩⟩
    | string s =>
      cases w with
      | int n => exact .inr ⟨n, .inr ⟨congrArg _ h, rfl⟩⟩
      | string t => exact .inl (congrArg _ h)
  · rintro (rfl | ⟨n, ⟨rfl, rfl⟩ | ⟨rfl, rfl⟩⟩) <;> rfl

/-- The arguments that consist of one positional value. -/
def ArgMap.sole (value : Literal) : ArgMap :=
  ArgMap.empty.insert "" value

lemma ArgMap.eq_sole_iff {m : ArgMap} {value : Literal} :
    m = .sole value ↔ m.entries = [("", value)] := by
  constructor
  · rintro rfl
    rfl
  · intro h
    exact ArgMap.ext h

/-- Keys come in order, and no key comes before the empty one. -/
lemma ArgMap.head?_entries {m : ArgMap} {value : Literal} (h : ("", value) ∈ m.entries) :
    m.entries.head? = some ("", value) := by
  obtain ⟨entries, hsorted⟩ := m
  dsimp only at h ⊢
  cases entries with
  | nil => cases h
  | cons e entries =>
    rcases List.mem_cons.1 h with rfl | hlater
    · rfl
    · have hlt : e.1 < "" := List.rel_of_pairwise_cons hsorted hlater
      rw [String.lt_iff] at hlt
      exact absurd hlt (List.not_lt_nil _)

namespace Annotation

/-- Plain annotations have the same marker exactly when they have the same name and the same
arguments, or the same name and one positional argument each, of which one is a number and the other
the text of its digits. Moreover a marker does not show in which order its arguments were set:
arguments with distinct keys are listed in the order of their keys, the positional one first. -/
theorem text_alike_iff :
    (∀ a b : Annotation, a.IsPlain → b.IsPlain →
      (a.text = b.text ↔ a.name = b.name ∧ (a.args = b.args ∨ ∃ n : Int64,
        (a.args = .sole (.int n) ∧ b.args = .sole (.string (toString n.toInt))) ∨
        (a.args = .sole (.string (toString n.toInt)) ∧ b.args = .sole (.int n))))) ∧
    ∀ (name : String) (entries : List (String × Literal)), (entries.map (·.1)).Nodup →
      ∃ sorted : List (String × Literal),
        sorted.Perm entries ∧ (sorted.Pairwise fun e d => e.1 < d.1) ∧
        (∀ value, ("", value) ∈ entries → sorted.head? = some ("", value)) ∧
        ∀ entries', entries'.Perm entries →
          ({ name, args := .ofList entries' } : Annotation).text =
            "@" ++ name ++ listed (quoteSole sorted) := by
  constructor
  · intro a b ha hb
    rw [text_eq_iff_quoteSole ha hb, quoteSole_eq_iff]
    apply and_congr_right
    intro _
    constructor
    · rintro (hargs | ⟨v, w, hv, hw, hraw⟩)
      · exact .inl (ArgMap.ext hargs)
      · rw [← ArgMap.eq_sole_iff] at hv hw
        rcases Literal.raw_eq_iff.1 hraw with rfl | ⟨n, ⟨rfl, rfl⟩ | ⟨rfl, rfl⟩⟩
        · exact .inl (hv.trans hw.symm)
        · exact .inr ⟨n, .inl ⟨hv, hw⟩⟩
        · exact .inr ⟨n, .inr ⟨hv, hw⟩⟩
    · rintro (hargs | ⟨n, ⟨hv, hw⟩ | ⟨hv, hw⟩⟩)
      · exact .inl (by rw [hargs])
      · exact .inr ⟨_, _, ArgMap.eq_sole_iff.1 hv, ArgMap.eq_sole_iff.1 hw, rfl⟩
      · exact .inr ⟨_, _, ArgMap.eq_sole_iff.1 hv, ArgMap.eq_sole_iff.1 hw, rfl⟩
  · intro name entries hkeys
    have hperm := ArgMap.perm_entries_ofList hkeys
    refine ⟨(ArgMap.ofList entries).entries, hperm, (ArgMap.ofList entries).sorted, ?_, ?_⟩
    · intro value hvalue
      exact ArgMap.head?_entries (hperm.mem_iff.2 hvalue)
    · intro entries' hentries
      rw [text_eq, ArgMap.ofList_perm hkeys hentries.symm]

/-- Arguments in no order, one of them with the punctuation of markers in it. -/
def cacheEntries : List (String × Literal) :=
  [("ttl", .int 60), ("", .string "a, ttl=(60)"), ("region", .string "")]

theorem text_alike_iff_version :
    (positional "api.Version" (.int (-42))).text = (positional "api.Version" (.string "-42")).text ∧
      ∃ sorted : List (String × Literal),
        sorted.Perm cacheEntries ∧ (sorted.Pairwise fun e d => e.1 < d.1) ∧
        sorted.head? = some ("", .string "a, ttl=(60)") ∧
        ({ name := "Cache", args := .ofList cacheEntries.reverse } : Annotation).text =
          "@" ++ "Cache" ++ listed (quoteSole sorted) := by
  have hname : ∀ c ∈ "api.Version".toList, IsWordChar c :=
    List.forall_iff_forall_mem.1 (by decide +kernel)
  have hplain : ∀ v : Literal, QuoteFree v → (positional "api.Version" v).IsPlain := by
    intro v hv
    refine ⟨hname, ?_⟩
    intro e he
    obtain rfl := List.mem_singleton.1 he
    exact ⟨List.forall_mem_nil _, hv⟩
  have hnumber := hplain (.int (-42)) trivial
  have htext := hplain (.string "-42") (by unfold QuoteFree; decide)
  have hdigits : "-42" = toString (-42 : Int64).toInt := by decide +kernel
  obtain ⟨sorted, hperm, hsorted, hfirst, horder⟩ :=
    text_alike_iff.2 "Cache" cacheEntries (by decide +kernel)
  refine ⟨(text_alike_iff.1 _ _ hnumber htext).2 ⟨rfl, .inr ⟨-42, .inl ⟨rfl, ?_⟩⟩⟩, sorted, hperm,
    hsorted, hfirst _ (by simp [cacheEntries]), horder _ (List.reverse_perm cacheEntries)⟩
  rw [← hdigits]
  rfl

end Annotation

end ResourceStubs
