import ResourceStubs.Proofs.Json.Tokens

/-!
# Brackets in a text

How deeply the brackets of a text are nested can be told by reading it from left to right with a
count of open brackets, as long as brackets inside strings do not count. For the compact text of a
JSON value this is the depth of its tree (`Json.bracketDepth_text`), so a limit on one is a limit on
the other.
-/

namespace ResourceStubs.Json

/-- Where a character of a text stands. -/
inductive Place where
  | outside
  | inString
  | afterBackslash

/-- Where the character after this one stands. -/
def Place.next : Place → Char → Place
  | outside, c => if c = '"' then inString else outside
  | inString, c => if c = '\\' then afterBackslash else if c = '"' then outside else inString
  | afterBackslash, _ => inString

/-- The number of open brackets after a character. -/
def Place.count : Place → Char → Nat → Nat
  | outside, c, opened =>
    if c = '[' ∨ c = '{' then opened + 1 else if c = ']' ∨ c = '}' then opened - 1 else opened
  | _, _, opened => opened

/-- The greatest number of open brackets in a text, from a place where so many are open. -/
def nesting (place : Place) (opened : Nat) : List Char → Nat
  | [] => opened
  | c :: rest => max opened (nesting (place.next c) (place.count c opened) rest)

/-- The greatest number of brackets that are open at the same place of a text, those in strings not
counted. -/
def bracketDepth (text : String) : Nat :=
  nesting .outside 0 text.toList

example : bracketDepth "\x7b\"a]\\\"[[\":[[],3]\x7d" = 3 := by decide

/-! ## Steps of the count -/

section Steps

variable {place : Place} {opened : Nat} {c : Char}

lemma le_nesting (place : Place) (opened : Nat) (s : List Char) :
    opened ≤ nesting place opened s := by
  cases s with
  | nil => exact Nat.le_refl _
  | cons c rest => exact Nat.le_max_left _ _

/-- A character that opens and closes nothing only moves the place. -/
lemma nesting_skip (place' : Place) (hnext : place.next c = place')
    (hcount : place.count c opened = opened) (s : List Char) :
    nesting place opened (c :: s) = nesting place' opened s := by
  rw [nesting, hnext, hcount, Nat.max_eq_right (le_nesting _ _ _)]

lemma nesting_open (hc : c = '[' ∨ c = '{') (s : List Char) :
    nesting .outside opened (c :: s) = nesting .outside (opened + 1) s := by
  have hnext : Place.outside.next c = .outside := by
    rcases hc with rfl | rfl <;> rfl
  have hle : opened ≤ nesting .outside (opened + 1) s := Nat.le_of_succ_le (le_nesting _ _ s)
  rw [nesting, hnext, Place.count, if_pos hc, Nat.max_eq_right hle]

lemma nesting_close (hc : c = ']' ∨ c = '}') (s : List Char) :
    nesting .outside (opened + 1) (c :: s) = max (opened + 1) (nesting .outside opened s) := by
  have hnext : Place.outside.next c = .outside := by
    rcases hc with rfl | rfl <;> rfl
  have hcount : Place.outside.count c (opened + 1) = opened := by
    rcases hc with rfl | rfl <;> rfl
  rw [nesting, hnext, hcount]

/-- Characters without a meaning for nesting. -/
def isPlain : Char → Bool
  | '"' | '[' | ']' | '{' | '}' => false
  | _ => true

lemma nesting_plainChar (hc : isPlain c = true) (s : List Char) :
    nesting .outside opened (c :: s) = nesting .outside opened s := by
  have hne (d : Char) (hd : isPlain d = false) : c ≠ d := by
    rintro rfl
    exact Bool.false_ne_true (hd.symm.trans hc)
  have hnext : Place.outside.next c = .outside := if_neg (hne '"' rfl)
  have hopen : ¬(c = '[' ∨ c = '{') := not_or.2 ⟨hne '[' rfl, hne '{' rfl⟩
  have hclose : ¬(c = ']' ∨ c = '}') := not_or.2 ⟨hne ']' rfl, hne '}' rfl⟩
  have hcount : Place.outside.count c opened = opened := by
    rw [Place.count, if_neg hopen, if_neg hclose]
  exact nesting_skip .outside hnext hcount s

lemma nesting_plain {w : List Char} (h : w.all isPlain = true) (s : List Char) :
    nesting .outside opened (w ++ s) = nesting .outside opened s := by
  induction w with
  | nil => rfl
  | cons c w ih =>
    obtain ⟨hc, hw⟩ := Bool.and_eq_true_iff.1 h
    rw [List.cons_append, nesting_plainChar hc, ih hw]

end Steps

/-! ## Values without parts -/

section Leaves

variable {opened : Nat}

lemma nesting_inString {c : Char} (hquote : c ≠ '"') (hescape : c ≠ '\\') (s : List Char) :
    nesting .inString opened (c :: s) = nesting .inString opened s :=
  nesting_skip .inString (by simp [Place.next, hquote, hescape]) rfl s

lemma nesting_escape (c : Char) (s : List Char) :
    nesting .inString opened ('\\' :: c :: s) = nesting .inString opened s := by
  rw [nesting_skip .afterBackslash rfl rfl, nesting_skip .inString rfl rfl]

lemma hexChar_ne {n : Nat} (hn : n < 16) : hexChar n ≠ '"' ∧ hexChar n ≠ '\\' := by
  have hall : ∀ m : Fin 16, hexChar m ≠ '"' ∧ hexChar m ≠ '\\' := by decide
  exact hall ⟨n, hn⟩

lemma nesting_escapedChar (c : Char) (s : List Char) :
    nesting .inString opened (escapedChar c ++ s) = nesting .inString opened s := by
  unfold escapedChar
  split
  case h_8 hquote hescape _ _ _ _ _ =>
    split
    · rename_i hcontrol
      obtain ⟨hhigh, hhigh'⟩ := hexChar_ne (n := c.toNat / 16) (by omega)
      obtain ⟨hlow, hlow'⟩ := hexChar_ne (n := c.toNat % 16) (by omega)
      have hzero (s : List Char) : nesting .inString opened ('0' :: s) =
          nesting .inString opened s :=
        nesting_inString (by decide) (by decide) s
      simp only [List.cons_append, List.nil_append]
      rw [nesting_escape, hzero, hzero, nesting_inString hhigh hhigh', nesting_inString hlow hlow']
    · exact nesting_inString hquote hescape s
  all_goals exact nesting_escape _ s

/-- A string counts for nothing, whatever brackets are in it. -/
lemma nesting_stringChars (text : String) (s : List Char) :
    nesting .outside opened (stringChars text ++ s) = nesting .outside opened s := by
  have hinside (w : List Char) :
      nesting .inString opened (w.flatMap escapedChar ++ '"' :: s) = nesting .outside opened s := by
    induction w with
    | nil => exact nesting_skip .outside rfl rfl s
    | cons c w ih => rw [List.flatMap_cons, List.append_assoc, nesting_escapedChar, ih]
  have hchars : stringChars text ++ s = '"' :: (text.toList.flatMap escapedChar ++ '"' :: s) := by
    simp [stringChars]
  rw [hchars, nesting_skip .inString rfl rfl, hinside]

lemma isPlain_of_startsNumber {c : Char} (hc : c = '-' ∨ isDigit c = true) : isPlain c = true := by
  unfold isPlain
  split
  case h_6 => rfl
  all_goals exact absurd hc (by decide)

lemma all_isPlain_intChars (n : Int) : (intChars n).all isPlain = true := by
  have hdigits : (Nat.toDigits 10 n.natAbs).all isPlain = true :=
    List.all_eq_true.2 fun c hc => isPlain_of_startsNumber (.inr (isDigit_of_mem_toDigits hc))
  rw [intChars]
  split
  · exact hdigits
  · exact hdigits

end Leaves

/-! ## Trees -/

section Trees

variable {opened : Nat}

/-- A text that changes nothing is the text of a value without brackets. -/
lemma nesting_leaf {w s : List Char}
    (h : nesting .outside opened (w ++ s) = nesting .outside opened s) :
    nesting .outside opened (w ++ s) = max (opened + 0) (nesting .outside opened s) := by
  rw [h, Nat.add_zero, Nat.max_eq_right (le_nesting _ _ s)]

/-- A pair of brackets adds one level around what is between them. -/
lemma nesting_brackets {left right : Char} {w s : List Char} {depth : Nat}
    (hleft : left = '[' ∨ left = '{') (hright : right = ']' ∨ right = '}')
    (h : nesting .outside (opened + 1) (w ++ right :: s) =
      max (opened + 1 + depth) (nesting .outside (opened + 1) (right :: s))) :
    nesting .outside opened (left :: (w ++ right :: s)) =
      max (opened + (depth + 1)) (nesting .outside opened s) := by
  rw [nesting_open hleft, h, nesting_close hright]
  omega

end Trees

mutual

/-- The text of a value opens as many brackets at the same time as the value is deep. -/
lemma nesting_chars (opened : Nat) (s : List Char) : (v : Value) →
    nesting .outside opened (v.chars ++ s) = max (opened + v.depth) (nesting .outside opened s)
  | .null => nesting_leaf (nesting_plain rfl s)
  | .bool true => nesting_leaf (nesting_plain rfl s)
  | .bool false => nesting_leaf (nesting_plain rfl s)
  | .int n => nesting_leaf (nesting_plain (all_isPlain_intChars n) s)
  | .string text => nesting_leaf (nesting_stringChars text s)
  | .array items => by
    have hitems := nesting_itemChars (opened + 1) (']' :: s) items
    rw [chars_array_append, Value.depth]
    exact nesting_brackets (.inl rfl) (.inl rfl) hitems
  | .object members => by
    have hmembers := nesting_memberChars (opened + 1) ('}' :: s) members
    rw [chars_object_append, Value.depth]
    exact nesting_brackets (.inr rfl) (.inr rfl) hmembers

lemma nesting_itemChars (opened : Nat) (s : List Char) : (items : List Value) →
    nesting .outside opened (Value.itemChars items ++ s) =
      max (opened + Value.itemDepth items) (nesting .outside opened s)
  | [] => nesting_leaf rfl
  | [v] => by
    have hvalue := nesting_chars opened s v
    rw [Value.itemChars, hvalue]
    simp only [Value.itemDepth, Nat.max_zero]
  | v :: w :: more => by
    have hvalue := nesting_chars opened (',' :: (Value.itemChars (w :: more) ++ s)) v
    have hmore := nesting_itemChars opened s (w :: more)
    have hchars : Value.itemChars (v :: w :: more) ++ s =
        v.chars ++ ',' :: (Value.itemChars (w :: more) ++ s) := by
      simp [Value.itemChars]
    have hdepth : Value.itemDepth (v :: w :: more) = max v.depth (Value.itemDepth (w :: more)) := by
      rw [Value.itemDepth]
    rw [hchars, hvalue, nesting_plainChar rfl, hmore, hdepth]
    omega

lemma nesting_memberChars (opened : Nat) (s : List Char) : (members : List (String × Value)) →
    nesting .outside opened (Value.memberChars members ++ s) =
      max (opened + Value.memberDepth members) (nesting .outside opened s)
  | [] => nesting_leaf rfl
  | [(key, v)] => by
    have hvalue := nesting_chars opened s v
    rw [Value.memberChars, List.append_assoc, nesting_stringChars, List.cons_append,
      nesting_plainChar rfl, hvalue]
    simp only [Value.memberDepth, Nat.max_zero]
  | (key, v) :: n :: more => by
    have hvalue := nesting_chars opened (',' :: (Value.memberChars (n :: more) ++ s)) v
    have hmore := nesting_memberChars opened s (n :: more)
    have hchars : Value.memberChars ((key, v) :: n :: more) ++ s =
        stringChars key ++ ':' :: (v.chars ++ ',' :: (Value.memberChars (n :: more) ++ s)) := by
      simp [Value.memberChars]
    have hdepth : Value.memberDepth ((key, v) :: n :: more) =
        max v.depth (Value.memberDepth (n :: more)) := by
      rw [Value.memberDepth]
    rw [hchars, nesting_stringChars, nesting_plainChar rfl, hvalue, nesting_plainChar rfl, hmore,
      hdepth]
    omega

end

lemma bracketDepth_text (v : Value) : bracketDepth v.text = v.depth := by
  have hnesting := nesting_chars 0 [] v
  have hend : nesting .outside 0 [] = 0 := rfl
  rw [List.append_nil, hend] at hnesting
  rw [bracketDepth, Value.text, String.toList_ofList, hnesting]
  omega

end ResourceStubs.Json
