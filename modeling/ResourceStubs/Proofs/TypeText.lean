import ResourceStubs.Proofs.Erasure

/-!
# Types with the same text

The text of a type does not determine the type, for two reasons: an unbounded wildcard does not show
its flag, and the brackets of an array around a bounded wildcard look like brackets of an array in
the bound. These are the only reasons. Types are brought to a normal form in which arrays have moved
into bounds as far as they go and the flags are forgotten (`TypeRef.norm`), and two types have the
same text exactly when they have the same normal form (`TypeRef.text_eq_text_iff`).

That the normal form determines the text is an induction over the type. For the converse the text is
read: the reader `TypeRef.read` finds the normal form of a type at the front of any text that goes
on with a comma, a closing angle bracket or nothing (`TypeRef.read_chars`). Array brackets stand
behind the type they belong to, while the question mark of a wildcard stands in front, so the
induction has to carry all the brackets that are still to come.

Names must not be empty and must not hold the punctuation of types; otherwise a name could be the
text of another type.
-/

namespace ResourceStubs.TypeRef

/-! ## Normal forms -/

/-- An array of a type. Around a bounded wildcard it becomes an array in the bound. -/
def sinkArray : TypeRef → TypeRef
  | .bounded plus bound => .bounded plus bound.sinkArray
  | t => .array t

mutual

/-- The normal form of a type: no array is around a bounded wildcard, and unbounded wildcards have
no flag. -/
def norm : TypeRef → TypeRef
  | .simple name => .simple name
  | .generic raw args => .generic raw (normAll args)
  | .array of => of.norm.sinkArray
  | .anything _ => .anything false
  | .bounded plus bound => .bounded plus bound.norm

/-- The normal forms of type arguments. -/
def normAll : List TypeRef → List TypeRef
  | [] => []
  | t :: rest => t.norm :: normAll rest

end

lemma chars_sinkArray (t : TypeRef) : t.sinkArray.chars = t.chars ++ ['[', ']'] := by
  induction t using sinkArray.induct with
  | case1 plus bound ih => simp only [sinkArray, chars, ih, List.cons_append, List.append_assoc]
  | case2 t hbounded => rw [sinkArray, chars]; exact hbounded

mutual

lemma chars_norm : ∀ t : TypeRef, t.norm.chars = t.chars
  | .simple name => by rw [norm]
  | .generic raw args => by rw [norm, chars, chars, argChars_normAll args]
  | .array of => by rw [norm, chars_sinkArray, chars, chars_norm of]
  | .anything plus => by rw [norm, chars, chars]
  | .bounded plus bound => by rw [norm, chars, chars, chars_norm bound]

lemma argChars_normAll : ∀ types : List TypeRef, argChars (normAll types) = argChars types
  | [] => by rw [normAll]
  | t :: rest => by rw [normAll, argChars, argChars, chars_norm t, moreArgChars_normAll rest]

lemma moreArgChars_normAll :
    ∀ types : List TypeRef, moreArgChars (normAll types) = moreArgChars types
  | [] => by rw [normAll]
  | t :: rest => by
    rw [normAll, moreArgChars, moreArgChars, chars_norm t, moreArgChars_normAll rest]

end

/-! ## Types that are nearly normal -/

/-- Whether the type is a wildcard with a bound. -/
def isBounded : TypeRef → Bool
  | .bounded _ _ => true
  | _ => false

mutual

/-- Whether no array stands directly around a bounded wildcard, anywhere in the type. -/
def arraysClear : TypeRef → Bool
  | .simple _ => true
  | .generic _ args => allArraysClear args
  | .array of => !of.isBounded && of.arraysClear
  | .anything _ => true
  | .bounded _ bound => bound.arraysClear

/-- Whether no array stands directly around a bounded wildcard in any of the types. -/
def allArraysClear : List TypeRef → Bool
  | [] => true
  | t :: rest => t.arraysClear && allArraysClear rest

end

lemma sinkArray_of_not_isBounded {t : TypeRef} (h : t.isBounded = false) :
    t.sinkArray = .array t := by
  cases t with
  | bounded plus bound => cases h
  | _ => rfl

lemma isBounded_erased (t : TypeRef) : t.erased.isBounded = t.isBounded := by
  cases t <;> rw [erased] <;> rfl

mutual

/-- Without arrays around bounded wildcards, only the flags are forgotten. -/
lemma norm_eq_erased : ∀ t : TypeRef, t.arraysClear = true → t.norm = t.erased
  | .simple name => fun _ => by rw [norm, erased]
  | .generic raw args => fun h => by
    rw [arraysClear] at h
    rw [norm, erased, normAll_eq_eraseTypes args h]
  | .array of => fun h => by
    rw [arraysClear, Bool.and_eq_true, Bool.not_eq_true'] at h
    rw [norm, erased, norm_eq_erased of h.2,
      sinkArray_of_not_isBounded (of.isBounded_erased.trans h.1)]
  | .anything plus => fun _ => by rw [norm, erased]
  | .bounded plus bound => fun h => by
    rw [arraysClear] at h
    rw [norm, erased, norm_eq_erased bound h]

lemma normAll_eq_eraseTypes :
    ∀ types : List TypeRef, allArraysClear types = true → normAll types = eraseTypes types
  | [] => fun _ => by rw [normAll, eraseTypes]
  | t :: rest => fun h => by
    rw [allArraysClear, Bool.and_eq_true] at h
    rw [normAll, eraseTypes, norm_eq_erased t h.1, normAll_eq_eraseTypes rest h.2]

end

/-! ## Names -/

/-- Characters that are not punctuation of types. -/
def isPlainChar : Char → Bool
  | '<' | '>' | ',' | '?' | '[' | ']' => false
  | _ => true

/-- Whether a text can be told apart from the punctuation around it. -/
def isPlainName (name : String) : Bool :=
  !name.toList.isEmpty && name.toList.all isPlainChar

lemma isPlainName_iff {name : String} :
    isPlainName name = true ↔ name.toList ≠ [] ∧ name.toList.all isPlainChar = true := by
  simp [isPlainName]

mutual

/-- Whether all names in a type are plain. -/
def wellNamed : TypeRef → Bool
  | .simple name => isPlainName name
  | .generic raw args => isPlainName raw && allWellNamed args
  | .array of => of.wellNamed
  | .anything _ => true
  | .bounded _ bound => bound.wellNamed

/-- Whether all names in the types are plain. -/
def allWellNamed : List TypeRef → Bool
  | [] => true
  | t :: rest => t.wellNamed && allWellNamed rest

end

/-! ## Reading -/

/-- The pairs of array brackets at the front of a text, put around a type. -/
def readBrackets (t : TypeRef) : List Char → TypeRef × List Char
  | '[' :: ']' :: rest => readBrackets t.sinkArray rest
  | rest => (t, rest)

mutual

/-- The normal form of the type at the front of a text, and the text behind it, in at most so many
steps. -/
def read : Nat → List Char → Option (TypeRef × List Char)
  | 0, _ => none
  | steps + 1, s =>
    if s.head? = some '?' then
      if (boundWord true).isPrefixOf s.tail then
        (read steps (s.tail.drop (boundWord true).length)).map fun p => (.bounded true p.1, p.2)
      else if (boundWord false).isPrefixOf s.tail then
        (read steps (s.tail.drop (boundWord false).length)).map fun p => (.bounded false p.1, p.2)
      else some (readBrackets (.anything false) s.tail)
    else
      let name := String.ofList (s.takeWhile isPlainChar)
      match s.dropWhile isPlainChar with
      | '<' :: rest => (readArgs steps rest).map fun p => readBrackets (.generic name p.1) p.2
      | rest => some (readBrackets (.simple name) rest)

/-- The normal forms of type arguments up to the closing angle bracket. -/
def readArgs : Nat → List Char → Option (List TypeRef × List Char)
  | _, '>' :: rest => some ([], rest)
  | 0, _ => none
  | steps + 1, s =>
    (read steps s).bind fun p => (readMoreArgs steps p.2).map fun q => (p.1 :: q.1, q.2)

/-- The normal forms of type arguments behind commas, up to the closing angle bracket. -/
def readMoreArgs : Nat → List Char → Option (List TypeRef × List Char)
  | _, '>' :: rest => some ([], rest)
  | steps + 1, ',' :: s =>
    (read steps s).bind fun p => (readMoreArgs steps p.2).map fun q => (p.1 :: q.1, q.2)
  | _, _ => none

end

/-! ## Reading finds the normal form -/

/-- Pairs of array brackets. -/
def brackets : Nat → List Char
  | 0 => []
  | count + 1 => '[' :: ']' :: brackets count

/-- So many arrays around a type, or in its bounds. -/
def sinkArrays : Nat → TypeRef → TypeRef
  | 0, t => t
  | count + 1, t => sinkArrays count t.sinkArray

lemma sinkArrays_bounded (count : Nat) (plus : Bool) (bound : TypeRef) :
    sinkArrays count (.bounded plus bound) = .bounded plus (sinkArrays count bound) := by
  induction count generalizing bound with
  | zero => rfl
  | succ count ih => exact ih bound.sinkArray

/-- The text can follow a type. -/
def Stops (rest : List Char) : Prop :=
  ∀ c ∈ rest.head?, c = ',' ∨ c = '>'

section Texts

variable {count steps : Nat} {rest : List Char}

/-- What follows a name: array brackets, or what follows a type. -/
lemma head_brackets_append (hrest : Stops rest) {c : Char}
    (hc : c ∈ (brackets count ++ rest).head?) :
    c = '[' ∨ c = ',' ∨ c = '>' := by
  cases count with
  | zero => exact .inr (hrest c hc)
  | succ count => exact .inl (Option.some.inj hc).symm

lemma readBrackets_brackets (hrest : Stops rest) (t : TypeRef) :
    readBrackets t (brackets count ++ rest) = (sinkArrays count t, rest) := by
  induction count generalizing t with
  | zero =>
    rw [brackets, List.nil_append, sinkArrays]
    unfold readBrackets
    split
    · exact absurd (hrest '[' rfl) (by decide)
    · rfl
  | succ count ih => exact ih t.sinkArray

/-- A name is taken off in front of punctuation. -/
lemma takeWhile_name_append {name tail : List Char} (hname : name.all isPlainChar = true)
    (htail : ∀ c ∈ tail.head?, isPlainChar c = false) :
    (name ++ tail).takeWhile isPlainChar = name ∧ (name ++ tail).dropWhile isPlainChar = tail := by
  have hpos := List.all_eq_true.1 hname
  rw [List.takeWhile_append_of_pos hpos, List.dropWhile_append_of_pos hpos]
  cases tail with
  | nil => simp
  | cons c tail => simp [htail c rfl]

/-- The text of a name does not start like a wildcard. -/
lemma head_name_append {name : List Char} (hne : name ≠ []) (hname : name.all isPlainChar = true)
    (tail : List Char) :
    ¬(name ++ tail).head? = some '?' := by
  obtain ⟨c, more, rfl⟩ := List.exists_cons_of_ne_nil hne
  intro hc
  obtain rfl : c = '?' := by simpa using hc
  exact absurd hname (by simp [isPlainChar])

lemma read_generic {raw : String} (hraw : isPlainName raw = true) (s : List Char) :
    read (steps + 1) (raw.toList ++ '<' :: s) =
      (readArgs steps s).map fun p => readBrackets (.generic raw p.1) p.2 := by
  obtain ⟨hne, hchars⟩ := isPlainName_iff.1 hraw
  have hangle : ∀ c ∈ ('<' :: s).head?, isPlainChar c = false := by
    rintro c ⟨⟩
    rfl
  obtain ⟨htake, hdrop⟩ := takeWhile_name_append hchars hangle
  rw [read, if_neg (head_name_append hne hchars _)]
  simp only [htake, hdrop, String.ofList_toList]

lemma read_simple {name : String} (hname : isPlainName name = true) (hrest : Stops rest) :
    read (steps + 1) (name.toList ++ (brackets count ++ rest)) =
      some (sinkArrays count (.simple name), rest) := by
  obtain ⟨hne, hchars⟩ := isPlainName_iff.1 hname
  have htail : ∀ c ∈ (brackets count ++ rest).head?, isPlainChar c = false := by
    intro c hc
    rcases head_brackets_append hrest hc with rfl | rfl | rfl <;> rfl
  obtain ⟨htake, hdrop⟩ := takeWhile_name_append hchars htail
  rw [read, if_neg (head_name_append hne hchars _)]
  simp only [htake, hdrop, String.ofList_toList]
  split
  · rename_i tail hangle
    have hhead : '<' ∈ (brackets count ++ rest).head? := by
      rw [hangle]
      rfl
    exact absurd (head_brackets_append hrest hhead) (by decide)
  · rw [readBrackets_brackets hrest]

lemma read_bounded (plus : Bool) (s : List Char) :
    read (steps + 1) ('?' :: boundWord plus ++ s) = (read steps s).map fun p =>
      (.bounded plus p.1, p.2) := by
  cases plus <;> rfl

lemma read_anything (hrest : Stops rest) :
    read (steps + 1) ('?' :: (brackets count ++ rest)) =
      some (sinkArrays count (.anything false), rest) := by
  have hword (plus : Bool) : (boundWord plus).isPrefixOf (brackets count ++ rest) = false := by
    have hspace : ∃ more, boundWord plus = ' ' :: more := by
      cases plus <;> exact ⟨_, rfl⟩
    obtain ⟨more, hmore⟩ := hspace
    rw [hmore]
    cases htail : brackets count ++ rest with
    | nil => rfl
    | cons c tail =>
      have hhead : c ∈ (brackets count ++ rest).head? := by
        rw [htail]
        rfl
      have hne : ' ' ≠ c := by
        rintro rfl
        exact absurd (head_brackets_append hrest hhead) (by decide)
      simp [List.isPrefixOf, hne]
  rw [read, if_pos (by rfl), List.tail_cons, hword, hword, if_neg Bool.false_ne_true,
    if_neg Bool.false_ne_true, readBrackets_brackets hrest]

end Texts

/-- The text of a type starts with a question mark or with a character of a name. -/
lemma exists_chars_eq_cons : ∀ t : TypeRef, t.wellNamed = true →
    ∃ c s, t.chars = c :: s ∧ (c = '?' ∨ isPlainChar c = true)
  | .simple name => fun h => by
    rw [wellNamed, isPlainName_iff] at h
    obtain ⟨c, s, hname⟩ := List.exists_cons_of_ne_nil h.1
    rw [hname, List.all_cons, Bool.and_eq_true] at h
    exact ⟨c, s, by rw [chars, hname], .inr h.2.1⟩
  | .generic raw args => fun h => by
    rw [wellNamed, Bool.and_eq_true, isPlainName_iff] at h
    obtain ⟨c, s, hname⟩ := List.exists_cons_of_ne_nil h.1.1
    rw [hname, List.all_cons, Bool.and_eq_true] at h
    exact ⟨c, _, by rw [chars, hname]; rfl, .inr h.1.2.1⟩
  | .array of => fun h => by
    rw [wellNamed] at h
    obtain ⟨c, s, hof, hc⟩ := exists_chars_eq_cons of h
    exact ⟨c, _, by rw [chars, hof]; rfl, hc⟩
  | .anything _ => fun _ => ⟨'?', [], by rw [chars], .inl rfl⟩
  | .bounded _ bound => fun _ => ⟨'?', _, by rw [chars]; rfl, .inl rfl⟩

lemma stops_moreArgChars (types : List TypeRef) (rest : List Char) :
    Stops (moreArgChars types ++ '>' :: rest) := by
  cases types with
  | nil => simp [Stops, moreArgChars]
  | cons t more => simp [Stops, moreArgChars]

mutual

/-- The type at the front of a text is found, with all brackets behind it put where they belong. -/
lemma read_chars : ∀ (t : TypeRef) (steps count : Nat) (rest : List Char), t.wellNamed = true →
    t.chars.length ≤ steps → Stops rest →
      read steps (t.chars ++ (brackets count ++ rest)) = some (sinkArrays count t.norm, rest)
  | .simple name => fun steps count rest hnamed hsteps hrest => by
    rw [wellNamed] at hnamed
    have hpos : 0 < name.toList.length := List.length_pos_iff.2 (isPlainName_iff.1 hnamed).1
    rw [chars] at hsteps ⊢
    obtain ⟨steps, rfl⟩ := Nat.exists_eq_succ_of_ne_zero (n := steps) (by omega)
    rw [norm]
    exact read_simple hnamed hrest
  | .generic raw args => fun steps count rest hnamed hsteps hrest => by
    rw [wellNamed, Bool.and_eq_true] at hnamed
    rw [chars, List.length_append, List.length_append, List.length_cons] at hsteps
    obtain ⟨steps, rfl⟩ := Nat.exists_eq_succ_of_ne_zero (n := steps) (by omega)
    have hraw : 0 < raw.toList.length := List.length_pos_iff.2 (isPlainName_iff.1 hnamed.1).1
    have hargs :=
      readArgs_argChars args steps (brackets count ++ rest) hnamed.2 (by simp at hsteps; omega)
    have hchars : (generic raw args).chars ++ (brackets count ++ rest) =
        raw.toList ++ '<' :: (argChars args ++ '>' :: (brackets count ++ rest)) := by
      simp [chars]
    rw [hchars, read_generic hnamed.1, hargs, norm, Option.map_some, readBrackets_brackets hrest]
  | .array of => fun steps count rest hnamed hsteps hrest => by
    rw [wellNamed] at hnamed
    rw [chars, List.length_append] at hsteps
    have hof := read_chars of steps (count + 1) rest hnamed (by omega) hrest
    rw [chars, norm, List.append_assoc]
    exact hof
  | .anything plus => fun steps count rest _ hsteps hrest => by
    rw [chars] at hsteps ⊢
    obtain ⟨steps, rfl⟩ := Nat.exists_eq_succ_of_ne_zero (n := steps) (by simp at hsteps; omega)
    rw [norm]
    exact read_anything hrest
  | .bounded plus bound => fun steps count rest hnamed hsteps hrest => by
    rw [wellNamed] at hnamed
    rw [chars, List.length_append, List.length_cons] at hsteps
    obtain ⟨steps, rfl⟩ := Nat.exists_eq_succ_of_ne_zero (n := steps) (by omega)
    have hbound := read_chars bound steps count rest hnamed (by omega) hrest
    rw [chars, norm, List.append_assoc, read_bounded, hbound, sinkArrays_bounded]
    rfl

lemma readArgs_argChars :
    ∀ (types : List TypeRef) (steps : Nat) (rest : List Char), allWellNamed types = true →
    (argChars types).length < steps →
    readArgs steps (argChars types ++ '>' :: rest) = some (normAll types, rest)
  | [] => fun steps rest _ _ => by
    rw [argChars, normAll, List.nil_append, readArgs]
  | t :: more => fun steps rest hnamed hsteps => by
    rw [allWellNamed, Bool.and_eq_true] at hnamed
    rw [argChars, List.length_append] at hsteps
    obtain ⟨steps, rfl⟩ := Nat.exists_eq_succ_of_ne_zero (n := steps) (by omega)
    have hfirst := read_chars t steps 0 (moreArgChars more ++ '>' :: rest) hnamed.1 (by omega)
      (stops_moreArgChars more rest)
    have hmore := readMoreArgs_moreArgChars more steps rest hnamed.2 (by omega)
    obtain ⟨c, s, hchars, hc⟩ := exists_chars_eq_cons t hnamed.1
    have hne : c ≠ '>' := by
      rintro rfl
      exact absurd hc (by decide)
    rw [brackets, List.nil_append, sinkArrays, hchars] at hfirst
    rw [argChars, normAll, List.append_assoc, hchars, List.cons_append, readArgs]
    · rw [← List.cons_append, hfirst, Option.bind_some, hmore, Option.map_some]
    · simpa using hne

lemma readMoreArgs_moreArgChars :
    ∀ (types : List TypeRef) (steps : Nat) (rest : List Char), allWellNamed types = true →
    (moreArgChars types).length ≤ steps →
      readMoreArgs steps (moreArgChars types ++ '>' :: rest) = some (normAll types, rest)
  | [] => fun steps rest _ _ => by
    rw [moreArgChars, normAll, List.nil_append, readMoreArgs]
  | t :: more => fun steps rest hnamed hsteps => by
    rw [allWellNamed, Bool.and_eq_true] at hnamed
    rw [moreArgChars, List.length_append, List.length_cons] at hsteps
    obtain ⟨steps, rfl⟩ := Nat.exists_eq_succ_of_ne_zero (n := steps) (by omega)
    have hfirst := read_chars t steps 0 (moreArgChars more ++ '>' :: rest) hnamed.1 (by omega)
      (stops_moreArgChars more rest)
    have hmore := readMoreArgs_moreArgChars more steps rest hnamed.2 (by omega)
    rw [brackets, List.nil_append, sinkArrays] at hfirst
    rw [moreArgChars, normAll, List.cons_append, List.cons_append, List.append_assoc, readMoreArgs,
      hfirst, Option.bind_some, hmore, Option.map_some]

end

/-! ## Same text, same normal form -/

lemma norm_eq_of_chars_eq {a b : TypeRef} (ha : a.wellNamed = true) (hb : b.wellNamed = true)
    (h : a.chars = b.chars) :
    a.norm = b.norm := by
  have hstops : Stops [] := nofun
  have hreadA := read_chars a a.chars.length 0 [] ha le_rfl hstops
  have hreadB := read_chars b b.chars.length 0 [] hb le_rfl hstops
  rw [h, hreadB] at hreadA
  simpa [sinkArrays] using hreadA.symm

/-- Two types have the same text if and only if they have the same normal form. If no array stands
directly around a bounded wildcard, they can then differ in the flags of unbounded wildcards
only. -/
theorem text_eq_text_iff {a b : TypeRef} (ha : a.wellNamed = true) (hb : b.wellNamed = true) :
    (a.text = b.text ↔ a.norm = b.norm) ∧
      (a.arraysClear = true → b.arraysClear = true → (a.text = b.text ↔ a.erased = b.erased)) := by
  have htext : a.text = b.text ↔ a.norm = b.norm := by
    rw [text, text, String.ofList_inj]
    constructor
    · exact norm_eq_of_chars_eq ha hb
    · intro hnorm
      rw [← chars_norm a, ← chars_norm b, hnorm]
  refine ⟨htext, fun hclearA hclearB => ?_⟩
  rw [htext, norm_eq_erased a hclearA, norm_eq_erased b hclearB]

/-- An array of wildcards, which reads like a wildcard bounded by an array. -/
def arrayOfWildcards : TypeRef :=
  .array (.bounded true (.generic "Map" [.anything true, .array (.bounded false (.simple "Key"))]))

/-- A wildcard bounded by an array, with a flag on the wildcard inside. -/
def arrayInBound (plus : Bool) : TypeRef :=
  .bounded true (.array (.generic "Map" [.anything plus, .bounded false (.array (.simple "Key"))]))

theorem text_eq_text_iff_arrayOfWildcards :
    arrayOfWildcards.wellNamed = true ∧ (arrayInBound true).wellNamed = true ∧
      (arrayInBound false).wellNamed = true ∧
      arrayOfWildcards.text = (arrayInBound true).text ∧
      (arrayInBound true).arraysClear = true ∧ (arrayInBound false).arraysClear = true ∧
      (arrayInBound true).text = (arrayInBound false).text := by
  have hnamed : arrayOfWildcards.wellNamed = true := by decide +kernel
  have hnamed' (plus : Bool) : (arrayInBound plus).wellNamed = true := by
    cases plus <;> decide +kernel
  have hclear (plus : Bool) : (arrayInBound plus).arraysClear = true := by
    cases plus <;> decide +kernel
  have harrays := (text_eq_text_iff hnamed (hnamed' true)).1
  have hflags := (text_eq_text_iff (hnamed' true) (hnamed' false)).2 (hclear true) (hclear false)
  exact ⟨hnamed, hnamed' true, hnamed' false, harrays.2 rfl, hclear true, hclear false,
    hflags.2 rfl⟩

end ResourceStubs.TypeRef
