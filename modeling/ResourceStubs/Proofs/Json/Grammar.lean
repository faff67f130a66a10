import Mathlib.Data.List.Basic

/-!
# The grammar of JSON

What a JSON text is, said without any reader. A document is a tree (`Json.Tree`) together with a
choice of white space, and one tree has many texts (`Json.Tree.WrittenAs`). The tree keeps how
strings and numbers are spelled: the parts of a string are characters and escapes, and a number is
kept as its digits.

A string of a document need not stand for a text. Escapes can name the two halves of a surrogate
pair, and a half that stands alone is no character (`Json.textOf`).
-/

namespace ResourceStubs.Json

/-! ## White space -/

/-- The text is white space. -/
def IsBlank (s : List Char) : Prop :=
  ∀ c ∈ s, c ∈ [' ', '\t', '\n', '\r']

/-- The text is a punctuation mark with white space around it. -/
def IsMark (mark : Char) (s : List Char) : Prop :=
  ∃ before after, IsBlank before ∧ IsBlank after ∧ s = before ++ mark :: after

/-- The text stands in front of an element: white space for the first one, a comma for the
others. -/
def IsLead (first : Bool) (s : List Char) : Prop :=
  if first then IsBlank s else IsMark ',' s

lemma isBlank_nil : IsBlank [] := nofun

lemma isMark_singleton (mark : Char) : IsMark mark [mark] :=
  ⟨[], [], isBlank_nil, isBlank_nil, rfl⟩

/-! ## Strings -/

/-- The hexadecimal digits with their values. -/
def hexDigits : List (Char × Nat) :=
  "0123456789abcdef".toList.zipIdx ++ "ABCDEF".toList.zipIdx 10

/-- A hexadecimal digit. -/
structure HexDigit where
  char : Char
  value : Nat
  isHex : (char, value) ∈ hexDigits

/-- The escapes of a single letter, with the characters they stand for. -/
def letterEscapes : List (Char × Char) :=
  [('"', '"'), ('\\', '\\'), ('/', '/'), ('b', '\x08'), ('f', '\x0c'), ('n', '\n'), ('r', '\r'),
    ('t', '\t')]

/-- A part of a string. -/
inductive Part where
  /-- A character that stands for itself. -/
  | plain (c : Char) (isPlain : c ≠ '"' ∧ c ≠ '\\' ∧ 0x20 ≤ c.toNat)
  /-- A backslash and a letter. -/
  | letter (c meaning : Char) (isEscape : (c, meaning) ∈ letterEscapes)
  /-- A backslash, the letter u and four digits. -/
  | code (a b c d : HexDigit)

/-- The text of a part. -/
def Part.chars : Part → List Char
  | plain c _ => [c]
  | letter c _ _ => ['\\', c]
  | code a b c d => ['\\', 'u', a.char, b.char, c.char, d.char]

/-- The number that four digits stand for. -/
def codeUnit (a b c d : HexDigit) : Nat :=
  ((a.value * 16 + b.value) * 16 + c.value) * 16 + d.value

/-- The code unit is the leading half of a pair. -/
def IsLeading (n : Nat) : Prop := 0xD800 ≤ n ∧ n ≤ 0xDBFF

/-- The code unit is the trailing half of a pair. -/
def IsTrailing (n : Nat) : Prop := 0xDC00 ≤ n ∧ n ≤ 0xDFFF

instance (n : Nat) : Decidable (IsLeading n) := inferInstanceAs (Decidable (_ ∧ _))

instance (n : Nat) : Decidable (IsTrailing n) := inferInstanceAs (Decidable (_ ∧ _))

/-- The character that a pair stands for. -/
def pairChar (leading trailing : Nat) : Char :=
  Char.ofNat ((leading - 0xD800) * 0x400 + (trailing - 0xDC00) + 0x10000)

/-- The text that a string stands for; none if half of a pair stands alone. -/
def textOf : List Part → Option (List Char)
  | [] => some []
  | .plain c _ :: parts => (textOf parts).map (c :: ·)
  | .letter _ c _ :: parts => (textOf parts).map (c :: ·)
  | .code a b c d :: parts =>
    if IsTrailing (codeUnit a b c d) then none
    else if IsLeading (codeUnit a b c d) then
      match parts with
      | .code a' b' c' d' :: rest =>
        if IsTrailing (codeUnit a' b' c' d') then
          (textOf rest).map (pairChar (codeUnit a b c d) (codeUnit a' b' c' d') :: ·)
        else none
      | _ => none
    else (textOf parts).map (Char.ofNat (codeUnit a b c d) :: ·)

/-- The text that a key stands for. -/
def keyText (parts : List Part) : Option String :=
  (textOf parts).map String.ofList

/-- The text between the quotes. -/
def partChars (parts : List Part) : List Char :=
  parts.flatMap Part.chars

/-- A string with its quotes. -/
def quoted (parts : List Part) : List Char :=
  '"' :: (partChars parts ++ ['"'])

/-! ### Spelling -/

/-- The digit for a number below 16. -/
def HexDigit.ofNat (n : Nat) : HexDigit where
  char := (hexDigits.getD (n % 16) ('0', 0)).1
  value := n % 16
  isHex := by
    have hall : ∀ d < 16, ((hexDigits.getD d ('0', 0)).1, d) ∈ hexDigits := by decide
    exact hall (n % 16) (Nat.mod_lt n (by decide))

/-- A character, by its code if it cannot stand for itself. -/
def Part.ofChar (c : Char) : Part :=
  if h : c ≠ '"' ∧ c ≠ '\\' ∧ 0x20 ≤ c.toNat then .plain c h
  else .code (.ofNat (c.toNat / 0x1000)) (.ofNat (c.toNat / 0x100)) (.ofNat (c.toNat / 0x10))
    (.ofNat c.toNat)

/-- A string that stands for the given text. -/
def spell (name : String) : List Part :=
  name.toList.map Part.ofChar

lemma textOf_ofChar_cons (c : Char) (parts : List Part) :
    textOf (.ofChar c :: parts) = (textOf parts).map (c :: ·) := by
  by_cases h : c ≠ '"' ∧ c ≠ '\\' ∧ 0x20 ≤ c.toNat
  · rw [Part.ofChar, dif_pos h, textOf]
  · -- a quote, a backslash or a control character: far below the halves of pairs
    have hsmall : c.toNat < 0x80 := by
      by_cases hquote : c = '"'
      · rw [hquote]; decide
      by_cases hslash : c = '\\'
      · rw [hslash]; decide
      have hcontrol : ¬0x20 ≤ c.toNat := fun hle => h ⟨hquote, hslash, hle⟩
      omega
    have hunit : codeUnit (.ofNat (c.toNat / 0x1000)) (.ofNat (c.toNat / 0x100))
        (.ofNat (c.toNat / 0x10))
        (.ofNat c.toNat) = c.toNat := by
      simp only [codeUnit, HexDigit.ofNat]
      omega
    have htrailing : ¬IsTrailing c.toNat := fun h => by have := h.1; omega
    have hleading : ¬IsLeading c.toNat := fun h => by have := h.1; omega
    rw [Part.ofChar, dif_neg h]
    conv_lhs => unfold textOf
    rw [hunit, if_neg htrailing, if_neg hleading, Char.ofNat_toNat]

lemma keyText_spell (name : String) : keyText (spell name) = some name := by
  have htext (cs : List Char) : textOf (cs.map Part.ofChar) = some cs := by
    induction cs with
    | nil => rfl
    | cons c cs ih => rw [List.map_cons, textOf_ofChar_cons, ih, Option.map_some]
  rw [keyText, spell, htext, Option.map_some, String.ofList_toList]

/-! ## Numbers -/

/-- The text is a run of digits. -/
def IsDigits (s : List Char) : Prop :=
  s ≠ [] ∧ ∀ c ∈ s, c ∈ "0123456789".toList

/-- The text is the whole part of a number, which has no leading zero. -/
def IsWhole (s : List Char) : Prop :=
  IsDigits s ∧ (s.head? = some '0' → s = ['0'])

/-- The text is a fraction or nothing. -/
def IsFraction (s : List Char) : Prop :=
  s = [] ∨ ∃ digits, IsDigits digits ∧ s = '.' :: digits

/-- The text is an exponent or nothing. -/
def IsExponent (s : List Char) : Prop :=
  s = [] ∨ ∃ mark sign digits, mark ∈ ['e', 'E'] ∧ sign ∈ [[], ['+'], ['-']] ∧ IsDigits digits ∧
    s = mark :: (sign ++ digits)

/-- A number, as it is spelled. -/
structure Numeral where
  negative : Bool
  whole : List Char
  fraction : List Char
  exponent : List Char
  isWhole : IsWhole whole
  isFraction : IsFraction fraction
  isExponent : IsExponent exponent

/-- The text of a number behind its sign. -/
def Numeral.unsignedChars (n : Numeral) : List Char :=
  n.whole ++ (n.fraction ++ n.exponent)

/-- The text of a number. -/
def Numeral.chars (n : Numeral) : List Char :=
  if n.negative then '-' :: n.unsignedChars else n.unsignedChars

/-! ## Documents -/

/-- A JSON document without its white space. -/
inductive Tree where
  | null
  | bool (value : Bool)
  | number (numeral : Numeral)
  | string (parts : List Part)
  | array (items : List Tree)
  | object (members : List (List Part × Tree))

namespace Tree

mutual

/-- The text is one of those that the tree can be written as. -/
def WrittenAs : Tree → List Char → Prop
  | null, s => s = "null".toList
  | bool value, s => s = (if value then "true" else "false").toList
  | number numeral, s => s = numeral.chars
  | string parts, s => s = quoted parts
  | array items, s => ∃ inside, ItemsAs true items inside ∧ s = '[' :: (inside ++ [']'])
  | object members, s => ∃ inside, MembersAs true members inside ∧ s = '{' :: (inside ++ ['}'])

/-- The text between the brackets of a list, from the start or from behind an item. -/
def ItemsAs : Bool → List Tree → List Char → Prop
  | _, [], s => IsBlank s
  | first, t :: items, s =>
    ∃ lead text more, IsLead first lead ∧ WrittenAs t text ∧ ItemsAs false items more ∧
      s = lead ++ (text ++ more)

/-- The text between the braces of an object, from the start or from behind a member. -/
def MembersAs : Bool → List (List Part × Tree) → List Char → Prop
  | _, [], s => IsBlank s
  | first, (key, t) :: members, s =>
    ∃ lead mark text more, IsLead first lead ∧ IsMark ':' mark ∧ WrittenAs t text ∧
      MembersAs false members more ∧ s = lead ++ (quoted key ++ (mark ++ (text ++ more)))

end

/-- The text is a document with the given tree. -/
def IsDocument (t : Tree) (s : List Char) : Prop :=
  ∃ before text after, IsBlank before ∧ t.WrittenAs text ∧ IsBlank after ∧
    s = before ++ (text ++ after)

/-! ### Text without white space -/

mutual

/-- The text of a tree without white space. -/
def chars : Tree → List Char
  | null => "null".toList
  | bool value => (if value then "true" else "false").toList
  | number numeral => numeral.chars
  | string parts => quoted parts
  | array items => '[' :: (itemChars [] items ++ [']'])
  | object members => '{' :: (memberChars [] members ++ ['}'])

/-- The items of a list, with what stands in front of the first one. -/
def itemChars (lead : List Char) : List Tree → List Char
  | [] => []
  | t :: items => lead ++ (t.chars ++ itemChars [','] items)

/-- The members of an object, with what stands in front of the first one. -/
def memberChars (lead : List Char) : List (List Part × Tree) → List Char
  | [] => []
  | (key, t) :: members => lead ++ (quoted key ++ ([':'] ++ (t.chars ++ memberChars [','] members)))

end

mutual

lemma writtenAs_chars : ∀ t : Tree, t.WrittenAs t.chars
  | null => rfl
  | bool _ => rfl
  | number _ => rfl
  | string _ => rfl
  | array items => ⟨_, itemsAs_itemChars true [] isBlank_nil items, rfl⟩
  | object members => ⟨_, membersAs_memberChars true [] isBlank_nil members, rfl⟩

lemma itemsAs_itemChars (first : Bool) (lead : List Char) (hlead : IsLead first lead) :
    ∀ items : List Tree, ItemsAs first items (itemChars lead items)
  | [] => isBlank_nil
  | t :: items =>
    ⟨lead, _, _, hlead, writtenAs_chars t,
      itemsAs_itemChars false [','] (isMark_singleton ',') items, rfl⟩

lemma membersAs_memberChars (first : Bool) (lead : List Char) (hlead : IsLead first lead) :
    ∀ members : List (List Part × Tree), MembersAs first members (memberChars lead members)
  | [] => isBlank_nil
  | (_, t) :: members =>
    ⟨lead, _, _, _, hlead, isMark_singleton ':', writtenAs_chars t,
      membersAs_memberChars false [','] (isMark_singleton ',') members, rfl⟩

end

end Tree

end ResourceStubs.Json
