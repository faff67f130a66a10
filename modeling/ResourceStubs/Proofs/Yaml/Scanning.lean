import ResourceStubs.Proofs.Json.Containers
import ResourceStubs.Proofs.Yaml.Turns

/-!
# The tokens of a JSON text

A JSON text is a YAML document in flow style. Its tokens follow the tree of its values
(`Json.Value.tokens`): a quoted scalar for a string, a plain one for any other leaf, and a key token
in front of each member of an object. The scanner finds exactly these, if all strings are in ASCII
and the names of members are short (`Yaml.ofText_object`).

The proof chains the turns of the scanner along the text, by induction on the value. Elements in
brackets are passed in the same way whether they are values or members, so both kinds of brackets
share one lemma (`Yaml.Scan.Within.passes_brackets`).
-/

namespace ResourceStubs

open Yaml (Token)

/-! ## The tokens of a value -/

namespace Json.Value

mutual

/-- The tokens of the text of a value. -/
def tokens : Value → List Token
  | .null => [.scalar .plain (text .null)]
  | .bool value => [.scalar .plain (text (.bool value))]
  | .int value => [.scalar .plain (text (.int value))]
  | .string value => [.scalar .quoted value]
  | .array items => .flowSequenceStart :: itemTokens items ++ [.flowSequenceEnd]
  | .object members => .flowMappingStart :: memberTokens members ++ [.flowMappingEnd]

/-- The tokens of the values of a list. -/
def itemTokens : List Value → List Token
  | [] => []
  | [v] => tokens v
  | v :: more => tokens v ++ .flowEntry :: itemTokens more

/-- The tokens of the members of an object. -/
def memberTokens : List (String × Value) → List Token
  | [] => []
  | [(key, v)] => .key :: .scalar .quoted key :: .value :: tokens v
  | (key, v) :: more =>
    .key :: .scalar .quoted key :: .value :: tokens v ++ .flowEntry :: memberTokens more

end

/-- The strings are in ASCII, without the delete character, and the names of members are short
enough for keys. -/
inductive Scannable : Value → Prop where
  | null : Scannable .null
  | bool (value : Bool) : Scannable (.bool value)
  | int (value : Int) : Scannable (.int value)
  | string {value : String} (hvalue : Yaml.IsAscii value) : Scannable (.string value)
  | array {items : List Value} (hitems : ∀ v ∈ items, Scannable v) : Scannable (.array items)
  | object {members : List (String × Value)}
      (hkeys : ∀ m ∈ members, Yaml.IsAscii m.1 ∧ m.1.length ≤ 128)
      (hvalues : ∀ m ∈ members, Scannable m.2) : Scannable (.object members)

end Json.Value

namespace Yaml

open Json (Value Ends)

/-- Texts with a mark between each two of them. -/
def separated {β γ : Type} (mark : β) (f : γ → List β) : List γ → List β
  | [] => []
  | a :: more => f a ++ more.flatMap fun b => mark :: f b

lemma itemChars_eq (items : List Value) :
    Value.itemChars items = separated ',' Value.chars items := by
  cases items with
  | nil => rw [Value.itemChars, separated]
  | cons v more => exact Json.itemChars_cons v more

lemma memberChars_eq (members : List (String × Value)) :
    Value.memberChars members = separated ',' Json.memberText members := by
  cases members with
  | nil => rw [Value.memberChars, separated]
  | cons m more => exact Json.memberChars_cons m more

/-- The tokens of a member. -/
def memberPart (m : String × Value) : List Token :=
  .key :: .scalar .quoted m.1 :: .value :: m.2.tokens

lemma itemTokens_eq (items : List Value) :
    Value.itemTokens items = separated .flowEntry Value.tokens items := by
  induction items with
  | nil => rw [Value.itemTokens, separated]
  | cons v more ih =>
    cases more with
    | nil => simp [Value.itemTokens, separated]
    | cons w more => simp [Value.itemTokens, ih, separated]

lemma memberTokens_eq (members : List (String × Value)) :
    Value.memberTokens members = separated .flowEntry memberPart members := by
  induction members with
  | nil => rw [Value.memberTokens, separated]
  | cons m more ih =>
    cases more with
    | nil => simp [Value.memberTokens, separated, memberPart]
    | cons n more => simp [Value.memberTokens, ih, separated, memberPart]

/-! ## Elements in brackets -/

namespace Scan

variable {s : Scan} {bound depth : Nat} {more : List Char}

/-- Wherever an element may stand, the text is one with these tokens. -/
def IsElement (bound depth : Nat) (w : List Char) (ts : List Token) : Prop :=
  ∀ s more, s.Within bound depth → s.keyAllowed = true → s.cursor.rest = w ++ more → Ends more →
    ∃ s', Passes bound s w ts s' ∧ s'.Within bound depth

section Elements

variable {γ : Type} {chars : γ → List Char} {tokens : γ → List Token} {as : List γ}

/-- Elements that each have a comma in front of them. -/
lemma Within.passes_more (hs : s.Within bound depth)
    (h : ∀ a ∈ as, IsElement bound depth (chars a) (tokens a))
    (hrest : s.cursor.rest = (as.flatMap fun a => ',' :: chars a) ++ more) (hmore : Ends more) :
    ∃ s', Passes bound s (as.flatMap fun a => ',' :: chars a)
      (as.flatMap fun a => .flowEntry :: tokens a) s' ∧
      s'.Within bound depth := by
  induction as generalizing s with
  | nil => exact ⟨s, .refl bound s, hs⟩
  | cons a as ih =>
    rw [List.flatMap_cons, List.cons_append, List.cons_append, List.append_assoc] at hrest
    obtain ⟨t, hcomma, ht, hkey⟩ := hs.passes_comma hrest
    have hrest₁ := hcomma.rest_eq hrest
    obtain ⟨t', helement, ht'⟩ :=
      h a List.mem_cons_self t _ ht hkey hrest₁ (Json.ends_more chars as hmore)
    have hrest₂ := helement.rest_eq hrest₁
    obtain ⟨s', htail, hs'⟩ := ih ht' (fun b hb => h b (List.mem_cons_of_mem a hb)) hrest₂
    refine ⟨s', ?_, hs'⟩
    have hall := hcomma.trans (helement.trans htail)
    simpa using hall

/-- Elements with commas between them. -/
lemma Within.passes_separated (hs : s.Within bound depth) (hkey : s.keyAllowed = true)
    (h : ∀ a ∈ as, IsElement bound depth (chars a) (tokens a))
    (hrest : s.cursor.rest = separated ',' chars as ++ more) (hmore : Ends more) :
    ∃ s', Passes bound s (separated ',' chars as) (separated .flowEntry tokens as) s' ∧
      s'.Within bound depth := by
  cases as with
  | nil => exact ⟨s, .refl bound s, hs⟩
  | cons a as =>
    rw [separated, List.append_assoc] at hrest
    obtain ⟨t, hfirst, ht⟩ :=
      h a List.mem_cons_self s _ hs hkey hrest (Json.ends_more chars as hmore)
    obtain ⟨s', htail, hs'⟩ :=
      ht.passes_more (fun b hb => h b (List.mem_cons_of_mem a hb)) (hfirst.rest_eq hrest) hmore
    refine ⟨s', ?_, hs'⟩
    exact hfirst.trans htail

/-- Brackets around elements, also outside of all other brackets. -/
lemma Within.passes_brackets {left right : Char} {first last : Token} (hs : s.Within bound depth)
    (hopens : Opens left first) (hcloses : Closes right last)
    (h : ∀ a ∈ as, IsElement bound (depth + 1) (chars a) (tokens a))
    (hrest : s.cursor.rest = left :: (separated ',' chars as ++ right :: more)) :
    ∃ s', Passes bound s (left :: separated ',' chars as ++ [right])
      (first :: separated .flowEntry tokens as ++ [last]) s' ∧ s'.Within bound depth := by
  have hends : Ends (right :: more) := by
    cases hcloses with
    | sequence => exact Json.ends_bracket more
    | mapping => exact Json.ends_brace more
  obtain ⟨t, hopen, ht, hkey⟩ := hs.passes_opening hopens hrest
  have hrest₁ := hopen.rest_eq hrest
  obtain ⟨t', hinner, ht'⟩ := ht.passes_separated hkey h hrest₁ hends
  obtain ⟨s', hclose, hs'⟩ := ht'.passes_closing hcloses (hinner.rest_eq hrest₁)
  refine ⟨s', ?_, hs'⟩
  have hall := hopen.trans (hinner.trans hclose)
  simpa using hall

end Elements

end Scan

/-! ## Values -/

section Values

variable {bound : Nat}

/-- Wherever a value may stand inside brackets, the text is one with these tokens. -/
def ScansAs (bound : Nat) (w : List Char) (ts : List Token) : Prop :=
  ∀ depth s more, Scan.Within bound (depth + 1) s → s.cursor.rest = w ++ more → Ends more →
    ∃ s', Scan.Passes bound s w ts s' ∧ s'.Within bound (depth + 1)

lemma scansAs_word {word : List Char} (hword : IsWord word) :
    ScansAs bound word [.scalar .plain (String.ofList word)] :=
  fun _ _ _ hs hrest hmore => hs.passes_word hword hmore hrest

lemma isElement_member {m : String × Value} (hkey : IsAscii m.1 ∧ m.1.length ≤ 128)
    (hvalue : ScansAs bound m.2.chars m.2.tokens) (depth : Nat) :
    Scan.IsElement bound (depth + 1) (Json.memberText m) (memberPart m) := by
  intro s more hs hallowed hrest hmore
  have htext : Json.memberText m = (Json.stringChars m.1 ++ [':']) ++ m.2.chars := by
    simp [Json.memberText]
  rw [htext, List.append_assoc] at hrest
  obtain ⟨t, hname, ht⟩ := hs.passes_key hallowed hkey.1 hkey.2 (by simpa using hrest)
  obtain ⟨s', htail, hs'⟩ := hvalue depth t more ht (hname.rest_eq hrest) hmore
  refine ⟨s', ?_, hs'⟩
  rw [htext]
  exact hname.trans htail

/-- An object is passed also where no bracket is open, and whatever follows it. -/
lemma passes_object {members : List (String × Value)} {depth : Nat} {s : Scan} {more : List Char}
    (hkeys : ∀ m ∈ members, IsAscii m.1 ∧ m.1.length ≤ 128)
    (hvalues : ∀ m ∈ members, ScansAs bound m.2.chars m.2.tokens) (hs : s.Within bound depth)
    (hrest : s.cursor.rest = (Value.object members).chars ++ more) :
    ∃ s', Scan.Passes bound s (Value.object members).chars (Value.object members).tokens s' ∧
      s'.Within bound depth := by
  rw [Json.chars_object_append, memberChars_eq] at hrest
  rw [Value.chars, Value.tokens, memberChars_eq, memberTokens_eq]
  exact hs.passes_brackets .mapping .mapping
    (fun m hm => isElement_member (hkeys m hm) (hvalues m hm) depth) hrest

/-- The scanner finds the tokens of a value. -/
lemma scansAs_chars {v : Value} (h : v.Scannable) : ScansAs bound v.chars v.tokens := by
  induction h with
  | null => exact scansAs_word isWord_null
  | bool value => exact scansAs_word (isWord_bool value)
  | int value =>
    rw [Value.tokens, Value.text, Value.chars]
    exact scansAs_word (isWord_intChars value)
  | string hvalue =>
    intro depth s more hs hrest _
    rw [Value.chars] at hrest ⊢
    rw [Value.tokens]
    exact hs.passes_quoted hvalue hrest
  | array _ ih =>
    intro depth s more hs hrest _
    rw [Json.chars_array_append, itemChars_eq] at hrest
    rw [Value.chars, Value.tokens, itemChars_eq, itemTokens_eq]
    refine hs.passes_brackets .sequence .sequence (fun v hv => ?_) hrest
    exact fun t after ht _ hafter => ih v hv (depth + 1) t after ht hafter
  | object hkeys _ ih => exact fun depth s more hs hrest _ => passes_object hkeys ih hs hrest

end Values

/-! ## Documents -/

lemma isAllowed_of_le {c : Char} (hlow : 0x20 ≤ c.toNat) (hhigh : c.toNat ≤ 0x7E) :
    isAllowed c = true := by
  simp [isAllowed, hlow, hhigh]

lemma IsWord.all_isAllowed {word : List Char} (h : IsWord word) : word.all isAllowed = true := by
  refine List.all_eq_true.2 fun c hc => ?_
  have hvisible := isVisible_of_isWordChar (List.all_eq_true.1 h.all_isWordChar c hc)
  exact isAllowed_of_le (Nat.le_of_lt hvisible.1) hvisible.2

lemma all_isAllowed_escapedChar {c : Char} (hc : c.toNat ≤ 0x7E) :
    (Json.escapedChar c).all isAllowed = true := by
  have hhex : ∀ n < 16, isAllowed (Json.hexChar n) = true := by decide
  unfold Json.escapedChar
  split
  case h_8 =>
    split
    · rename_i hcontrol
      have hhigh := hhex (c.toNat / 16) (by omega)
      have hlow := hhex (c.toNat % 16) (by omega)
      have hescape : ['\\', 'u', '0', '0'].all isAllowed = true := by decide
      simpa [hhigh, hlow] using hescape
    · rename_i hplain
      simp [isAllowed_of_le (Nat.le_of_not_lt hplain) hc]
  all_goals decide

lemma all_isAllowed_stringChars {text : String} (htext : IsAscii text) :
    (Json.stringChars text).all isAllowed = true := by
  have hquote : isAllowed '"' = true := by decide
  rw [Json.stringChars, List.all_append, List.all_cons, List.all_flatMap]
  simp only [hquote, List.all_cons, List.all_nil, Bool.and_true, Bool.true_and, List.all_eq_true]
  exact fun c hc => List.all_eq_true.1 (all_isAllowed_escapedChar (htext c hc))

lemma all_separated {β γ : Type} {p : β → Bool} {mark : β} {f : γ → List β} {as : List γ}
    (hmark : p mark = true) (h : ∀ a ∈ as, (f a).all p = true) :
    (separated mark f as).all p = true := by
  cases as with
  | nil => rfl
  | cons a as =>
    rw [separated, List.all_append, h a List.mem_cons_self, List.all_flatMap, Bool.true_and,
      List.all_eq_true]
    intro b hb
    rw [List.all_cons, hmark, h b (List.mem_cons_of_mem a hb), Bool.true_and]

/-- The text of a value has only characters that a document may hold. -/
lemma all_isAllowed_chars {v : Value} (h : v.Scannable) : v.chars.all isAllowed = true := by
  have hcomma : isAllowed ',' = true := by decide
  have hbrackets : isAllowed '[' = true ∧ isAllowed ']' = true ∧ isAllowed '{' = true ∧
      isAllowed '}' = true := by
    decide
  induction h with
  | null => exact isWord_null.all_isAllowed
  | bool value => exact (isWord_bool value).all_isAllowed
  | int value =>
    rw [Value.chars]
    exact (isWord_intChars value).all_isAllowed
  | string hvalue =>
    rw [Value.chars]
    exact all_isAllowed_stringChars hvalue
  | array _ ih =>
    rw [Value.chars, itemChars_eq]
    simp [all_separated hcomma ih, hbrackets]
  | object hkeys _ ih =>
    have hmembers : ∀ m ∈ _, (Json.memberText m).all isAllowed = true := fun m hm => by
      have hcolon : isAllowed ':' = true := by decide
      rw [Json.memberText, List.all_append, all_isAllowed_stringChars (hkeys m hm).1, List.all_cons,
        hcolon, ih m hm]
      rfl
    rw [Value.chars, memberChars_eq]
    simp [all_separated hcomma hmembers, hbrackets]

/-- The tokens of a document that is the text of an object. -/
lemma ofText_object {members : List (String × Value)} (h : (Value.object members).Scannable) :
    Token.ofText (Value.object members).text =
      .ok ((Value.object members).tokens ++ [.streamEnd]) := by
  have hallowed := all_isAllowed_chars h
  have htoList : (Value.object members).text.toList = (Value.object members).chars :=
    String.toList_ofList
  generalize hchars : (Value.object members).chars = chars at hallowed htoList
  let start : Scan := { cursor := { rest := chars } }
  have hstart : start.Within (chars.length + 1) 0 := Scan.within_start chars
  have hrest : start.cursor.rest = (Value.object members).chars ++ [] := by
    rw [hchars, List.append_nil]
  obtain ⟨s, hpasses, hs⟩ : ∃ s, Scan.Passes (chars.length + 1) start (Value.object members).chars
      (Value.object members).tokens s ∧ s.Within (chars.length + 1) 0 := by
    cases h with
    | object hkeys hvalues =>
      exact passes_object hkeys (fun m hm => scansAs_chars (hvalues m hm)) hstart hrest
  -- one turn is left for the end of the text
  obtain ⟨turns, hturns, hreaches⟩ := hpasses.reaches
  rw [hchars] at hturns
  obtain ⟨n, hn⟩ : ∃ n, chars.length + 1 + 1 = n + 1 + turns := ⟨chars.length + 1 - turns, by omega⟩
  have hend : Scan.toEnd (chars.length + 1) (chars.length + 1 + 1) start =
      .ok ({ s.fresh with candidate := none }.emit .streamEnd) := by
    rw [hn, hreaches, hs.toEnd_nil (hpasses.rest_eq hrest)]
  have htokens : ({ s.fresh with candidate := none }.emit Token.streamEnd).tokens =
      (Value.object members).tokens ++ [.streamEnd] := by
    rw [Scan.tokens_emit]
    exact congrArg (· ++ [Token.streamEnd]) hpasses.tokens_eq
  rw [Token.ofText, htoList, hallowed]
  simp only [Bool.not_true, Bool.false_eq_true, if_false, bind, Except.bind, pure, Except.pure]
  rw [hend]
  exact congrArg Except.ok htokens

end Yaml

end ResourceStubs
