import ResourceStubs.Proofs.Json.Numerals
import ResourceStubs.Proofs.Json.Spelling

/-!
# Lists and objects of any layout

The steps that find their way through a list or an object, run on any text of the grammar: whether
there is another element, where the value of a member starts, where the list ends. White space is
passed over everywhere.

With these steps every tree is skipped (`Json.skip_tree`), which is what happens to the value of an
unknown member. The number of steps is bounded by the length of the text, so the nesting of the tree
does not matter.
-/

namespace ResourceStubs.Json

/-! ## How a value starts -/

/-- The text of the tree starts with this character. -/
def Tree.StartsWith : Tree → Char → Prop
  | null, c => c = 'n'
  | bool value, c => c = if value then 't' else 'f'
  | number _, c => c = '-' ∨ isDigit c = true
  | string _, c => c = '"'
  | array _, c => c = '['
  | object _, c => c = '{'

variable {t : Tree} {text : List Char}

lemma Tree.WrittenAs.exists_cons (h : t.WrittenAs text) :
    ∃ c more, text = c :: more ∧ t.StartsWith c := by
  cases t with
  | null => exact ⟨_, _, h, rfl⟩
  | bool value =>
    cases value with
    | true => exact ⟨_, _, h, rfl⟩
    | false => exact ⟨_, _, h, rfl⟩
  | number n =>
    obtain ⟨c, s, hchars, hc⟩ := n.exists_chars_eq_cons
    exact ⟨c, s, Eq.trans h hchars, hc⟩
  | string parts => exact ⟨_, _, h, rfl⟩
  | array items =>
    obtain ⟨inside, -, rfl⟩ := h
    exact ⟨_, _, rfl, rfl⟩
  | object members =>
    obtain ⟨inside, -, rfl⟩ := h
    exact ⟨_, _, rfl, rfl⟩

lemma Tree.StartsWith.isSpace_eq {c : Char} (h : t.StartsWith c) : isSpace c = false := by
  cases t with
  | number n => exact isSpace_of_startsNumber h
  | bool value => cases value <;> cases h <;> rfl
  | _ => cases h; rfl

lemma Tree.StartsWith.ne_mark {c : Char} (h : t.StartsWith c) : c ≠ ']' ∧ c ≠ ',' := by
  cases t with
  | number n => exact ⟨ne_of_startsNumber h (by decide), ne_of_startsNumber h (by decide)⟩
  | bool value => cases value <;> cases h <;> decide
  | _ => cases h; decide

/-- In front of a value, the next character is the one it starts with. -/
lemma Tree.WrittenAs.peek (h : t.WrittenAs text) :
    ∃ c, t.StartsWith c ∧
      ∀ blank rest, IsBlank blank →
        Json.peek (blank ++ (text ++ rest)) = .ok (some c, text ++ rest) := by
  obtain ⟨c, more, rfl, hc⟩ := h.exists_cons
  exact ⟨c, hc, fun blank rest hblank => peek_blank_cons hblank hc.isSpace_eq _⟩

lemma Tree.WrittenAs.length_pos (h : t.WrittenAs text) : 0 < text.length := by
  obtain ⟨c, more, rfl, -⟩ := h.exists_cons
  exact Nat.succ_pos _

/-! ## Punctuation -/

lemma colon_mark {mark : List Char} (h : IsMark ':' mark) :
    ∃ blank, IsBlank blank ∧ ∀ s, colon (mark ++ s) = .ok ((), blank ++ s) := by
  obtain ⟨before, after, hbefore, hafter, rfl⟩ := h
  refine ⟨after, hafter, fun s => ?_⟩
  rw [List.append_assoc, List.cons_append, colon, bind_of_ok (peek_blank_cons hbefore rfl _)]
  rfl

lemma hasElement_end (first : Bool) {s : List Char} (hs : IsBlank s) (rest : List Char) :
    hasElement first (s ++ ']' :: rest) = .ok (false, ']' :: rest) := by
  rw [hasElement, bind_of_ok (peek_blank_cons hs rfl rest)]
  rfl

/-- Another item is found behind what stands in front of it. -/
lemma hasElement_item {first : Bool} {lead : List Char} (hlead : IsLead first lead)
    (ht : t.WrittenAs text) (rest : List Char) :
    hasElement first (lead ++ (text ++ rest)) = .ok (true, text ++ rest) := by
  obtain ⟨c, hc, hpeek⟩ := ht.peek
  cases first with
  | true =>
    rw [hasElement, bind_of_ok (hpeek lead rest hlead)]
    simp [hc.ne_mark, pure_run]
  | false =>
    obtain ⟨before, after, hbefore, hafter, rfl⟩ := hlead
    rw [List.append_assoc, List.cons_append, hasElement, bind_of_ok (peek_blank_cons hbefore rfl _)]
    simp [bind_of_ok (skipOne_cons ',' _), bind_of_ok (hpeek after rest hafter), hc.ne_mark,
      pure_run]

lemma closeList_end {s : List Char} (hs : IsBlank s) (rest : List Char) :
    closeList (s ++ ']' :: rest) = .ok ((), rest) := by
  rw [closeList, bind_of_ok (peek_blank_cons hs rfl rest)]
  rfl

/-- A list does not end in front of another item. -/
lemma closeList_item {first : Bool} {lead : List Char} (hlead : IsLead first lead)
    (ht : t.WrittenAs text) (rest : List Char) :
    ∃ e, closeList (lead ++ (text ++ rest)) = .error e := by
  obtain ⟨c, hc, hpeek⟩ := ht.peek
  refine ⟨.trailingCharacters, ?_⟩
  cases first with
  | true =>
    rw [closeList, bind_of_ok (hpeek lead rest hlead)]
    simp [hc.ne_mark]
    rfl
  | false =>
    obtain ⟨before, after, hbefore, hafter, rfl⟩ := hlead
    rw [List.append_assoc, List.cons_append, closeList, bind_of_ok (peek_blank_cons hbefore rfl _)]
    simp [bind_of_ok (skipOne_cons ',' _), bind_of_ok (hpeek after rest hafter), hc.ne_mark]
    rfl

lemma hasKey_end (first : Bool) {s : List Char} (hs : IsBlank s) (rest : List Char) :
    hasKey first (s ++ '}' :: rest) = .ok (false, '}' :: rest) := by
  rw [hasKey, bind_of_ok (peek_blank_cons hs rfl rest)]
  rfl

lemma peek_quoted {blank : List Char} (hblank : IsBlank blank) (key : List Part)
    (rest : List Char) :
    peek (blank ++ (quoted key ++ rest)) = .ok (some '"', quoted key ++ rest) :=
  peek_blank_cons hblank rfl _

/-- Another member is found behind what stands in front of it. -/
lemma hasKey_member {first : Bool} {lead : List Char} (hlead : IsLead first lead) (key : List Part)
    (rest : List Char) : hasKey first (lead ++ (quoted key ++ rest)) =
      .ok (true, quoted key ++ rest) := by
  cases first with
  | true =>
    rw [hasKey, bind_of_ok (peek_quoted hlead key rest)]
    rfl
  | false =>
    obtain ⟨before, after, hbefore, hafter, rfl⟩ := hlead
    rw [List.append_assoc, List.cons_append, hasKey, bind_of_ok (peek_blank_cons hbefore rfl _)]
    simp [bind_of_ok (skipOne_cons ',' _), bind_of_ok (peek_quoted hafter key rest), pure_run]

namespace Tree

lemma follows_itemsAs {items : List Tree} {s : List Char} (h : ItemsAs false items s)
    (rest : List Char) :
    Follows (s ++ ']' :: rest) := by
  cases items with
  | nil => exact follows_blank h (follows_cons (.inr (.inl rfl)) rest)
  | cons t items =>
    obtain ⟨lead, text, more, ⟨before, after, hbefore, -, rfl⟩, -, -, rfl⟩ := h
    rw [List.append_assoc, List.append_assoc, List.cons_append]
    exact follows_blank hbefore (follows_cons (.inl rfl) _)

lemma follows_membersAs {members : List (List Part × Tree)} {s : List Char}
    (h : MembersAs false members s) (rest : List Char) : Follows (s ++ '}' :: rest) := by
  cases members with
  | nil => exact follows_blank h (follows_cons (.inr (.inr rfl)) rest)
  | cons m members =>
    obtain ⟨key, t⟩ := m
    obtain ⟨lead, mark, text, more, ⟨before, after, hbefore, -, rfl⟩, -, -, -, rfl⟩ := h
    rw [List.append_assoc, List.append_assoc, List.cons_append]
    exact follows_blank hbefore (follows_cons (.inl rfl) _)

/-- A list has fewer items than the text behind its bracket has characters, so as many steps
suffice. -/
lemma items_length_lt {first : Bool} {items : List Tree} {s : List Char} (h : ItemsAs first items s)
    (rest : List Char) : items.length < (s ++ rest).length + 1 := by
  induction items generalizing first s with
  | nil => exact Nat.succ_pos _
  | cons t items ih =>
    obtain ⟨lead, text, more, -, ht, hmore, rfl⟩ := h
    have hpos := ht.length_pos
    have hlt := ih hmore
    simp only [List.length_append, List.length_cons] at hlt ⊢
    omega

lemma members_length_lt {first : Bool} {members : List (List Part × Tree)} {s : List Char}
    (h : MembersAs first members s) (rest : List Char) :
    members.length < (s ++ rest).length + 1 := by
  induction members generalizing first s with
  | nil => exact Nat.succ_pos _
  | cons m members ih =>
    obtain ⟨lead, mark, text, more, -, -, ht, hmore, rfl⟩ := h
    have hpos := ht.length_pos
    have hlt := ih hmore
    simp only [List.length_append, List.length_cons] at hlt ⊢
    omega

end Tree

/-! ## Skipping -/

section Skipping

lemma skipElements_end {s : List Char} (hs : IsBlank s) (steps : Nat) (first : Bool)
    (rest : List Char) :
    skipElements (steps + 1) first (s ++ ']' :: rest) = .ok ((), rest) := by
  rw [skipElements, bind_of_ok (peek_blank_cons hs rfl rest)]
  rfl

lemma skipMembers_end {s : List Char} (hs : IsBlank s) (steps : Nat) (first : Bool)
    (rest : List Char) :
    skipMembers (steps + 1) first (s ++ '}' :: rest) = .ok ((), rest) := by
  rw [skipMembers, bind_of_ok (peek_blank_cons hs rfl rest)]
  rfl

/-- An item is skipped together with what stands in front of it. -/
lemma skipElements_item {first : Bool} {lead : List Char} (hlead : IsLead first lead)
    (ht : t.WrittenAs text) (steps : Nat) (rest s : List Char)
    (hskip : ∀ blank, IsBlank blank → skipValue steps (blank ++ (text ++ rest)) = .ok ((), s)) :
    skipElements (steps + 1) first (lead ++ (text ++ rest)) = skipElements steps false s := by
  obtain ⟨c, hc, hpeek⟩ := ht.peek
  cases first with
  | true =>
    rw [skipElements, bind_of_ok (hpeek lead rest hlead)]
    have hvalue := hskip [] isBlank_nil
    rw [List.nil_append] at hvalue
    simp [hc.ne_mark, bind_of_ok hvalue]
  | false =>
    obtain ⟨before, after, hbefore, hafter, rfl⟩ := hlead
    rw [List.append_assoc, List.cons_append, skipElements,
      bind_of_ok (peek_blank_cons hbefore rfl _)]
    simp [bind_of_ok (skipOne_cons ',' _), bind_of_ok (hskip after hafter)]

/-- A member is skipped together with what stands in front of it. -/
lemma skipMembers_member {first : Bool} {lead mark : List Char} (hlead : IsLead first lead)
    (hmark : IsMark ':' mark) (key : List Part) (steps : Nat) (rest s : List Char)
    (hskip : ∀ blank, IsBlank blank → skipValue steps (blank ++ rest) = .ok ((), s)) :
    skipMembers (steps + 1) first (lead ++ (quoted key ++ (mark ++ rest))) =
      skipMembers steps false s := by
  obtain ⟨blank, hblank, hcolon⟩ := colon_mark hmark
  have hkey := skipString_quoted key (mark ++ rest)
  cases first with
  | true =>
    rw [skipMembers, bind_of_ok (peek_quoted hlead key _)]
    have hagain := peek_quoted isBlank_nil key (mark ++ rest)
    rw [List.nil_append] at hagain
    simp [bind_of_ok hagain, bind_of_ok hkey, bind_of_ok (hcolon rest),
      bind_of_ok (hskip blank hblank)]
  | false =>
    obtain ⟨before, after, hbefore, hafter, rfl⟩ := hlead
    rw [List.append_assoc, List.cons_append, skipMembers,
      bind_of_ok (peek_blank_cons hbefore rfl _)]
    simp [bind_of_ok (skipOne_cons ',' _), bind_of_ok (peek_quoted hafter key _), bind_of_ok hkey,
      bind_of_ok (hcolon rest), bind_of_ok (hskip blank hblank)]

lemma skipValue_number (n : Numeral) (steps : Nat) {blank rest : List Char} (hblank : IsBlank blank)
    (hrest : Follows rest) : skipValue (steps + 1) (blank ++ (n.chars ++ rest)) =
      .ok ((), rest) := by
  obtain ⟨c, s, hchars, hc⟩ := n.exists_chars_eq_cons
  have hpeek : peek (blank ++ (n.chars ++ rest)) = .ok (some c, n.chars ++ rest) := by
    rw [hchars]
    exact peek_blank_cons hblank (isSpace_of_startsNumber hc) _
  have hn := ne_of_startsNumber (d := 'n') hc (by decide)
  have ht := ne_of_startsNumber (d := 't') hc (by decide)
  have hf := ne_of_startsNumber (d := 'f') hc (by decide)
  have hquote := ne_of_startsNumber (d := '"') hc (by decide)
  have hlist := ne_of_startsNumber (d := '[') hc (by decide)
  have hobject := ne_of_startsNumber (d := '{') hc (by decide)
  rw [skipValue, bind_of_ok hpeek]
  -- the facts above leave only the last case of the match
  simp only [if_pos hc]
  exact skipNumber_append n hrest

mutual

lemma skipValue_tree :
    ∀ (t : Tree) {text : List Char} {steps : Nat} {blank rest : List Char}, t.WrittenAs text →
    text.length ≤ steps + 1 → IsBlank blank → Follows rest →
    skipValue (steps + 1) (blank ++ (text ++ rest)) = .ok ((), rest)
  | .null, _, _, _, rest, rfl, _, hblank, _ => by
    rw [skipValue]
    exact bind_of_ok (peek_blank_cons hblank rfl ("ull".toList ++ rest))
  | .bool true, _, _, _, rest, rfl, _, hblank, _ => by
    rw [skipValue]
    exact bind_of_ok (peek_blank_cons hblank rfl ("rue".toList ++ rest))
  | .bool false, _, _, _, rest, rfl, _, hblank, _ => by
    rw [skipValue]
    exact bind_of_ok (peek_blank_cons hblank rfl ("alse".toList ++ rest))
  | .number n, _, steps, _, _, rfl, _, hblank, hrest => skipValue_number n steps hblank hrest
  | .string parts, _, _, _, rest, rfl, _, hblank, _ => by
    rw [skipValue]
    exact (bind_of_ok (peek_blank_cons hblank rfl _)).trans (skipString_quoted parts rest)
  | .array items, _, steps, _, rest, ⟨inside, hinside, rfl⟩, hsteps, hblank, _ => by
    simp only [List.length_cons, List.length_append, List.length_nil] at hsteps
    rw [List.cons_append, List.append_assoc, skipValue, bind_of_ok (peek_blank_cons hblank rfl _)]
    exact (bind_of_ok (skipOne_cons _ _)).trans (skipElements_items items hinside (by omega) rest)
  | .object members, _, steps, _, rest, ⟨inside, hinside, rfl⟩, hsteps, hblank, _ => by
    simp only [List.length_cons, List.length_append, List.length_nil] at hsteps
    rw [List.cons_append, List.append_assoc, skipValue, bind_of_ok (peek_blank_cons hblank rfl _)]
    exact (bind_of_ok (skipOne_cons _ _)).trans
      (skipMembers_members members hinside (by omega) rest)

lemma skipElements_items : ∀ (items : List Tree) {first : Bool} {s : List Char} {steps : Nat},
    Tree.ItemsAs first items s → s.length + 1 ≤ steps →
    ∀ rest, skipElements steps first (s ++ ']' :: rest) = .ok ((), rest)
  | [], first, _, steps + 1, hs, _, rest => skipElements_end hs steps first rest
  | t :: items, _, _, steps + 1, ⟨lead, text, more, hlead, ht, hmore, rfl⟩, hsteps, rest => by
    have hpos := ht.length_pos
    simp only [List.length_append] at hsteps
    obtain ⟨steps, rfl⟩ := Nat.exists_eq_add_one_of_ne_zero (n := steps) (by omega)
    rw [List.append_assoc, List.append_assoc,
      skipElements_item hlead ht (steps + 1) _ _ fun _ hblank =>
      skipValue_tree t ht (by omega) hblank (Tree.follows_itemsAs hmore rest)]
    exact skipElements_items items hmore (by omega) rest

lemma skipMembers_members :
    ∀ (members : List (List Part × Tree)) {first : Bool} {s : List Char} {steps : Nat},
    Tree.MembersAs first members s → s.length + 1 ≤ steps →
    ∀ rest, skipMembers steps first (s ++ '}' :: rest) = .ok ((), rest)
  | [], first, _, steps + 1, hs, _, rest => skipMembers_end hs steps first rest
  | (key, t) :: members, _, _, steps + 1, ⟨lead, mark, text, more, hlead, hmark, ht, hmore, rfl⟩,
    hsteps, rest => by
    have hpos := ht.length_pos
    simp only [List.length_append] at hsteps
    obtain ⟨steps, rfl⟩ := Nat.exists_eq_add_one_of_ne_zero (n := steps) (by omega)
    rw [List.append_assoc, List.append_assoc, List.append_assoc, List.append_assoc,
      skipMembers_member hlead hmark key (steps + 1) _ _ fun _ hblank =>
        skipValue_tree t ht (by omega) hblank (Tree.follows_membersAs hmore rest)]
    exact skipMembers_members members hmore (by omega) rest

end

/-- Every value can be skipped. -/
lemma skip_tree (ht : t.WrittenAs text) {blank rest : List Char} (hblank : IsBlank blank)
    (hrest : Follows rest) :
    skip (blank ++ (text ++ rest)) = .ok ((), rest) := by
  refine skipValue_tree t ht ?_ hblank hrest
  simp only [List.length_append]
  omega

end Skipping

end ResourceStubs.Json
