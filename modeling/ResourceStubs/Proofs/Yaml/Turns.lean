import ResourceStubs.Proofs.Yaml.Scalars
import ResourceStubs.Yaml.TokenStream

/-!
# Turns of the scanner inside brackets

The scanner works in turns, one token each, and keeps two things in mind: the columns of the open
block collections, and the places where a key may have started. In a text in flow style that starts
with a bracket no block collection is ever opened and no place has to be a key, so neither can stop
the scanner. `Yaml.Scan.Within` says this of a state, and each turn keeps it.

One lemma per kind of turn says where the scanner gets to and which tokens it adds
(`Yaml.Scan.Passes`). What is left of the bookkeeping is an empty slot in front of each token that
may be a key. Only the colon behind a key fills one, and it does so in time when the key is short
(`Yaml.Scan.Within.passes_key`).
-/

namespace ResourceStubs.Yaml

open Json (Ends)

/-! ## Positions inside brackets -/

namespace Scan

variable {s s' s'' : Scan} {bound depth : Nat} {w w' more : List Char} {ts us : List Token}

/-- The tokens so far; slots that are still empty do not count. -/
def tokens (s : Scan) : List Token :=
  s.items.reverse.filterMap Item.token?

/-- Scanning stands inside so many brackets, and nothing there has to be a key. -/
structure Within (bound depth : Nat) (s : Scan) : Prop where
  depth_eq : s.outer.length = depth
  columns_eq : s.columns = []
  candidate_optional : ∀ key ∈ s.candidate, key.required = false
  outer_optional : ∀ candidate ∈ s.outer, ∀ key ∈ candidate, key.required = false
  /-- Only outside all brackets a line may start here. -/
  column_pos : 0 < depth → 0 < s.cursor.column
  length_lt : s.cursor.rest.length < bound

/-- The second state is the first one moved behind a text, with some more tokens. -/
structure Moves (s : Scan) (w : List Char) (ts : List Token) (s' : Scan) : Prop where
  cursor_eq : s'.cursor = s.cursor.advance w.length
  tokens_eq : s'.tokens = s.tokens ++ ts

lemma within_start (chars : List Char) :
    Within (chars.length + 1) 0 { cursor := { rest := chars } } where
  depth_eq := rfl
  columns_eq := rfl
  candidate_optional := by simp
  outer_optional := by simp
  column_pos := by simp
  length_lt := Nat.lt_succ_self _

lemma Moves.rest_eq (h : s.Moves w ts s') (hrest : s.cursor.rest = w ++ more) :
    s'.cursor.rest = more := by
  rw [h.cursor_eq]
  exact Cursor.rest_advance hrest

lemma Within.inFlow_eq (h : s.Within bound (depth + 1)) : s.inFlow = true := by
  have hlength := h.depth_eq
  cases houter : s.outer with
  | nil => simp [houter] at hlength
  | cons candidate outer => simp [inFlow, houter]

lemma Within.margin_eq (h : s.Within bound depth) : s.margin = 0 := by
  rw [margin, h.columns_eq]

lemma Within.of_moves {depth' : Nat} (h : s.Within bound depth) (hmoves : s.Moves w ts s')
    (hne : w ≠ []) (hdepth : s'.outer.length = depth') (hcolumns : s'.columns = [])
    (hcandidate : ∀ key ∈ s'.candidate, key.required = false)
    (houter : ∀ candidate ∈ s'.outer, ∀ key ∈ candidate, key.required = false) :
    s'.Within bound depth' where
  depth_eq := hdepth
  columns_eq := hcolumns
  candidate_optional := hcandidate
  outer_optional := houter
  column_pos _ := by
    rw [hmoves.cursor_eq]
    exact Nat.lt_of_lt_of_le (List.length_pos_iff.2 hne) (Nat.le_add_left _ _)
  length_lt := by
    have hle : (s.cursor.rest.drop w.length).length ≤ s.cursor.rest.length := by simp
    rw [hmoves.cursor_eq]
    exact Nat.lt_of_le_of_lt hle h.length_lt

/-! ## Keys -/

lemma Within.dropKey_eq (h : s.Within bound depth) :
    s.dropKey = .ok { s with candidate := none } := by
  have hoptional : s.candidate.any (·.required) = false := by
    cases hcandidate : s.candidate with
    | none => rfl
    | some key => exact h.candidate_optional key hcandidate
  rw [dropKey, if_neg (Bool.eq_false_iff.1 hoptional)]

/-- The state after a place was noted where a key may start. -/
def noted (s : Scan) : Scan :=
  { s with
    items := .slot s.slots :: s.items
    slots := s.slots + 1
    candidate := some ⟨s.slots, false, s.cursor.index, s.cursor.line, s.cursor.column⟩ }

lemma Within.noteKey_eq (h : s.Within bound depth) :
    s.noteKey = .ok (if s.keyAllowed then s.noted else s) := by
  have hrequired : (!s.inFlow && s.margin == s.cursor.column + 1) = false := by
    rw [h.margin_eq]
    simp
  by_cases hkey : s.keyAllowed = true
  · rw [noteKey, if_pos hkey, if_pos hkey, h.dropKey_eq]
    simp only [bind, Except.bind, pure, Except.pure]
    simp only [inFlow, margin] at hrequired ⊢
    rw [hrequired]
    rfl
  · rw [noteKey, if_neg hkey, if_neg hkey]

lemma Within.noted (h : s.Within bound depth) : s.noted.Within bound depth where
  depth_eq := h.depth_eq
  columns_eq := h.columns_eq
  candidate_optional := by
    rintro key ⟨⟩
    rfl
  outer_optional := h.outer_optional
  column_pos := h.column_pos
  length_lt := h.length_lt

lemma tokens_noted (s : Scan) : s.noted.tokens = s.tokens := by
  simp [tokens, Scan.noted, Item.token?]

/-- The state in front of a token that may be part of a key. -/
lemma Within.exists_noteKey_eq (h : s.Within bound depth) :
    ∃ t, s.noteKey = .ok t ∧ t.Within bound depth ∧ t.cursor = s.cursor ∧ t.tokens = s.tokens := by
  by_cases hkey : s.keyAllowed = true
  · exact ⟨s.noted, by rw [h.noteKey_eq, if_pos hkey], h.noted, rfl, tokens_noted s⟩
  · exact ⟨s, by rw [h.noteKey_eq, if_neg hkey], h, rfl, rfl⟩

/-- The state without the places where a key may have started but can no longer be one. -/
def fresh (s : Scan) : Scan :=
  { s with
    candidate := s.candidate.filter (!·.isStale s.cursor)
    outer := s.outer.map (Option.filter (!·.isStale s.cursor)) }

lemma freshKey_eq {c : Cursor} {candidate : Option Candidate}
    (h : ∀ key ∈ candidate, key.required = false) :
    freshKey c candidate = .ok (candidate.filter (!·.isStale c)) := by
  cases candidate with
  | none => rfl
  | some key =>
    have hrequired : key.required = false := h key rfl
    by_cases hstale : key.isStale c = true
    · simp [freshKey, hstale, hrequired, Option.filter]
    · simp [freshKey, hstale, Option.filter]

lemma mapM_freshKey {c : Cursor} {outer : List (Option Candidate)}
    (h : ∀ candidate ∈ outer, ∀ key ∈ candidate, key.required = false) :
    outer.mapM (freshKey c) = .ok (outer.map (Option.filter (!·.isStale c))) := by
  induction outer with
  | nil => rfl
  | cons candidate outer ih =>
    have hfirst := freshKey_eq (c := c) (h candidate List.mem_cons_self)
    have hmore := ih fun candidate hmem => h candidate (List.mem_cons_of_mem _ hmem)
    rw [List.mapM_cons, hfirst, hmore]
    rfl

lemma Within.dropStale_eq (h : s.Within bound depth) : s.dropStale = .ok s.fresh := by
  rw [dropStale, freshKey_eq h.candidate_optional, mapM_freshKey h.outer_optional]
  rfl

lemma Within.fresh (h : s.Within bound depth) : s.fresh.Within bound depth where
  depth_eq := by
    rw [← h.depth_eq]
    exact List.length_map _
  columns_eq := h.columns_eq
  candidate_optional key hkey := h.candidate_optional key (Option.filter_eq_some_iff.1 hkey).1
  outer_optional candidate hcandidate key hkey := by
    obtain ⟨old, hold, rfl⟩ := List.mem_map.1 hcandidate
    exact h.outer_optional old hold key (Option.filter_eq_some_iff.1 hkey).1
  column_pos := h.column_pos
  length_lt := h.length_lt

lemma tokens_emit (s : Scan) (token : Token) : (s.emit token).tokens = s.tokens ++ [token] := by
  simp [tokens, emit, Item.token?]

/-! ## Turns -/

lemma skipSpace_eq {c : Char} (hrest : s.cursor.rest = c :: more) (hc : IsVisible c)
    (hcomment : c ≠ '#') :
    s.skipSpace bound = s := by
  have hmark : c ≠ '\ufeff' := by
    rintro rfl
    exact absurd hc (by decide)
  have hspace := hc.isBlank_eq
  simp only [isBlank, Bool.or_eq_false_iff] at hspace
  obtain ⟨⟨rest, index, line, column⟩, items, slots, columns, keyAllowed, candidate, outer⟩ := s
  obtain rfl : rest = c :: more := hrest
  cases bound with
  | zero => rfl
  | succ bound =>
    simp [skipSpace, skipSpaceSteps, Cursor.isAt, Cursor.skipWhile, Cursor.takeWhile, Cursor.next,
      Cursor.advance, hmark, hspace, hcomment, hc.isBreak_eq]

lemma Within.closeBlocks_eq (h : s.Within bound depth) (isRight : Nat → Bool) :
    s.closeBlocks isRight = s := by
  obtain ⟨-, hcolumns, -⟩ := h
  cases s
  subst hcolumns
  simp [closeBlocks]

/-- One turn of scanning in front of a token. -/
lemma Within.toEnd_eq {c : Char} (h : s.Within bound depth) (hrest : s.cursor.rest = c :: more)
    (hc : IsVisible c) (hcomment : c ≠ '#') (n : Nat) :
    toEnd bound (n + 1) s = s.fresh.fetch bound >>= toEnd bound n := by
  have hempty : s.fresh.cursor.rest.isEmpty = false := by
    show s.cursor.rest.isEmpty = false
    rw [hrest]
    rfl
  rw [toEnd, skipSpace_eq hrest hc hcomment, h.dropStale_eq]
  show (if (s.fresh.closeBlocks _).cursor.rest.isEmpty then _ else _) = _
  rw [h.fresh.closeBlocks_eq]
  simp only [hempty, Bool.false_eq_true, if_false]

/-- The last turn, at the end of the text. -/
lemma Within.toEnd_nil (h : s.Within bound depth) (hrest : s.cursor.rest = []) (n : Nat) :
    toEnd bound (n + 1) s = .ok ({ s.fresh with candidate := none }.emit .streamEnd) := by
  have hskip : s.skipSpace bound = s := by
    obtain ⟨⟨rest, index, line, column⟩, items, slots, columns, keyAllowed, candidate, outer⟩ := s
    obtain rfl : rest = [] := hrest
    cases bound with
    | zero => rfl
    | succ bound =>
      simp [skipSpace, skipSpaceSteps, Cursor.isAt, Cursor.skipWhile, Cursor.takeWhile, Cursor.next,
        Cursor.advance]
  have hempty : s.fresh.cursor.rest.isEmpty = true := by
    show s.cursor.rest.isEmpty = true
    rw [hrest]
    rfl
  rw [toEnd, hskip, h.dropStale_eq]
  show (if (s.fresh.closeBlocks _).cursor.rest.isEmpty then _ else _) = _
  rw [h.fresh.closeBlocks_eq]
  simp only [hempty, if_true, h.fresh.closeBlocks_eq, h.fresh.dropKey_eq]
  rfl

/-- Scanning gets from the first state to the second behind a text, in no more turns than
characters. -/
structure Passes (bound : Nat) (s : Scan) (w : List Char) (ts : List Token) (s' : Scan) : Prop
    extends Moves s w ts s' where
  reaches : ∃ turns ≤ w.length, ∀ n, toEnd bound (n + turns) s = toEnd bound n s'

lemma Passes.refl (bound : Nat) (s : Scan) : Passes bound s [] [] s where
  cursor_eq := rfl
  tokens_eq := (List.append_nil _).symm
  reaches := ⟨0, Nat.le_refl 0, fun _ => rfl⟩

lemma Passes.trans (h : Passes bound s w ts s') (h' : Passes bound s' w' us s'') :
    Passes bound s (w ++ w') (ts ++ us) s'' where
  cursor_eq := by
    rw [h'.cursor_eq, h.cursor_eq, Cursor.advance_advance, List.length_append]
  tokens_eq := by
    rw [h'.tokens_eq, h.tokens_eq, List.append_assoc]
  reaches := by
    obtain ⟨turns, hturns, hreaches⟩ := h.reaches
    obtain ⟨turns', hturns', hreaches'⟩ := h'.reaches
    refine ⟨turns' + turns, by rw [List.length_append]; omega, fun n => ?_⟩
    rw [← Nat.add_assoc, hreaches, hreaches']

lemma Within.passes_of_fetch {c : Char} (h : s.Within bound depth)
    (hrest : s.cursor.rest = c :: more) (hc : IsVisible c) (hcomment : c ≠ '#')
    (hfetch : s.fresh.fetch bound = .ok s') (hmoves : s.Moves w ts s') (hne : w ≠ []) :
    Passes bound s w ts s' where
  toMoves := hmoves
  reaches := by
    refine ⟨1, List.length_pos_iff.2 hne, fun n => ?_⟩
    rw [h.toEnd_eq hrest hc hcomment, hfetch]
    rfl

/-! ## Brackets and commas -/

/-- An opening bracket and its token. -/
inductive Opens : Char → Token → Prop where
  | sequence : Opens '[' .flowSequenceStart
  | mapping : Opens '{' .flowMappingStart

/-- A closing bracket and its token. -/
inductive Closes : Char → Token → Prop where
  | sequence : Closes ']' .flowSequenceEnd
  | mapping : Closes '}' .flowMappingEnd

lemma Opens.fetch_eq {c : Char} {token : Token} (h : Opens c token)
    (hrest : s.cursor.rest = c :: more) :
    s.fetch bound = s.fetchOpening token := by
  cases h with
  | sequence => simp [fetch, hrest, Cursor.isAtMarker_of_ne hrest]
  | mapping => simp [fetch, hrest, Cursor.isAtMarker_of_ne hrest]

lemma Closes.fetch_eq {c : Char} {token : Token} (h : Closes c token)
    (hrest : s.cursor.rest = c :: more) :
    s.fetch bound = s.fetchClosing token := by
  cases h with
  | sequence => simp [fetch, hrest, Cursor.isAtMarker_of_ne hrest]
  | mapping => simp [fetch, hrest, Cursor.isAtMarker_of_ne hrest]

lemma Within.passes_opening {c : Char} {token : Token} (h : s.Within bound depth)
    (hopens : Opens c token) (hrest : s.cursor.rest = c :: more) :
    ∃ s', Passes bound s [c] [token] s' ∧ s'.Within bound (depth + 1) ∧ s'.keyAllowed = true := by
  have hvisible : IsVisible c ∧ c ≠ '#' := by
    cases hopens <;> decide
  obtain ⟨t, hnote, ht, hcursor, htokens⟩ := h.fresh.exists_noteKey_eq
  let s' : Scan :=
    { t.take token 1 with keyAllowed := true, candidate := none, outer := t.candidate :: t.outer }
  have hfetch : s.fresh.fetch bound = .ok s' := by
    rw [hopens.fetch_eq (s := s.fresh) hrest, fetchOpening, hnote]
    rfl
  have hmoves : s.Moves [c] [token] s' := ⟨congrArg (·.advance 1) hcursor, by
    show (t.emit token).tokens = _
    rw [tokens_emit, htokens]
    rfl⟩
  refine ⟨s', h.passes_of_fetch hrest hvisible.1 hvisible.2 hfetch hmoves (List.cons_ne_nil _ _),
    ?_, rfl⟩
  refine h.of_moves hmoves (List.cons_ne_nil _ _) (congrArg (· + 1) ht.depth_eq) ht.columns_eq
    (by simp [s']) ?_
  intro candidate hcandidate
  rcases List.mem_cons.1 hcandidate with rfl | hcandidate
  · exact ht.candidate_optional
  · exact ht.outer_optional candidate hcandidate

lemma Within.passes_closing {c : Char} {token : Token} (h : s.Within bound (depth + 1))
    (hcloses : Closes c token) (hrest : s.cursor.rest = c :: more) :
    ∃ s', Passes bound s [c] [token] s' ∧ s'.Within bound depth := by
  have hvisible : IsVisible c ∧ c ≠ '#' := by
    cases hcloses <;> decide
  have hlength := h.fresh.depth_eq
  cases houter : s.fresh.outer with
  | nil => simp [houter] at hlength
  | cons candidate outer =>
    let s' : Scan :=
      { s.fresh.take token 1 with keyAllowed := false, candidate := candidate, outer := outer }
    have hfetch : s.fresh.fetch bound = .ok s' := by
      rw [hcloses.fetch_eq (s := s.fresh) hrest, fetchClosing, h.fresh.dropKey_eq]
      simp only [bind, Except.bind, take, emit, houter]
      rfl
    have hmoves : s.Moves [c] [token] s' := ⟨rfl, tokens_emit s.fresh token⟩
    have hoptional := h.fresh.outer_optional
    rw [houter] at hlength hoptional
    refine ⟨s', h.passes_of_fetch hrest hvisible.1 hvisible.2 hfetch hmoves (List.cons_ne_nil _ _),
      ?_⟩
    have hcandidate := hoptional candidate List.mem_cons_self
    exact h.of_moves hmoves (List.cons_ne_nil _ _) (Nat.succ.inj hlength) h.columns_eq hcandidate
      fun other hother => hoptional other (List.mem_cons_of_mem _ hother)

lemma Within.passes_comma (h : s.Within bound depth) (hrest : s.cursor.rest = ',' :: more) :
    ∃ s', Passes bound s [','] [.flowEntry] s' ∧ s'.Within bound depth ∧ s'.keyAllowed = true := by
  let s' : Scan := { s.fresh.take .flowEntry 1 with keyAllowed := true, candidate := none }
  have hfetch : s.fresh.fetch bound = .ok s' := by
    have hcomma : s.fresh.fetch bound = s.fresh.fetchComma := by
      have hfresh : s.fresh.cursor.rest = ',' :: more := hrest
      simp [fetch, hfresh, Cursor.isAtMarker_of_ne hfresh]
    rw [hcomma, fetchComma, h.fresh.dropKey_eq]
    rfl
  have hmoves : s.Moves [','] [.flowEntry] s' := ⟨rfl, tokens_emit s.fresh .flowEntry⟩
  refine ⟨s', h.passes_of_fetch hrest (by decide) (by decide) hfetch hmoves (List.cons_ne_nil _ _),
    ?_, rfl⟩
  exact h.of_moves hmoves (List.cons_ne_nil _ _) h.fresh.depth_eq h.columns_eq (by simp [s'])
    h.fresh.outer_optional

/-! ## Scalars and keys -/

/-- A turn that reads a scalar, where a key may have been noted. -/
lemma Within.passes_content {c : Char} {token : Token} (h : s.Within bound depth)
    (hrest : s.cursor.rest = c :: more) (hvisible : IsVisible c) (hcomment : c ≠ '#') (hne : w ≠ [])
    (hfetch : ∀ t, s.fresh.noteKey = .ok t → t.Within bound depth → t.cursor = s.cursor →
      s.fresh.fetch bound =
        .ok { t.emit token with cursor := s.cursor.advance w.length, keyAllowed := false }) :
    ∃ s', Passes bound s w [token] s' ∧ s'.Within bound depth := by
  obtain ⟨t, hnote, ht, hcursor, htokens⟩ := h.fresh.exists_noteKey_eq
  let s' : Scan := { t.emit token with cursor := s.cursor.advance w.length, keyAllowed := false }
  have hmoves : s.Moves w [token] s' := ⟨rfl, by
    show (t.emit token).tokens = _
    rw [tokens_emit, htokens]
    rfl⟩
  refine ⟨s', h.passes_of_fetch hrest hvisible hcomment (hfetch t hnote ht hcursor) hmoves hne, ?_⟩
  exact h.of_moves hmoves hne ht.depth_eq ht.columns_eq ht.candidate_optional ht.outer_optional

lemma Within.fetch_quoted {t : Scan} {text : String} (h : s.Within bound (depth + 1))
    (hnote : s.noteKey = .ok t) (hcursor : t.cursor = s.cursor) (htext : IsAscii text)
    (hrest : s.cursor.rest = Json.stringChars text ++ more) :
    s.fetch bound = .ok { t.emit (.scalar .quoted text) with
      cursor := s.cursor.advance (Json.stringChars text).length, keyAllowed := false } := by
  have hchars : s.cursor.rest = '"' :: (text.toList.flatMap Json.escapedChar ++ '"' :: more) := by
    rw [hrest, Json.stringChars]
    simp
  have hsteps : text.toList.length < bound := by
    have hle := (length_escaped text.toList).1
    have hlength := h.length_lt
    rw [hchars, List.length_cons, List.length_append] at hlength
    omega
  have hnext : (s.cursor.advance 1).rest = text.toList.flatMap Json.escapedChar ++ '"' :: more := by
    simp [Cursor.advance, hchars]
  have hread : quotedTail '"' bound (s.cursor.advance 1) .none =
      .ok (text.toList, s.cursor.advance (Json.stringChars text).length) := by
    rw [Gap.none, quotedTail_escaped htext (Nat.succ_pos _) hsteps hnext, Cursor.advance_advance,
      length_stringChars, List.nil_append, Nat.add_comm 1]
  have hfetch : s.fetch bound = s.fetchQuoted bound '"' := by
    simp [fetch, hchars, Cursor.isAtMarker_of_ne hchars]
  rw [hfetch, fetchQuoted, fetchContent, hnote]
  simp only [bind, Except.bind, hcursor, hread, Except.map, String.ofList_toList]
  rfl

lemma Within.passes_quoted {text : String} (h : s.Within bound (depth + 1)) (htext : IsAscii text)
    (hrest : s.cursor.rest = Json.stringChars text ++ more) :
    ∃ s', Passes bound s (Json.stringChars text) [.scalar .quoted text] s' ∧
      s'.Within bound (depth + 1) := by
  refine h.passes_content hrest (by decide) (by decide) (stringChars_ne_nil text)
    fun t hnote _ hcursor => ?_
  exact h.fresh.fetch_quoted hnote hcursor htext hrest

/-- The colon behind a key fills the slot that was left in front of it. -/
lemma Within.fetch_colon {key : Candidate} {text : String} {items : List Item}
    (h : s.Within bound (depth + 1)) (hcandidate : s.candidate = some key)
    (hitems : s.items = .token (.scalar .quoted text) :: .slot key.slot :: items)
    (hrest : s.cursor.rest = ':' :: more) :
    s.fetch bound = .ok { s with
      cursor := s.cursor.advance 1
      items := .token .value :: .token (.scalar .quoted text) :: .token .key :: items
      candidate := none
      keyAllowed := false } := by
  have hfetch : s.fetch bound = s.fetchValue := by
    simp [fetch, hrest, Cursor.isAtMarker_of_ne hrest, h.inFlow_eq]
  rw [hfetch, fetchValue, hcandidate]
  simp [h.inFlow_eq, hitems, fillSlot, take, emit]

/-- The state behind a key that was noted, with its slot still empty. -/
def behindKey (s : Scan) (text : String) : Scan :=
  { s.fresh.noted.emit (.scalar .quoted text) with
    cursor := s.cursor.advance (Json.stringChars text).length, keyAllowed := false }

lemma Within.passes_behindKey {text : String} (h : s.Within bound (depth + 1))
    (hkey : s.keyAllowed = true) (htext : IsAscii text)
    (hrest : s.cursor.rest = Json.stringChars text ++ more) :
    Passes bound s (Json.stringChars text) [.scalar .quoted text] (s.behindKey text) ∧
      (s.behindKey text).Within bound (depth + 1) := by
  have hnote : s.fresh.noteKey = .ok s.fresh.noted := by
    rw [h.fresh.noteKey_eq]
    exact congrArg Except.ok (if_pos hkey)
  have htokens : (s.behindKey text).tokens = s.tokens ++ [.scalar .quoted text] := by
    show (s.fresh.noted.emit (.scalar .quoted text)).tokens = _
    rw [tokens_emit, tokens_noted]
    rfl
  have hmoves : s.Moves (Json.stringChars text) [.scalar .quoted text] (s.behindKey text) :=
    ⟨rfl, htokens⟩
  have hfetch : s.fresh.fetch bound = .ok (s.behindKey text) :=
    h.fresh.fetch_quoted hnote rfl htext hrest
  refine ⟨h.passes_of_fetch hrest (by decide) (by decide) hfetch hmoves (stringChars_ne_nil text),
    ?_⟩
  exact h.of_moves hmoves (stringChars_ne_nil text) h.fresh.depth_eq h.columns_eq
    h.fresh.noted.candidate_optional
    h.fresh.outer_optional

/-- A key of at most 128 characters is not given up, since escapes make it six times as long at
most. -/
lemma candidate_fresh_behindKey (s : Scan) {text : String} (hlength : text.length ≤ 128) :
    (s.behindKey text).fresh.candidate =
      some ⟨s.slots, false, s.cursor.index, s.cursor.line, s.cursor.column⟩ := by
  have hcount : (Json.stringChars text).length ≤ keyLength := by
    have hle := (length_escaped text.toList).2
    rw [String.length_toList] at hle
    rw [length_stringChars, keyLength]
    omega
  let key : Candidate := ⟨s.slots, false, s.cursor.index, s.cursor.line, s.cursor.column⟩
  have hstale : key.isStale (s.behindKey text).cursor = false := by
    simp [Candidate.isStale, key, behindKey, Cursor.advance, hcount]
  show (some key).filter (!·.isStale (s.behindKey text).cursor) = some key
  simp [Option.filter, hstale]

/-- A key and its colon. -/
lemma Within.passes_key {text : String} (h : s.Within bound (depth + 1))
    (hkey : s.keyAllowed = true) (htext : IsAscii text) (hlength : text.length ≤ 128)
    (hrest : s.cursor.rest = Json.stringChars text ++ ':' :: more) :
    ∃ s', Passes bound s (Json.stringChars text ++ [':']) [.key, .scalar .quoted text, .value] s' ∧
      s'.Within bound (depth + 1) := by
  obtain ⟨hpasses, hbehind⟩ := h.passes_behindKey hkey htext hrest
  have hcolon : (s.behindKey text).cursor.rest = ':' :: more := Cursor.rest_advance hrest
  let s' : Scan := { (s.behindKey text).fresh with
    cursor := (s.behindKey text).cursor.advance 1
    items := .token .value :: .token (.scalar .quoted text) :: .token .key :: s.items
    candidate := none
    keyAllowed := false }
  have hfetch : (s.behindKey text).fresh.fetch bound = .ok s' :=
    hbehind.fresh.fetch_colon (candidate_fresh_behindKey s hlength) rfl hcolon
  obtain ⟨turns, hturns, hreaches⟩ := hpasses.reaches
  -- the turn at the colon also puts a token in front of the key, so it is no pass of its own
  have hmoves : s.Moves (Json.stringChars text ++ [':']) [.key, .scalar .quoted text, .value] s' :=
    ⟨by rw [List.length_append]; exact Cursor.advance_advance _ _ _,
      by simp [s', tokens, Item.token?]⟩
  refine ⟨s',
    ⟨hmoves, turns + 1, by rw [List.length_append]; exact Nat.succ_le_succ hturns, fun n => ?_⟩, ?_⟩
  · rw [Nat.add_comm turns, ← Nat.add_assoc, hreaches,
      hbehind.toEnd_eq hcolon (by decide) (by decide), hfetch]
    rfl
  · exact h.of_moves hmoves (by simp) hbehind.fresh.depth_eq h.columns_eq (by simp [s'])
      hbehind.fresh.outer_optional

/-- A letter or a digit starts a plain scalar, and so does a dash in front of one. -/
lemma Within.fetch_word {c : Char} (h : s.Within bound (depth + 1)) (hc : isWordChar c = true)
    (hdash : c = '-' → endsWord more = false) (hrest : s.cursor.rest = c :: more) :
    s.fetch bound = s.fetchPlain bound := by
  have hcolumn : 0 < s.cursor.column := h.column_pos (Nat.succ_pos depth)
  have hstarts : startsPlain s.inFlow c more = true := by
    by_cases hminus : c = '-'
    · have hblank : more.head?.any isBlank = false := by
        have hends := hdash hminus
        cases more with
        | nil => cases hends
        | cons d more => exact (Bool.or_eq_false_iff.1 hends).1
      simp [startsPlain, hminus, hblank]
    · have hvisible := isVisible_of_isWordChar hc
      have hindicator : isIndicator c = false := by
        simp (disch := decide) [isIndicator, hminus, ne_of_isWordChar hc]
      simp [startsPlain, hvisible.isBlank_eq, hvisible.isBreak_eq, hindicator]
  have hentry : ¬(c = '-' ∧ endsWord more = true) :=
    fun hp => Bool.false_ne_true ((hdash hp.1).symm.trans hp.2)
  rw [fetch, hrest]
  simp (disch := decide) only [Nat.ne_of_gt hcolumn, Cursor.isAtMarker_of_column hcolumn,
    ne_of_isWordChar hc, hentry, hstarts, false_and, or_self, if_false, if_true, Bool.false_eq_true]

lemma Within.passes_word {word : List Char} (h : s.Within bound (depth + 1)) (hword : IsWord word)
    (hmore : Ends more) (hrest : s.cursor.rest = word ++ more) :
    ∃ s', Passes bound s word [.scalar .plain (String.ofList word)] s' ∧
      s'.Within bound (depth + 1) := by
  obtain ⟨hnil, hdash, hchars⟩ := hword
  obtain ⟨c, tail, rfl⟩ := List.exists_cons_of_ne_nil hnil
  have hc : isWordChar c = true := (Bool.and_eq_true_iff.1 hchars).1
  have hends : c = '-' → endsWord (tail ++ more) = false := by
    rintro rfl
    cases tail with
    | nil => exact absurd rfl hdash
    | cons d tail =>
      have hd : isWordChar d = true := List.all_eq_true.1 hchars d (by simp)
      have hvisible := isVisible_of_isWordChar hd
      show (isBlank d || isBreak d) = false
      rw [hvisible.isBlank_eq, hvisible.isBreak_eq, Bool.or_false]
  have hsteps : (c :: tail).length < bound := by
    have hlength := h.length_lt
    rw [hrest, List.length_append] at hlength
    omega
  refine h.passes_content hrest (isVisible_of_isWordChar hc) (ne_of_isWordChar hc (by decide))
    hnil ?_
  intro t hnote ht hcursor
  have hread :
      plainTail true t.margin bound s.cursor .none =
        .ok (c :: tail, s.cursor.advance (c :: tail).length, .none) :=
    plainTail_word hchars hmore (h.column_pos (Nat.succ_pos depth)) hsteps hrest
  rw [h.fresh.fetch_word hc hends hrest, fetchPlain, hnote]
  simp only [bind, Except.bind, ht.inFlow_eq, hcursor, hread]
  rfl

end Scan

end ResourceStubs.Yaml
