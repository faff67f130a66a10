import Mathlib.Data.List.Forall2
import ResourceStubs.Proofs.Json.Edits
import ResourceStubs.Proofs.Json.Layout
import ResourceStubs.Proofs.Json.RoundTrip

/-!
# Readers that do not notice edits

A reader is compared with itself on a tree and on an edited tree (`Json.Stable`): if it reads some
text of the first one as a value, it reads every text of the second one as the same value. Both
trees may be read with different limits on nesting, as long as the limit for the second tree is not
below its nesting.

Success is all that is compared. From a successful run the proofs take what was seen of the parts
(`Json.Seen`), they replace the parts by edited ones, and they run the reader again on the result
(`Json.Reads`). In between there are no texts: what was seen of a list are its items one by one, and
what was seen of a record are the values of its members by name, in whatever order they came.

Readers of recursive shapes are built from readers that may go less deep. The comparison therefore
has a bound on the limit for the second tree, which every list, record and choice raises by one.
-/

namespace ResourceStubs

/-! ## Steps that succeeded -/

section Steps

variable {σ ε α β : Type} {x : StateT σ (Except ε) α} {f : α → StateT σ (Except ε) β} {s s' : σ}
  {b : β}

lemma exists_of_bind_eq_ok (h : (x >>= f) s = .ok (b, s')) :
    ∃ a s₁, x s = .ok (a, s₁) ∧ f a s₁ = .ok (b, s') := by
  cases hx : x s with
  | error e =>
    rw [bind_of_error hx] at h
    cases h
  | ok p =>
    rw [bind_of_ok hx] at h
    exact ⟨p.1, p.2, rfl, h⟩

lemma exists_of_map_eq_ok {g : α → β} (h : (g <$> x) s = .ok (b, s')) :
    ∃ a, x s = .ok (a, s') ∧ g a = b := by
  rw [map_eq_pure_bind] at h
  obtain ⟨a, s₁, hx, hpure⟩ := exists_of_bind_eq_ok h
  cases hpure
  exact ⟨a, hx, rfl⟩

lemma map_of_ok {a : α} (g : α → β) (h : x s = .ok (a, s')) : (g <$> x) s = .ok (g a, s') := by
  rw [map_eq_pure_bind, bind_of_ok h]
  rfl

/-- What always fails in the end fails. -/
lemma exists_bind_eq_error (h : ∀ a s, ∃ e, f a s = .error e) : ∃ e, (x >>= f) s = .error e := by
  cases hx : x s with
  | error e => exact ⟨e, bind_of_error hx⟩
  | ok p =>
    obtain ⟨e, he⟩ := h p.1 p.2
    exact ⟨e, (bind_of_ok hx).trans he⟩

end Steps

namespace Json

variable {α β : Type} {k : Kind} {bound : Nat} {t t' : Tree}

/-- The step reads the tree as the value, however it is laid out and whatever follows. -/
def Reads (step : Read α) (t : Tree) (a : α) : Prop :=
  ∀ ⦃text blank rest : List Char⦄, t.WrittenAs text → IsBlank blank → Follows rest →
    step (blank ++ (text ++ rest)) = .ok (a, rest)

/-- The step gives the value however the tree is laid out and whatever follows, or it always fails
if there is none. -/
def Yields (step : Read α) (t : Tree) (value : Option α) : Prop :=
  ∀ ⦃text blank rest : List Char⦄, t.WrittenAs text → IsBlank blank → Follows rest →
    Gives (step (blank ++ (text ++ rest))) value rest

/-- The step reads some text of the tree as the value. -/
def Seen (step : Read α) (t : Tree) (a : α) : Prop :=
  ∃ text blank rest s, t.WrittenAs text ∧ IsBlank blank ∧ Follows rest ∧
    step (blank ++ (text ++ rest)) = .ok (a, s)

/-- The step stops behind the tree that it reads. -/
def StopsBehind (step : Read α) : Prop :=
  ∀ ⦃t : Tree⦄ ⦃text blank rest s : List Char⦄ ⦃a : α⦄, t.WrittenAs text → IsBlank blank →
    Follows rest →
    step (blank ++ (text ++ rest)) = .ok (a, s) → s = rest

/-- What the first reader sees in a tree, the second one reads in the edited tree, if it may go deep
enough. -/
structure Stable (k : Kind) (bound : Nat) (reader reader' : Reader α) : Prop where
  stopsBehind : ∀ depth, StopsBehind (reader depth)
  reads : ∀ {depth depth' : Nat} {t t' : Tree} {a : α}, depth' < bound → Variant k t t' →
    k.nesting t' ≤ depth' →
    Seen (reader depth) t a → Reads (reader' depth') t' a

lemma Stable.mono {bound' : Nat} (hle : bound ≤ bound') {reader reader' : Reader α}
    (h : Stable k bound' reader reader') : Stable k bound reader reader' where
  stopsBehind := h.stopsBehind
  reads hdepth := h.reads (Nat.lt_of_lt_of_le hdepth hle)

lemma Reads.seen {step : Read α} {a : α} (h : Reads step t a) : Seen step t a := by
  have hrest : Follows [] := isBlank_nil.follows
  exact ⟨t.chars, [], [], [], t.writtenAs_chars, isBlank_nil, hrest,
    h t.writtenAs_chars isBlank_nil hrest⟩

lemma Reads.yields {step : Read α} {a : α} (h : Reads step t a) : Yields step t (some a) := by
  intro text blank rest htext hblank hrest
  rw [h htext hblank hrest]
  exact gives_some a rest

lemma Yields.reads {step : Read α} {a : α} (h : Yields step t (some a)) : Reads step t a :=
  fun _ _ _ htext hblank hrest => (h htext hblank hrest).1 a rfl

/-- What was seen is the value, so there is one. -/
lemma Yields.eq_of_seen {step : Read α} {value : Option α} {a : α} (h : Yields step t value)
    (hseen : Seen step t a) :
    value = some a := by
  obtain ⟨text, blank, rest, s, htext, hblank, hrest, hok⟩ := hseen
  exact ((h htext hblank hrest).of_ok hok).1

/-! ## Single values -/

/-- A reader of values without parts: what it makes of a tree does not depend on the text or on the
limit. -/
def IsScalar (reader : Reader α) : Prop :=
  ∀ t : Tree, ∃ value : Option α, ∀ ⦃depth : Nat⦄ ⦃text blank rest : List Char⦄, t.WrittenAs text →
    IsBlank blank →
    Follows rest → Gives (reader depth (blank ++ (text ++ rest))) value rest

lemma IsScalar.reads {reader : Reader α} (h : IsScalar reader) {depth : Nat} {a : α}
    (hseen : Seen (reader depth) t a) (depth' : Nat) : Reads (reader depth') t a := by
  intro text' blank' rest' htext' hblank' hrest'
  obtain ⟨text, blank, rest, s, htext, hblank, hrest, hok⟩ := hseen
  obtain ⟨value, hgives⟩ := h t
  obtain ⟨hvalue, -⟩ := (hgives htext hblank hrest).of_ok hok
  exact (hgives htext' hblank' hrest').1 a hvalue

lemma IsScalar.stable {reader : Reader α} (h : IsScalar reader) (bound : Nat) :
    Stable .leaf bound reader reader where
  stopsBehind := by
    intro depth t text blank rest s a htext hblank hrest hok
    obtain ⟨value, hgives⟩ := h t
    exact ((hgives htext hblank hrest).of_ok hok).2
  reads := by
    intro depth depth' t t' a _ hvariant _ hseen
    rw [hvariant.eq_of_leaf]
    exact h.reads hseen depth'

lemma Gives.bind {x : Read α} {f : α → Read β} {s rest rest' : List Char} {value : Option α}
    {g : α → Option β} (h : Gives (x s) value rest)
    (hf : ∀ a, value = some a → Gives (f a rest) (g a) rest') :
    Gives ((x >>= f) s) (value.bind g) rest' := by
  cases value with
  | none =>
    obtain ⟨e, he⟩ := h.2 rfl
    rw [bind_of_error he]
    exact gives_none e rest'
  | some a =>
    rw [bind_of_ok (h.1 a rfl)]
    exact hf a rfl

lemma bind_peek_blank {f : Option Char → Read α} {blank : List Char} (hblank : IsBlank blank)
    (s : List Char) :
    (peek >>= f) (blank ++ s) = (peek >>= f) s := by
  simp only [Bind.bind, StateT.bind, peek_blank hblank]

/-- A value of the wrong kind is never read. -/
lemma refuse_error (expected : String) (s : List Char) :
    ∃ e, (refuse expected : Read α) s = .error e := by
  have hthrow (e : Error) (s : List Char) : ∃ e', (throw e : Read α) s = .error e' := ⟨e, rfl⟩
  refine exists_bind_eq_error fun next s => ?_
  split
  · exact hthrow _ s
  · exact exists_bind_eq_error fun _ => hthrow _
  · exact exists_bind_eq_error fun _ => hthrow _
  · exact exists_bind_eq_error fun _ => hthrow _
  · exact exists_bind_eq_error fun _ => hthrow _
  · exact hthrow _ s
  · exact hthrow _ s
  · split
    · exact exists_bind_eq_error fun _ => hthrow _
    · exact hthrow _ s

lemma refuse_ne_ok {expected : String} {s s' : List Char} {a : α} :
    (refuse expected : Read α) s ≠ .ok (a, s') := by
  obtain ⟨e, he⟩ := refuse_error (α := α) expected s
  rw [he]
  nofun

lemma gives_refuse (expected : String) (s rest : List Char) :
    Gives ((refuse expected : Read α) s) (none : Option α) rest :=
  ⟨nofun, fun _ => refuse_error expected s⟩

namespace Tree.StartsWith

/-! ### A value is known by its first character -/

lemma not_startsWith_number (n : Numeral) {c : Char} (hc : ¬(c = '-' ∨ isDigit c = true)) :
    ¬(Tree.number n).StartsWith c :=
  hc

lemma exists_string (h : t.StartsWith '"') : ∃ parts, t = .string parts := by
  cases t with
  | string parts => exact ⟨parts, rfl⟩
  | number n => exact absurd h (not_startsWith_number n (by decide))
  | bool value => cases value <;> cases h
  | _ => cases h

lemma exists_array (h : t.StartsWith '[') : ∃ items, t = .array items := by
  cases t with
  | array items => exact ⟨items, rfl⟩
  | number n => exact absurd h (not_startsWith_number n (by decide))
  | bool value => cases value <;> cases h
  | _ => cases h

lemma exists_object (h : t.StartsWith '{') : ∃ members, t = .object members := by
  cases t with
  | object members => exact ⟨members, rfl⟩
  | number n => exact absurd h (not_startsWith_number n (by decide))
  | bool value => cases value <;> cases h
  | _ => cases h

lemma exists_number {c : Char} (h : t.StartsWith c) (hc : c = '-' ∨ isDigit c = true) :
    ∃ n, t = .number n := by
  cases t with
  | number n => exact ⟨n, rfl⟩
  | bool value => cases value <;> cases h <;> exact absurd hc (by decide)
  | _ => cases h; exact absurd hc (by decide)

lemma eq_null (h : t.StartsWith 'n') : t = .null := by
  cases t with
  | null => rfl
  | number n => exact absurd h (not_startsWith_number n (by decide))
  | bool value => cases value <;> cases h
  | _ => cases h

lemma eq_true (h : t.StartsWith 't') : t = .bool true := by
  cases t with
  | bool value => cases value <;> first | rfl | cases h
  | number n => exact absurd h (not_startsWith_number n (by decide))
  | _ => cases h

lemma eq_false (h : t.StartsWith 'f') : t = .bool false := by
  cases t with
  | bool value => cases value <;> first | rfl | cases h
  | number n => exact absurd h (not_startsWith_number n (by decide))
  | _ => cases h

end Tree.StartsWith

/-! ### Texts, truth values and numbers -/

section Scalars

variable {s s' : List Char} {c : Char} (depth : Nat)

lemma string_refuses (hpeek : peek s = .ok (some c, s')) (hc : c ≠ '"') :
    string depth s = refuse "a string" s' := by
  rw [string, bind_of_ok hpeek]
  simp [hc]

lemma bool_refuses (hpeek : peek s = .ok (some c, s')) (htrue : c ≠ 't') (hfalse : c ≠ 'f') :
    bool depth s = refuse "a boolean" s' := by
  rw [bool, bind_of_ok hpeek]
  simp [htrue, hfalse]

lemma int32_refuses (hpeek : peek s = .ok (some c, s')) (hc : ¬(c = '-' ∨ isDigit c = true)) :
    int32 depth s = refuse "i32" s' := by
  rw [int32, bind_of_ok hpeek]
  simp [hc]

end Scalars

lemma isScalar_string : IsScalar string := by
  intro t
  by_cases h : ∃ parts, t = .string parts
  · obtain ⟨parts, rfl⟩ := h
    refine ⟨keyText parts, fun _ _ _ _ htext hblank _ => ?_⟩
    cases htext
    rw [string, bind_of_ok (peek_quoted hblank parts _)]
    exact quotedString_quoted parts _
  · refine ⟨none, fun _ _ _ _ htext hblank _ => ?_⟩
    obtain ⟨c, hc, hpeek⟩ := htext.peek
    rw [string_refuses _ (hpeek _ _ hblank) fun hquote => h (hquote ▸ hc).exists_string]
    exact gives_refuse _ _ _

lemma reads_bool (depth : Nat) : ∀ value, Reads (bool depth) (.bool value) value
  | true, _, _, rest, rfl, hblank, _ =>
    bind_of_ok (peek_blank_cons hblank rfl ("rue".toList ++ rest))
  | false, _, _, rest, rfl, hblank, _ =>
    bind_of_ok (peek_blank_cons hblank rfl ("alse".toList ++ rest))

lemma isScalar_bool : IsScalar bool := by
  intro t
  by_cases h : ∃ value, t = .bool value
  · obtain ⟨value, rfl⟩ := h
    refine ⟨value, fun _ _ _ _ htext hblank hrest => ?_⟩
    rw [reads_bool _ value htext hblank hrest]
    exact gives_some value _
  · refine ⟨none, fun _ _ _ _ htext hblank _ => ?_⟩
    obtain ⟨c, hc, hpeek⟩ := htext.peek
    rw [bool_refuses _ (hpeek _ _ hblank) (fun htrue => h ⟨true, (htrue ▸ hc).eq_true⟩)
      fun hfalse => h ⟨false, (hfalse ▸ hc).eq_false⟩]
    exact gives_refuse _ _ _

lemma gives_number (n : Numeral) :
    ∃ value : Option Number, ∀ rest, Follows rest →
      Gives (number (n.chars ++ rest)) value rest := by
  obtain ⟨o, ho⟩ := number_append n
  exact ⟨o.toOption, fun rest hrest => ho rest hrest ▸ gives_toOption o rest⟩

/-- The whole number of 32 bits that a number stands for. -/
def int32Of : Number → Option Int32
  | .integer n => if -Int.pow 2 31 ≤ n ∧ n < Int.pow 2 31 then some (Int32.ofInt n) else none
  | .float _ => none

/-- A number is kept if what it stands for fits. -/
lemma yields_int32_number {n : Numeral} {value : Option Number}
    (h : ∀ rest, Follows rest → Gives (number (n.chars ++ rest)) value rest) (depth : Nat) :
    Yields (int32 depth) (.number n) (value.bind int32Of) := by
  intro text blank rest htext hblank hrest
  obtain ⟨c, hc, hpeek⟩ := htext.peek
  cases htext
  rw [int32, bind_of_ok (hpeek _ _ hblank)]
  have hnumber : c = '-' ∨ isDigit c = true := hc
  simp only [if_pos hnumber]
  refine (h _ hrest).bind fun number _ => ?_
  cases number with
  | integer n =>
    rw [int32Of]
    dsimp only
    split
    · exact gives_some _ _
    · exact gives_none _ _
  | float x => exact gives_none _ _

lemma isScalar_int32 : IsScalar int32 := by
  intro t
  by_cases h : ∃ n, t = .number n
  · obtain ⟨n, rfl⟩ := h
    obtain ⟨value, hvalue⟩ := gives_number n
    exact ⟨value.bind int32Of, fun depth => yields_int32_number hvalue depth⟩
  · refine ⟨none, fun _ _ _ _ htext hblank _ => ?_⟩
    obtain ⟨c, hc, hpeek⟩ := htext.peek
    rw [int32_refuses _ (hpeek _ _ hblank) fun hnumber => h (hc.exists_number hnumber)]
    exact gives_refuse _ _ _

/-! ### Literals -/

lemma anyLiteral_blank (depth : Nat) {blank : List Char} (hblank : IsBlank blank) (s : List Char) :
    anyLiteral depth (blank ++ s) = anyLiteral depth s := by
  cases depth <;> rw [anyLiteral, bind_peek_blank hblank]

/-- Nothing is kept of a list or an object. -/
lemma anyLiteral_opened {depth : Nat} {c : Char} (hc : c = '[' ∨ c = '{') {s s' : List Char}
    {value : Option Literal} (h : anyLiteral depth (c :: s) = .ok (value, s')) : value = none := by
  have hdropped {β : Type} {x : Read β} (hx : (x >>= fun _ => pure none) s = .ok (value, s')) :
      value = none := by
    obtain ⟨_, _, -, hpure⟩ := exists_of_bind_eq_ok hx
    cases hpure
    rfl
  rcases hc with rfl | rfl
  · cases depth with
    | zero => cases h
    | succ inner => exact hdropped (x := allElements (anyLiteral inner)) h
  · cases depth with
    | zero => cases h
    | succ inner => exact hdropped (x := allEntries (anyLiteral inner)) h

lemma literal_error {depth : Nat} {s : List Char}
    (h : ∀ value s', anyLiteral depth s = .ok (value, s') → value = none) :
    ∃ e, literal depth s = .error e := by
  cases hany : anyLiteral depth s with
  | error e => exact ⟨e, bind_of_error hany⟩
  | ok p =>
    obtain ⟨value, s'⟩ := p
    cases h value s' hany
    exact ⟨.noLiteral, bind_of_ok hany⟩

/-- The literal that a number stands for. -/
def literalOf : Number → Option Literal
  | .integer n => if -Int.pow 2 63 ≤ n ∧ n < Int.pow 2 63 then some (.int (Int64.ofInt n)) else none
  | .float _ => none

lemma gives_singleLiteral_number {n : Numeral} {value : Option Number} {rest : List Char}
    (h : Gives (number (n.chars ++ rest)) value rest) :
    Gives (singleLiteral (n.chars ++ rest)) (value.bind fun number => some (literalOf number))
      rest := by
  obtain ⟨c, more, hchars, hc⟩ := n.exists_chars_eq_cons
  have hn := ne_of_startsNumber (d := 'n') hc (by decide)
  have ht := ne_of_startsNumber (d := 't') hc (by decide)
  have hf := ne_of_startsNumber (d := 'f') hc (by decide)
  have hquote := ne_of_startsNumber (d := '"') hc (by decide)
  have hpeek : peek (n.chars ++ rest) = .ok (some c, n.chars ++ rest) := by
    rw [hchars]
    exact peek_cons (isSpace_of_startsNumber hc) _
  rw [singleLiteral, bind_of_ok hpeek]
  -- the facts above leave only the last case of the match
  simp only [if_pos hc]
  refine h.bind fun number _ => ?_
  cases number with
  | integer n => exact gives_some _ rest
  | float x => exact gives_some _ rest

lemma gives_singleLiteral (harray : ∀ items, t ≠ .array items)
    (hobject : ∀ members, t ≠ .object members) :
    ∃ value : Option (Option Literal), ∀ ⦃text rest : List Char⦄, t.WrittenAs text → Follows rest →
      Gives (singleLiteral (text ++ rest)) value rest := by
  cases t with
  | null =>
    refine ⟨some none, fun _ rest htext _ => ?_⟩
    cases htext
    exact gives_some none _
  | bool value =>
    refine ⟨some none, fun _ rest htext _ => ?_⟩
    cases htext
    cases value <;> exact gives_some none _
  | number n =>
    obtain ⟨value, hvalue⟩ := gives_number n
    refine ⟨value.bind fun number => some (literalOf number), fun _ rest htext hrest => ?_⟩
    cases htext
    exact gives_singleLiteral_number (hvalue rest hrest)
  | string parts =>
    refine ⟨(keyText parts).bind fun text => some (some (.string text)), fun _ rest htext _ => ?_⟩
    cases htext
    have hrun : singleLiteral (quoted parts ++ rest) =
        (quotedString >>= fun text => pure (some (Literal.string text))) (quoted parts ++ rest) :=
          rfl
    rw [hrun]
    exact (quotedString_quoted parts rest).bind fun text _ =>
      gives_some (some (Literal.string text)) rest
  | array items => exact absurd rfl (harray items)
  | object members => exact absurd rfl (hobject members)

/-- A value that is neither list nor object is a literal if it is kept. -/
lemma yields_literal (harray : ∀ items, t ≠ .array items) (hobject : ∀ members, t ≠ .object members)
    {value : Option (Option Literal)}
    (h : ∀ ⦃text rest : List Char⦄, t.WrittenAs text → Follows rest →
      Gives (singleLiteral (text ++ rest)) value rest)
    (depth : Nat) : Yields (literal depth) t (value.bind id) := by
  intro text blank rest htext hblank hrest
  obtain ⟨c, more, rfl, hc⟩ := htext.exists_cons
  have hsingle : anyLiteral depth (blank ++ (c :: more ++ rest)) =
      singleLiteral (c :: more ++ rest) := by
    rw [anyLiteral_blank depth hblank, List.cons_append]
    refine anyLiteral_eq_singleLiteral hc.isSpace_eq ?_ ?_ depth _
    · rintro rfl
      obtain ⟨items, hitems⟩ := hc.exists_array
      exact harray items hitems
    · rintro rfl
      obtain ⟨members, hmembers⟩ := hc.exists_object
      exact hobject members hmembers
  have hany : Gives (anyLiteral depth (blank ++ (c :: more ++ rest))) value rest :=
    hsingle ▸ h htext hrest
  refine hany.bind fun found _ => ?_
  cases found with
  | none => exact gives_none _ rest
  | some l => exact gives_some l rest

lemma isScalar_literal : IsScalar literal := by
  intro t
  by_cases hopened : (∃ items, t = .array items) ∨ ∃ members, t = .object members
  · refine ⟨none, fun depth _ _ rest htext hblank _ =>
      ⟨nofun, fun _ => literal_error fun value s' hany => ?_⟩⟩
    obtain ⟨c, more, rfl, hc⟩ := htext.exists_cons
    have hbracket : c = '[' ∨ c = '{' := by
      rcases hopened with ⟨items, rfl⟩ | ⟨members, rfl⟩
      · exact .inl hc
      · exact .inr hc
    rw [anyLiteral_blank depth hblank] at hany
    exact anyLiteral_opened hbracket hany
  obtain ⟨hnoArray, hnoObject⟩ := not_or.1 hopened
  have harray : ∀ items, t ≠ .array items := fun items h => hnoArray ⟨items, h⟩
  have hobject : ∀ members, t ≠ .object members := fun members h => hnoObject ⟨members, h⟩
  obtain ⟨value, hvalue⟩ := gives_singleLiteral harray hobject
  exact ⟨value.bind id, fun depth => yields_literal harray hobject hvalue depth⟩

/-! ## Optional values and lists -/

lemma Stable.map {reader reader' : Reader α} (h : Stable k bound reader reader') (f : α → β) :
    Stable k bound (fun depth => f <$> reader depth) (fun depth => f <$> reader' depth) where
  stopsBehind := by
    intro depth t text blank rest s b htext hblank hrest hok
    obtain ⟨a, hread, -⟩ := exists_of_map_eq_ok hok
    exact h.stopsBehind depth htext hblank hrest hread
  reads := by
    intro depth depth' t t' b hdepth hvariant hnesting hseen text' blank' rest' htext'
      hblank' hrest'
    obtain ⟨text, blank, rest, s, htext, hblank, hrest, hok⟩ := hseen
    obtain ⟨a, hread, rfl⟩ := exists_of_map_eq_ok hok
    have hreads :=
      h.reads hdepth hvariant hnesting ⟨text, blank, rest, s, htext, hblank, hrest, hread⟩
    exact map_of_ok f (hreads htext' hblank' hrest')

lemma reads_null (item : Reader α) (depth : Nat) : Reads (nullable item depth) .null none := by
  intro text blank rest htext hblank _
  cases htext
  exact bind_of_ok (peek_blank_cons hblank rfl ("ull".toList ++ rest))

lemma nullable_of_peek (item : Reader α) (depth : Nat) {s s' : List Char} {c : Char}
    (hpeek : peek s = .ok (some c, s')) (hc : c ≠ 'n') :
    nullable item depth s = (some <$> item depth) s' := by
  rw [nullable, bind_of_ok hpeek]
  simp [hc]

/-- Null is neither edited nor the result of an edit. -/
lemma Variant.eq_null_iff (h : Variant k t t') : t' = .null ↔ t = .null := by
  rcases h with rfl | h
  · rfl
  · cases h <;> simp

lemma Stable.nullable {item item' : Reader α} (h : Stable k bound item item') :
    Stable k bound (nullable item) (nullable item') where
  stopsBehind := by
    intro depth t text blank rest s a htext hblank hrest hok
    by_cases hnull : t = .null
    · subst hnull
      cases hok.symm.trans (reads_null item depth htext hblank hrest)
      rfl
    · obtain ⟨c, hc, hpeek⟩ := htext.peek
      rw [nullable_of_peek item depth (hpeek blank rest hblank) fun hn =>
        hnull (hn ▸ hc).eq_null] at hok
      obtain ⟨b, hread, -⟩ := exists_of_map_eq_ok hok
      exact h.stopsBehind depth htext isBlank_nil hrest hread
  reads := by
    intro depth depth' t t' a hdepth hvariant hnesting hseen
    obtain ⟨text, blank, rest, s, htext, hblank, hrest, hok⟩ := hseen
    by_cases hnull : t = .null
    · rw [hvariant.eq_null_iff.2 hnull]
      subst hnull
      cases hok.symm.trans (reads_null item depth htext hblank hrest)
      exact reads_null item' depth'
    · obtain ⟨c, hc, hpeek⟩ := htext.peek
      rw [nullable_of_peek item depth (hpeek blank rest hblank) fun hn =>
        hnull (hn ▸ hc).eq_null] at hok
      obtain ⟨b, hread, rfl⟩ := exists_of_map_eq_ok hok
      have hreads :=
        h.reads hdepth hvariant hnesting ⟨text, [], rest, s, htext, isBlank_nil, hrest, hread⟩
      intro text' blank' rest' htext' hblank' hrest'
      obtain ⟨c', hc', hpeek'⟩ := htext'.peek
      rw [nullable_of_peek item' depth' (hpeek' blank' rest' hblank')
        fun hn => hnull (hvariant.eq_null_iff.1 (hn ▸ hc').eq_null)]
      exact map_of_ok some (hreads htext' isBlank_nil hrest')

section Lists

variable {step : Read α} {items : List Tree} {as : List α}

/-- Items that were read were seen one by one. -/
lemma forall₂_seen_of_elements (hstops : StopsBehind step) {steps : Nat} {first : Bool}
    {s s' rest : List Char} (hs : Tree.ItemsAs first items s)
    (h : elements step steps first (s ++ ']' :: rest) = .ok (as, s')) :
    List.Forall₂ (Seen step) items as ∧ s' = ']' :: rest := by
  induction items generalizing steps first s as with
  | nil =>
    cases steps with
    | zero => cases h
    | succ steps =>
      rw [elements, bind_of_ok (hasElement_end first hs rest)] at h
      cases h
      exact ⟨.nil, rfl⟩
  | cons t items ih =>
    cases steps with
    | zero => cases h
    | succ steps =>
      obtain ⟨lead, text, more, hlead, htext, hmore, rfl⟩ := hs
      rw [List.append_assoc, List.append_assoc, elements,
        bind_of_ok (hasElement_item hlead htext _)] at h
      obtain ⟨a, s₁, hitem, h⟩ := exists_of_bind_eq_ok h
      have hrest := Tree.follows_itemsAs hmore rest
      obtain rfl := hstops htext isBlank_nil hrest hitem
      obtain ⟨as, s₂, hitems, h⟩ := exists_of_bind_eq_ok h
      cases h
      obtain ⟨hseen, rfl⟩ := ih hmore hitems
      exact ⟨.cons ⟨text, [], _, _, htext, isBlank_nil, hrest, hitem⟩ hseen, rfl⟩

lemma elements_of_forall₂_reads (hreads : List.Forall₂ (Reads step) items as) {steps : Nat}
    (hsteps : items.length < steps) {first : Bool} {s : List Char} (hs : Tree.ItemsAs first items s)
    (rest : List Char) : elements step steps first (s ++ ']' :: rest) = .ok (as, ']' :: rest) := by
  induction hreads generalizing steps first s with
  | nil =>
    obtain ⟨steps, rfl⟩ := Nat.exists_eq_add_one_of_ne_zero (Nat.ne_zero_of_lt hsteps)
    rw [elements, bind_of_ok (hasElement_end first hs rest)]
    rfl
  | cons hread hreads ih =>
    obtain ⟨steps, rfl⟩ := Nat.exists_eq_add_one_of_ne_zero (Nat.ne_zero_of_lt hsteps)
    obtain ⟨lead, text, more, hlead, htext, hmore, rfl⟩ := hs
    have hitem := hread htext isBlank_nil (Tree.follows_itemsAs hmore rest)
    rw [List.nil_append] at hitem
    rw [List.append_assoc, List.append_assoc, elements, bind_of_ok (hasElement_item hlead htext _)]
    exact (bind_of_ok hitem).trans (bind_of_ok (ih (Nat.lt_of_succ_lt_succ hsteps) hmore))

lemma list_refuses (item : Reader α) (depth : Nat) {s s' : List Char} {c : Char}
    (hpeek : peek s = .ok (some c, s')) (hc : c ≠ '[') :
    list item depth s = refuse "a sequence" s' := by
  rw [list, bind_of_ok hpeek]
  simp [hc]

lemma list_blank (item : Reader α) (depth : Nat) {blank : List Char} (hblank : IsBlank blank)
    (s : List Char) :
    list item depth (blank ++ s) = list item depth s := by
  rw [list, bind_peek_blank hblank]

lemma allElements_eq (step : Read α) (s : List Char) :
    allElements step s =
      (elements step (s.length + 1) true >>= fun items => closeList >>= fun _ => pure items) s :=
        rfl

/-- A list that was read is a list of what was seen. -/
lemma seen_of_list {item : Reader α} (hstops : ∀ depth, StopsBehind (item depth)) {depth : Nat}
    {text blank rest s : List Char} (htext : t.WrittenAs text) (hblank : IsBlank blank)
    (h : list item depth (blank ++ (text ++ rest)) = .ok (as, s)) :
    ∃ inner items, depth = inner + 1 ∧ t = .array items ∧
      List.Forall₂ (Seen (item inner)) items as ∧ s = rest := by
  obtain ⟨c, hc, hpeek⟩ := htext.peek
  by_cases hbracket : c = '['
  · obtain ⟨items, rfl⟩ := (hbracket ▸ hc).exists_array
    obtain ⟨inside, hinside, rfl⟩ := htext
    rw [list_blank item depth hblank, List.cons_append, List.append_assoc,
      List.singleton_append] at h
    cases depth with
    | zero => cases h
    | succ inner =>
      rw [list_succ, allElements_eq] at h
      obtain ⟨as, s₁, helements, h⟩ := exists_of_bind_eq_ok h
      obtain ⟨hseen, rfl⟩ := forall₂_seen_of_elements (hstops inner) hinside helements
      rw [bind_of_ok (closeList_bracket rest)] at h
      cases h
      exact ⟨inner, items, rfl, rfl, hseen, rfl⟩
  · rw [list_refuses item depth (hpeek blank rest hblank) hbracket] at h
    exact absurd h refuse_ne_ok

lemma reads_list {item : Reader α} {inner : Nat} (h : List.Forall₂ (Reads (item inner)) items as) :
    Reads (list item (inner + 1)) (.array items) as := by
  intro text blank rest htext hblank _
  obtain ⟨inside, hinside, rfl⟩ := htext
  rw [list_blank item _ hblank, List.cons_append, List.append_assoc, List.singleton_append,
    list_succ, allElements_eq]
  have hlength := Tree.items_length_lt hinside (']' :: rest)
  rw [bind_of_ok (elements_of_forall₂_reads h hlength hinside rest),
    bind_of_ok (closeList_bracket rest)]
  rfl

end Lists

/-- Items are read again after an edit. -/
lemma forall₂_reads_of_itemVariants {item item' : Reader α} (h : Stable k bound item item')
    {inner inner' i : Nat} (hinner : inner' < bound) {items items' : List Tree} {as : List α}
    (hvariants : ItemVariants (.list k) i items items')
    (hnesting : (Kind.list k).itemNesting i items' ≤ inner')
    (hseen : List.Forall₂ (Seen (item inner)) items as) :
    List.Forall₂ (Reads (item' inner')) items' as := by
  induction hseen generalizing i items' with
  | nil =>
    cases items' with
    | nil => exact .nil
    | cons t' items' => cases hvariants
  | cons hitem hitems ih =>
    cases items' with
    | nil => cases hvariants
    | cons t' items' =>
      rw [Kind.itemNesting] at hnesting
      exact .cons (h.reads hinner hvariants.1 (Nat.le_trans (Nat.le_max_left _ _) hnesting) hitem)
        (ih hvariants.2 (Nat.le_trans (Nat.le_max_right _ _) hnesting))

lemma Stable.list {item item' : Reader α} (h : Stable k bound item item') :
    Stable (.list k) (bound + 1) (list item) (list item') where
  stopsBehind := by
    intro depth t text blank rest s as htext hblank hrest hok
    obtain ⟨-, -, -, -, -, hs⟩ := seen_of_list h.stopsBehind htext hblank hok
    exact hs
  reads := by
    intro depth depth' t t' as hdepth hvariant hnesting hseen
    obtain ⟨text, blank, rest, s, htext, hblank, hrest, hok⟩ := hseen
    obtain ⟨inner, items, rfl, rfl, hitems, -⟩ := seen_of_list h.stopsBehind htext hblank hok
    obtain ⟨items', rfl, hvariants⟩ := hvariant.array
    rw [Kind.nesting] at hnesting
    obtain ⟨inner', rfl⟩ := Nat.exists_eq_add_one_of_ne_zero (n := depth') (by omega)
    exact reads_list (forall₂_reads_of_itemVariants h (by omega) hvariants (by omega) hitems)

end Json

end ResourceStubs
