import ResourceStubs.Proofs.ReadingLaws
import ResourceStubs.Proofs.Yaml.Parsing
import ResourceStubs.Yaml.Decoder

/-!
# Decoding the tree of a JSON text

The decoders of YAML give back what the tree of a JSON value stands for. A quoted scalar is a text
whatever it looks like, and the plain scalars of such a tree are those words and numbers that mean
the same in both formats: `null`, the truth values, and whole numbers in decimal digits without
superfluous zeros (`Yaml.intOf_text`).

With one lemma per combinator the decoders satisfy the laws of reading back (`Yaml.readingLaws`),
and all that holds of formats with these laws holds of YAML.
-/

namespace ResourceStubs.Yaml

open Json (Value)

variable {α β : Type}

/-! ## Whole numbers -/

lemma digitOf_ten {c : Char} (hc : Json.isDigit c = true) :
    digitOf 10 c = some (c.toNat - '0'.toNat) := by
  have hrange : '0' ≤ c ∧ c ≤ '9' := by
    simpa [Json.isDigit] using hc
  have hsmall : c.toNat - '0'.toNat < 10 := by
    have hle : c.toNat ≤ '9'.toNat := hrange.2
    have hnine : '9'.toNat = '0'.toNat + 9 := by decide
    omega
  simp only [digitOf, if_pos hrange, Option.filter, decide_eq_true hsmall, if_true]

lemma digitsOf_ten {digits : List Char} (hdigits : ∀ c ∈ digits, Json.isDigit c = true)
    (hne : digits ≠ []) :
    digitsOf 10 digits = some (Nat.ofDigitChars 10 digits 0) := by
  have hfold (n : Nat) : digits.foldlM (fun n c => (digitOf 10 c).map (n * 10 + ·)) n =
      some (Nat.ofDigitChars 10 digits n) := by
    clear hne
    induction digits generalizing n with
    | nil => rfl
    | cons c digits ih =>
      have hc := digitOf_ten (hdigits c List.mem_cons_self)
      rw [List.foldlM_cons, hc, Nat.ofDigitChars_cons, Nat.mul_comm 10]
      exact ih (fun d hd => hdigits d (List.mem_cons_of_mem c hd)) _
  rw [digitsOf, if_neg (by simpa using hne), hfold]

/-- Digits in base ten are never taken for another base. -/
lemma natOf_toDigits (n : Nat) : natOf (Nat.toDigits 10 n) = some n := by
  have hdigits : ∀ c ∈ Nat.toDigits 10 n, Json.isDigit c = true :=
    fun c hc => Json.isDigit_of_mem_toDigits hc
  have hten := digitsOf_ten hdigits Nat.toDigits_ne_nil
  rw [Nat.ofDigitChars_ten_toDigits] at hten
  unfold natOf
  split
  case h_4 => exact hten
  all_goals
    rename_i h
    exact absurd (Json.tail_toDigits_eq_nil h) (List.cons_ne_nil _ _)

lemma signOf_intChars (n : Int) :
    signOf (Json.intChars n) = (if n < 0 then some '-' else none, Nat.toDigits 10 n.natAbs) := by
  by_cases hneg : n < 0
  · rw [Json.intChars, if_pos hneg, if_pos hneg]
    rfl
  · rw [Json.intChars, if_neg hneg, if_neg hneg]
    have hdigit {c : Char} {digits : List Char} (h : Nat.toDigits 10 n.natAbs = c :: digits) :
        Json.isDigit c = true :=
      Json.isDigit_of_mem_toDigits (n := n.natAbs) (by rw [h]; exact List.mem_cons_self)
    unfold signOf
    split
    · rename_i h
      exact absurd (hdigit h) (by decide)
    · rename_i h
      exact absurd (hdigit h) (by decide)
    · rfl

lemma hasLeadingZero_intChars (n : Int) : hasLeadingZero (Json.intChars n) = false := by
  rw [hasLeadingZero, signOf_intChars]
  split
  · rename_i h
    exact absurd (Json.tail_toDigits_eq_nil h) (List.cons_ne_nil _ _)
  · rfl

/-- The text of a whole number is read as that number. -/
lemma intOf_text (n : Int) : intOf (Value.int n).text = some n := by
  have htext : (Value.int n).text.toList = Json.intChars n := by
    rw [Value.text, String.toList_ofList, Value.chars]
  have hvalue : (if (if n < 0 then some '-' else none) = some '-' then -(n.natAbs : Int)
      else (n.natAbs : Int)) = n := by
    by_cases hneg : n < 0
    · rw [if_pos hneg, if_pos rfl]
      omega
    · rw [if_neg hneg, if_neg (by decide)]
      omega
  rw [intOf, htext, hasLeadingZero_intChars, signOf_intChars, if_neg Bool.false_ne_true]
  dsimp only
  rw [natOf_toDigits]
  exact congrArg some hvalue

/-! ## Plain scalars -/

/-- The text starts with a dash or a digit, as that of a number does. -/
def startsNumber (text : String) : Bool :=
  text.toList.head?.any fun c => c == '-' || Json.isDigit c

lemma startsNumber_text_int (n : Int) : startsNumber (Value.int n).text = true := by
  obtain ⟨c, digits, hchars, hc⟩ := Json.exists_intChars_eq_cons n
  rw [startsNumber, Value.text, String.toList_ofList, Value.chars, hchars]
  simpa using hc

lemma text_int_ne (n : Int) {w : String} (hw : startsNumber w = false) :
    (Value.int n).text ≠ w := by
  rintro rfl
  exact Bool.false_ne_true (hw.symm.trans (startsNumber_text_int n))

lemma isNull_text_int (n : Int) : isNull (Value.int n).text = false := by
  simp (disch := decide) [isNull, text_int_ne]

lemma boolOf_text_int (n : Int) : boolOf (Value.int n).text = none := by
  simp (disch := decide) [boolOf, text_int_ne]

lemma isEmpty_text_int (n : Int) : (Value.int n).text.isEmpty = false := by
  simp (disch := decide) [← Bool.not_eq_true, String.isEmpty_iff, text_int_ne]

/-- A number of at most 64 bits is a whole number wherever any kind of value may stand. -/
lemma plainValue_text_int (n : Int64) : PlainValue.of (Value.int n.toInt).text = .int n.toInt := by
  have hrange : -Int.pow 2 127 ≤ n.toInt ∧ n.toInt < Int.pow 2 128 := by
    have hlow : -Int.pow 2 63 ≤ n.toInt := Int64.le_toInt n
    have hhigh : n.toInt < Int.pow 2 63 := Int64.toInt_lt n
    have hpow : Int.pow 2 63 ≤ Int.pow 2 127 ∧ Int.pow 2 63 ≤ Int.pow 2 128 := by decide
    omega
  have hint : intOf128 (Value.int n.toInt).text = some n.toInt := by
    rw [intOf128, intOf_text, Option.filter, decide_eq_true hrange]
    rfl
  rw [PlainValue.of, boolOf_text_int, hint, if_neg]
  simp [isEmpty_text_int, isNull_text_int]

/-! ## Readers of values without parts -/

/-- The decoder gives a value back from its tree, at every depth below the bound that the value fits
in. -/
def ReadsBack (bound : Nat) (decoder : Decoder α) (v : Value) (a : α) : Prop :=
  ∀ depth < bound, v.depth ≤ depth →
    ∀ graph jumps, decoder graph depth v.tree jumps = .ok (a, jumps)

section Leaves

variable {bound : Nat} {decoder : Decoder α} {v : Value} {a : α}

lemma ReadsBack.mono {bound' : Nat} (hle : bound ≤ bound') (h : ReadsBack bound' decoder v a) :
    ReadsBack bound decoder v a :=
  fun depth hdepth => h depth (Nat.lt_of_lt_of_le hdepth hle)

lemma readsBack_map (f : α → β) (h : ReadsBack bound decoder v a) :
    ReadsBack bound (Format.map f decoder) v (f a) := by
  intro depth hdepth hfits graph jumps
  have hread := h depth hdepth hfits graph jumps
  show (f <$> decoder graph depth v.tree) jumps = _
  rw [map_eq_pure_bind, bind_of_ok hread]
  rfl

lemma readsBack_string (bound : Nat) (text : String) :
    ReadsBack bound string (.string text) text := by
  intro depth _ _ graph jumps
  rw [Value.tree]
  rfl

lemma follow_tree (graph : Graph) (v : Value) (jumps : Nat) :
    follow graph v.tree jumps = .ok (v.tree, jumps) := by
  cases v <;> rw [Value.tree] <;> rfl

lemma readsBack_bool (bound : Nat) (b : Bool) : ReadsBack bound bool (.bool b) b := by
  intro depth _ _ graph jumps
  have hvalue : boolOf (Value.bool b).text = some b := by
    cases b <;> decide
  have hplain : readsAs "bool" {} .plain = true := rfl
  rw [bool, bind_of_ok (follow_tree graph (.bool b) jumps), Value.tree]
  simp only [hplain, if_true, hvalue]
  rfl

lemma readsBack_int32 (bound : Nat) (n : Int32) : ReadsBack bound int32 (.int n.toInt) n := by
  intro depth _ _ graph jumps
  have hrange : -Int.pow 2 31 ≤ n.toInt ∧ n.toInt < Int.pow 2 31 :=
    ⟨Int32.le_toInt n, Int32.toInt_lt n⟩
  have hplain : readsAs "int" {} .plain = true := rfl
  rw [int32, bind_of_ok (follow_tree graph (.int n.toInt) jumps), Value.tree]
  simp only [hplain, if_true, intOf_text, if_pos hrange, Int32.ofInt_toInt]
  rfl

lemma readsBack_literal (bound : Nat) (l : Literal) : ReadsBack bound literal l.toJson l := by
  intro depth _ _ graph jumps
  rw [literal, bind_of_ok (follow_tree graph l.toJson jumps)]
  cases l with
  | int n =>
    have hrange : -Int.pow 2 63 ≤ n.toInt ∧ n.toInt < Int.pow 2 63 :=
      ⟨Int64.le_toInt n, Int64.toInt_lt n⟩
    have hvalue : scalarValue {} .plain (Value.int n.toInt).text = .ok (.int n.toInt) :=
      congrArg Except.ok (plainValue_text_int n)
    rw [Literal.toJson, Value.tree]
    have hlift : (liftM (scalarValue {} .plain (Value.int n.toInt).text) :
        Decode PlainValue) jumps = .ok (.int n.toInt, jumps) := by
      rw [hvalue]
      rfl
    dsimp only
    rw [bind_of_ok hlift]
    dsimp only
    rw [if_pos hrange, Int64.ofInt_toInt]
    rfl
  | string text =>
    rw [Literal.toJson, Value.tree]
    rfl

lemma readsBack_nullable_none (bound : Nat) (decoder : Decoder α) :
    ReadsBack bound (nullable decoder) .null none := by
  intro depth _ _ graph jumps
  have habsent : isAbsent {} .plain Value.null.text = .ok true := by decide
  rw [nullable, bind_of_ok (follow_tree graph .null jumps), Value.tree]
  simp only [habsent]
  rfl

lemma readsBack_nullable_some (hv : v ≠ .null) (h : ReadsBack bound decoder v a) :
    ReadsBack bound (nullable decoder) v (some a) := by
  intro depth hdepth hfits graph jumps
  have hread := h depth hdepth hfits graph jumps
  have hsome : (some <$> decoder graph depth v.tree) jumps = .ok (some a, jumps) := by
    rw [map_eq_pure_bind, bind_of_ok hread]
    rfl
  rw [nullable, bind_of_ok (follow_tree graph v jumps)]
  cases v with
  | null => exact absurd rfl hv
  | bool b =>
    have habsent : isAbsent {} .plain (Value.bool b).text = .ok false := by
      cases b <;> decide
    rw [Value.tree] at hsome ⊢
    simp only [habsent]
    exact hsome
  | int n =>
    have habsent : isAbsent {} .plain (Value.int n).text = .ok false := by
      simp [isAbsent, isEmpty_text_int, isNull_text_int]
    rw [Value.tree] at hsome ⊢
    simp only [habsent]
    exact hsome
  | string _ | array _ | object _ =>
    rw [Value.tree] at hsome ⊢
    exact hsome

end Leaves

/-! ## Lists and maps -/

lemma depth_le_itemDepth {v : Value} {items : List Value} (h : v ∈ items) :
    v.depth ≤ Value.itemDepth items := by
  induction items with
  | nil => cases h
  | cons w items ih =>
    rw [Value.itemDepth]
    rcases List.mem_cons.1 h with rfl | hmem
    · exact Nat.le_max_left _ _
    · exact Nat.le_trans (ih hmem) (Nat.le_max_right _ _)

lemma depth_le_memberDepth {m : String × Value} {members : List (String × Value)}
    (h : m ∈ members) :
    m.2.depth ≤ Value.memberDepth members := by
  induction members with
  | nil => cases h
  | cons n members ih =>
    rw [Value.memberDepth]
    rcases List.mem_cons.1 h with rfl | hmem
    · exact Nat.le_max_left _ _
    · exact Nat.le_trans (ih hmem) (Nat.le_max_right _ _)

section Collections

variable {bound : Nat} {encode : α → Value}

lemma items_map {item : Node Nat → Decode α} {as : List α} {jumps : Nat}
    (h : ∀ a ∈ as, item (encode a).tree jumps = .ok (a, jumps)) :
    items item (as.map fun a => (encode a).tree) jumps = .ok (as, jumps) := by
  induction as with
  | nil => rfl
  | cons a as ih =>
    rw [List.map_cons, items, bind_of_ok (h a List.mem_cons_self),
      bind_of_ok (ih fun b hb => h b (List.mem_cons_of_mem a hb))]
    rfl

lemma readsBack_list {decoder : Decoder α} {as : List α}
    (h : ∀ a ∈ as, ReadsBack bound decoder (encode a) a) :
    ReadsBack (bound + 1) (list decoder) (.array (as.map encode)) as := by
  intro depth hdepth hfits graph jumps
  rw [Value.depth] at hfits
  obtain ⟨inner, rfl⟩ := Nat.exists_eq_succ_of_ne_zero (Nat.ne_of_gt (Nat.zero_lt_of_lt hfits))
  have hitems : ∀ a ∈ as, decoder graph inner (encode a).tree jumps = .ok (a, jumps) := by
    intro a ha
    have hle : (encode a).depth ≤ Value.itemDepth (as.map encode) :=
      depth_le_itemDepth (List.mem_map_of_mem ha)
    exact h a ha inner (by omega) (by omega) graph jumps
  rw [list, bind_of_ok (follow_tree graph _ jumps), Value.tree, itemTrees_eq, List.map_map]
  exact items_map hitems

lemma entries_map {graph : Graph} {item : Node Nat → Decode α} {as : List (String × α)}
    {jumps : Nat} (h : ∀ e ∈ as, item (encode e.2).tree jumps = .ok (e.2, jumps)) :
    entries graph item ((as.map fun e => (e.1, encode e.2)).map memberTree) jumps =
      .ok (as, jumps) := by
  induction as with
  | nil => rfl
  | cons e as ih =>
    have hkey : string graph 0 (.scalar {} .quoted e.1) jumps = .ok (e.1, jumps) := rfl
    rw [List.map_cons, List.map_cons, memberTree, entries, bind_of_ok hkey,
      bind_of_ok (h e List.mem_cons_self),
      bind_of_ok (ih fun d hd => h d (List.mem_cons_of_mem e hd))]
    rfl

lemma readsBack_args (bound : Nat) (m : ArgMap) : ReadsBack bound args m.toJson m := by
  intro depth hdepth hfits graph jumps
  rw [ArgMap.toJson, Value.depth] at hfits
  obtain ⟨inner, rfl⟩ := Nat.exists_eq_succ_of_ne_zero (Nat.ne_of_gt (Nat.zero_lt_of_lt hfits))
  have hentries :
      ∀ e ∈ m.entries, literal graph inner e.2.toJson.tree jumps = .ok (e.2, jumps) := by
    intro e he
    have hle : e.2.toJson.depth ≤ Value.memberDepth (m.entries.map fun e => (e.1, e.2.toJson)) :=
      depth_le_memberDepth (m := (e.1, e.2.toJson)) (List.mem_map_of_mem he)
    exact readsBack_literal (inner + 1) e.2 inner (Nat.lt_succ_self inner) (by omega) graph jumps
  rw [args, bind_of_ok (follow_tree graph _ jumps), ArgMap.toJson, Value.tree, memberTrees_eq]
  show (entries graph (literal graph inner) _ >>= fun read => pure (ArgMap.ofList read)) jumps = _
  rw [bind_of_ok (entries_map hentries), ArgMap.ofList_entries]
  rfl

end Collections

/-! ## Records -/

section Records

variable {αs : List Type} {graph : Graph} {depth bound : Nat}

/-- The member with the given name fills one more slot, if its value is not nested too deeply. -/
def Fills (graph : Graph) (depth : Nat) (fields : Fields Decoder αs) (m : String × Value)
    (slots slots' : Slots αs) :
    Prop :=
  m.2.depth ≤ depth →
    ∀ jumps, member graph depth m.1 m.2.tree fields slots jumps = .ok (slots', jumps)

lemma fills_here {field : RecordField Decoder α} {fields : Fields Decoder αs} {v : Value} {a : α}
    (hdepth : depth < bound) (h : ReadsBack bound field.read v a) (slots : Slots αs) :
    Fills graph depth (.cons field fields) (field.name, v) (none, slots) (some a, slots) := by
  intro hfits jumps
  have hmember : member graph depth field.name v.tree (.cons field fields) (none, slots) =
      field.read graph depth v.tree >>= fun value => pure (some value, slots) := by
    rw [member]
    exact (if_pos rfl).trans (if_neg Bool.false_ne_true)
  rw [hmember, bind_of_ok (h depth hdepth hfits graph jumps)]
  rfl

lemma Fills.later {field : RecordField Decoder α} {fields : Fields Decoder αs} {m : String × Value}
    {slots slots' : Slots αs} (h : Fills graph depth fields m slots slots')
    (hname : m.1 ≠ field.name) (slot : Option α) :
    Fills graph depth (.cons field fields) m (slot, slots) (slot, slots') := by
  intro hfits jumps
  have hmember : member graph depth m.1 m.2.tree (.cons field fields) (slot, slots) =
      member graph depth m.1 m.2.tree fields slots >>= fun slots => pure (slot, slots) := by
    rw [member]
    exact if_neg hname.symm
  rw [hmember, bind_of_ok (h hfits jumps)]
  rfl

lemma fillsByName (graph : Graph) (hdepth : depth < bound) :
    FillsByName (ReadsBack bound) fun fields m slots slots' =>
      Fills graph depth fields m slots slots' where
  here h slots := fills_here hdepth h slots
  later h hname slot := h.later hname slot

lemma members_map {fields : Fields Decoder αs} {ms : List (String × Value)}
    {slots slots' : Slots αs} (h : FillsAll (Fills graph depth fields) ms slots slots')
    (hfits : Value.memberDepth ms ≤ depth) (jumps : Nat) :
    members graph depth fields (ms.map memberTree) slots jumps = .ok (slots', jumps) := by
  induction h with
  | nil slots => rfl
  | @cons m more slots slots' slots'' first later ih =>
    have hkey : string graph 0 (.scalar {} .quoted m.1) jumps = .ok (m.1, jumps) := rfl
    rw [Value.memberDepth, Nat.max_le] at hfits
    rw [List.map_cons, memberTree, members, bind_of_ok hkey, bind_of_ok (first hfits.1 jumps),
      ih hfits.2]

/-- A record is read back when its members are. -/
lemma readsBack_record {fields : Fields Decoder αs} {ms : List (String × Value)} {row : Row αs}
    (name : String) (h : fields.Describes (ReadsBack bound) ms row) :
    ReadsBack (bound + 1) (record name fields) (.object ms) row := by
  intro depth hdepth hfits graph jumps
  rw [Value.depth] at hfits
  obtain ⟨inner, rfl⟩ := Nat.exists_eq_succ_of_ne_zero (Nat.ne_of_gt (Nat.zero_lt_of_lt hfits))
  have hfills := h.fillsAll (fillsByName graph (Nat.lt_of_succ_lt_succ hdepth))
  have hmembers := members_map hfills (Nat.le_of_succ_le_succ hfits) jumps
  have hclose : closeSlots fields (filled row) jumps = .ok (row, jumps) := by
    rw [closeSlots, close_filled]
    rfl
  rw [record, bind_of_ok (follow_tree graph _ jumps), Value.tree, memberTrees_eq]
  show (members graph inner fields _ _ >>= closeSlots fields) jumps = _
  rw [bind_of_ok hmembers, hclose]

end Records

/-! ## Choices -/

section Choices

variable {bound : Nat} {cases : List (String × Case Decoder α)} {name : String} {a : α}

lemma findCase_of_lookup {case : Case Decoder α} (h : cases.lookup name = some case) (jumps : Nat) :
    findCase cases name jumps = .ok (case, jumps) := by
  rw [findCase, h]
  rfl

lemma readsBack_choice {decoder : Decoder α} {v : Value}
    (hcase : cases.lookup name = some (.value decoder) ∨ cases.lookup name = some (.body decoder))
    (h : ReadsBack bound decoder v a) :
    ReadsBack (bound + 1) (choice cases) (.object [(name, v)]) a := by
  intro depth hdepth hfits graph jumps
  rw [Value.depth, Value.memberDepth, Value.memberDepth, Nat.max_zero] at hfits
  obtain ⟨inner, rfl⟩ := Nat.exists_eq_succ_of_ne_zero (Nat.ne_of_gt (Nat.zero_lt_of_lt hfits))
  have hread := h inner (Nat.lt_of_succ_lt_succ hdepth) (Nat.le_of_succ_le_succ hfits) graph jumps
  have hkey : string graph 0 (.scalar {} .quoted name) jumps = .ok (name, jumps) := rfl
  have henter : enter (inner + 1) jumps = .ok (inner, jumps) := rfl
  rw [choice, bind_of_ok (follow_tree graph _ jumps), Value.tree, memberTrees_eq,
    List.map_singleton, memberTree]
  have hlocal : isLocalTag {} = false := rfl
  simp only [hlocal, Bool.false_eq_true, if_false]
  rw [bind_of_ok henter, bind_of_ok hkey]
  rcases hcase with hcase | hcase
  · rw [bind_of_ok (findCase_of_lookup hcase jumps)]
    exact hread
  · rw [bind_of_ok (findCase_of_lookup hcase jumps)]
    exact hread

/-- A choice without data is read back from its bare name. -/
lemma readsBack_bareChoice (hcase : cases.lookup name = some (.bare a)) (bound : Nat) :
    ReadsBack bound (choice cases) (.string name) a := by
  intro depth _ _ graph jumps
  have htext : (liftM (scalarValue {} .quoted name) : Decode PlainValue) jumps =
      .ok (.text, jumps) := rfl
  rw [choice, bind_of_ok (follow_tree graph _ jumps), Value.tree]
  dsimp only
  rw [bind_of_ok htext]
  dsimp only
  rw [bind_of_ok (findCase_of_lookup hcase jumps)]
  rfl

end Choices

/-! ## Recursive shapes -/

lemma readsBack_recursive {shape : Decoder α → Decoder α} (encode : α → Value)
    (hshape : ∀ (bound : Nat) (decoder : Decoder α), (∀ a, ReadsBack bound decoder (encode a) a) →
      ∀ a, ReadsBack (bound + 1) (shape decoder) (encode a) a) (bound : Nat) (a : α) :
    ReadsBack bound (recursive shape) (encode a) a := by
  have hunroll (levels : Nat) : ∀ a, ReadsBack levels (unroll shape levels) (encode a) a := by
    induction levels with
    | zero => exact fun a depth hdepth => absurd hdepth (Nat.not_lt_zero depth)
    | succ levels ih => exact hshape levels _ ih
  intro depth _
  exact hunroll (depth + 1) a depth (Nat.lt_succ_self depth)

lemma readingLaws : ReadingLaws Decoder ReadsBack where
  mono := ReadsBack.mono
  map := readsBack_map
  string := readsBack_string
  bool := readsBack_bool
  int32 := readsBack_int32
  args := readsBack_args
  nullable_none := readsBack_nullable_none
  nullable_some := readsBack_nullable_some
  list := readsBack_list
  record := readsBack_record
  choice := readsBack_choice
  bareChoice := readsBack_bareChoice
  recursive := readsBack_recursive

/-! ## Documents -/

/-- An object is read back from its text if it does not nest too deeply. -/
lemma read_text {decoder : Decoder α} {members : List (String × Value)} {a : α}
    (hscans : (Value.object members).Scannable)
    (h : ReadsBack (nestingLimit + 1) decoder (.object members) a)
    (hfits : (Value.object members).depth ≤ nestingLimit) :
    read decoder (Value.object members).text = .ok a := by
  obtain ⟨graph, hgraph, hroot⟩ := ofNode_tree (.object members)
  have hread := h nestingLimit (Nat.lt_succ_self _) hfits graph 0
  rw [read, ofText_object hscans]
  simp only [bind, Except.bind, document_object, Option.getD_some, hgraph, hroot, StateT.run, hread]
  rfl

end ResourceStubs.Yaml
