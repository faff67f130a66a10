import ResourceStubs.Proofs.Json.Numerals
import ResourceStubs.Proofs.ReadingLaws

/-!
# Reading back values with parts

A reader is compared with the text of one value (`Json.Recovers`): it gives the value back when the
value is nested at most as deeply as the reader may go, and it reports the nesting otherwise. The
second half matters as much as the first. A value that is too deep is refused where it opens one
bracket too many, after everything in front of that bracket was read without a problem, so no other
problem can come first.

Readers of recursive shapes are built from readers that may go less deep. `Json.ReadsBack` keeps
count of this: it speaks about all depths below a bound, and every list, record and choice around a
reader raises the bound by one (`Json.readsBack_list`, `Json.readsBack_record`,
`Json.readsBack_choice`). For a recursive shape the bound grows with the number of unrolled levels
(`Json.readsBack_recursive`), which replaces an induction over values.
-/

namespace ResourceStubs.Json

variable {α β : Type}

/-- The step gives back the value whose text is next, or reports that it is nested too deeply. -/
def Recovers (step : Read α) (depth : Nat) (v : Value) (a : α) : Prop :=
  ∀ rest, Ends rest → step (v.chars ++ rest) =
    if v.depth ≤ depth then .ok (a, rest) else .error .recursionLimit

/-- The reader recovers the value at every depth below the bound. -/
def ReadsBack (bound : Nat) (reader : Reader α) (v : Value) (a : α) : Prop :=
  ∀ depth < bound, Recovers (reader depth) depth v a

lemma ReadsBack.mono {bound bound' : Nat} {reader : Reader α} {v : Value} {a : α}
    (hle : bound ≤ bound') (h : ReadsBack bound' reader v a) : ReadsBack bound reader v a :=
  fun depth hdepth => h depth (Nat.lt_of_lt_of_le hdepth hle)

/-! ## Texts of lists and objects -/

/-- The text of a member. -/
def memberText (m : String × Value) : List Char :=
  stringChars m.1 ++ ':' :: m.2.chars

lemma itemChars_cons (v : Value) (more : List Value) :
    Value.itemChars (v :: more) = v.chars ++ more.flatMap fun w => ',' :: w.chars := by
  induction more generalizing v with
  | nil => simp [Value.itemChars]
  | cons w more ih => simp [Value.itemChars, ih]

lemma memberChars_cons (m : String × Value) (more : List (String × Value)) :
    Value.memberChars (m :: more) = memberText m ++ more.flatMap fun n => ',' :: memberText n := by
  induction more generalizing m with
  | nil => simp [Value.memberChars, memberText]
  | cons n more ih =>
    have hstep : Value.memberChars (m :: n :: more) =
        memberText m ++ ',' :: Value.memberChars (n :: more) := by
      simp [Value.memberChars, memberText]
    rw [hstep, ih, List.flatMap_cons, List.cons_append]

/-- How the text of a value starts. Only null starts with its letter. -/
lemma exists_chars_eq_cons (v : Value) :
    ∃ c s, v.chars = c :: s ∧ isSpace c = false ∧ c ≠ ']' ∧ (c = 'n' → v = .null) := by
  cases v with
  | null => exact ⟨'n', _, by rw [Value.chars]; rfl, by decide, by decide, fun _ => rfl⟩
  | bool b =>
    cases b with
    | true =>
      exact ⟨'t', _, by rw [Value.chars]; rfl, by decide, by decide, fun h => absurd h (by decide)⟩
    | false =>
      exact ⟨'f', _, by rw [Value.chars]; rfl, by decide, by decide, fun h => absurd h (by decide)⟩
  | int n =>
    obtain ⟨c, digits, hchars, hc⟩ := exists_intChars_eq_cons n
    refine ⟨c, digits, by rw [Value.chars, hchars], isSpace_of_startsNumber hc, ?_, ?_⟩
    · exact ne_of_startsNumber hc (by decide)
    · exact fun hn => absurd hn (ne_of_startsNumber hc (by decide))
  | string s =>
    exact ⟨'"', _, by rw [Value.chars, stringChars]; rfl, by decide, by decide,
      fun h => absurd h (by decide)⟩
  | array items =>
    exact ⟨'[', _, by rw [Value.chars]; rfl, by decide, by decide, fun h => absurd h (by decide)⟩
  | object members =>
    exact ⟨'{', _, by rw [Value.chars]; rfl, by decide, by decide, fun h => absurd h (by decide)⟩

lemma hasElement_chars (v : Value) (s : List Char) :
    hasElement true (v.chars ++ s) = .ok (true, v.chars ++ s) := by
  obtain ⟨c, more, hchars, hspace, hc, -⟩ := exists_chars_eq_cons v
  rw [hchars, List.cons_append, hasElement_first hspace hc]

lemma hasElement_comma_chars (v : Value) (s : List Char) :
    hasElement false (',' :: (v.chars ++ s)) = .ok (true, v.chars ++ s) := by
  obtain ⟨c, more, hchars, hspace, hc, -⟩ := exists_chars_eq_cons v
  rw [hchars, List.cons_append, hasElement_comma hspace hc]

lemma hasKey_memberText (m : String × Value) (s : List Char) :
    hasKey true (memberText m ++ s) = .ok (true, memberText m ++ s) := rfl

lemma hasKey_comma_memberText (m : String × Value) (s : List Char) :
    hasKey false (',' :: (memberText m ++ s)) = .ok (true, memberText m ++ s) := rfl

lemma length_le_itemChars (items : List Value) : items.length ≤ (Value.itemChars items).length := by
  induction items with
  | nil => exact Nat.zero_le _
  | cons v more ih =>
    obtain ⟨c, s, hchars, -⟩ := exists_chars_eq_cons v
    cases more with
    | nil => simp [Value.itemChars, hchars]
    | cons w more =>
      simp only [Value.itemChars, hchars, List.length_append, List.length_cons] at ih ⊢
      omega

lemma length_le_memberChars (members : List (String × Value)) :
    members.length ≤ (Value.memberChars members).length := by
  induction members with
  | nil => exact Nat.zero_le _
  | cons m more ih =>
    cases more with
    | nil => simp [Value.memberChars, stringChars]
    | cons n more =>
      simp only [Value.memberChars, stringChars, List.length_append, List.length_cons] at ih ⊢
      omega

lemma ends_more {γ : Type} (f : γ → List Char) (as : List γ) {s : List Char} (h : Ends s) :
    Ends ((as.flatMap fun a => ',' :: f a) ++ s) := by
  cases as with
  | nil => exact h
  | cons a as => exact ends_comma _

/-! ## Lists -/

section Lists

variable {item : Read α} {depth : Nat} {encode : α → Value}

/-- One element and the elements behind it. -/
lemma elements_cons {a : α} {as : List α} {first : Bool} {steps : Nat} {s tail rest : List Char}
    {q : Prop} [Decidable q] (helement : hasElement first s = .ok (true, (encode a).chars ++ tail))
    (hitem : Recovers item depth (encode a) a) (htail : Ends tail)
    (hmore : elements item steps false tail =
      if q then .ok (as, rest) else .error .recursionLimit) :
    elements item (steps + 1) first s =
      if (encode a).depth ≤ depth ∧ q then .ok (a :: as, rest) else .error .recursionLimit := by
  rw [elements, bind_of_ok helement, if_pos rfl, bind_of_ite (hitem tail htail), bind_of_ite hmore,
    ite_and, pure_run]

/-- The elements behind the first one, each behind a comma. -/
lemma elements_more {as : List α} (h : ∀ a ∈ as, Recovers item depth (encode a) a) {steps : Nat}
    (hsteps : as.length < steps) (rest : List Char) :
    elements item steps false ((as.flatMap fun a => ',' :: (encode a).chars) ++ ']' :: rest) =
      if Value.itemDepth (as.map encode) ≤ depth then .ok (as, ']' :: rest)
      else .error .recursionLimit := by
  induction as generalizing steps with
  | nil =>
    obtain ⟨steps, rfl⟩ := Nat.exists_eq_succ_of_ne_zero (Nat.ne_of_gt hsteps)
    rfl
  | cons a as ih =>
    cases steps with
    | zero => cases hsteps
    | succ steps =>
      have hmore := ih (fun b hb => h b (List.mem_cons_of_mem a hb)) (Nat.lt_of_succ_lt_succ hsteps)
      have htail := ends_more (fun b => (encode b).chars) as (ends_bracket rest)
      rw [List.flatMap_cons, List.cons_append, List.cons_append, List.append_assoc,
        elements_cons (hasElement_comma_chars _ _) (h a List.mem_cons_self) htail hmore]
      simp only [List.map_cons, Value.itemDepth, Nat.max_le]

/-- The elements of a list and its closing bracket. -/
lemma allElements_itemChars {as : List α} (h : ∀ a ∈ as, Recovers item depth (encode a) a)
    (rest : List Char) :
    allElements item (Value.itemChars (as.map encode) ++ ']' :: rest) =
      if Value.itemDepth (as.map encode) ≤ depth then .ok (as, rest)
      else .error .recursionLimit := by
  have hget (s : List Char) : (get : Read (List Char)) s = .ok (s, s) := rfl
  have hlength : as.length ≤ (Value.itemChars (as.map encode) ++ ']' :: rest).length := by
    have hle := length_le_itemChars (as.map encode)
    rw [List.length_map] at hle
    rw [List.length_append]
    omega
  have helements : elements item ((Value.itemChars (as.map encode) ++ ']' :: rest).length + 1) true
      (Value.itemChars (as.map encode) ++ ']' :: rest) =
        if Value.itemDepth (as.map encode) ≤ depth then .ok (as, ']' :: rest)
        else .error .recursionLimit := by
    generalize (Value.itemChars (as.map encode) ++ ']' :: rest).length = steps at hlength
    cases as with
    | nil => rfl
    | cons a as =>
      have hmore := elements_more (fun b hb => h b (List.mem_cons_of_mem a hb))
        (Nat.lt_of_succ_le hlength) rest
      have htail := ends_more (fun b => (encode b).chars) as (ends_bracket rest)
      rw [List.map_cons, itemChars_cons, List.flatMap_map, List.append_assoc,
        elements_cons (hasElement_chars _ _) (h a List.mem_cons_self) htail hmore]
      simp only [Value.itemDepth, Nat.max_le]
  rw [allElements, bind_of_ok (hget _), bind_of_ite helements, bind_of_ok (closeList_bracket rest),
    pure_run]

lemma list_zero (reader : Reader α) (s : List Char) :
    list reader 0 ('[' :: s) = .error .recursionLimit := rfl

lemma list_succ (reader : Reader α) (inner : Nat) (s : List Char) :
    list reader (inner + 1) ('[' :: s) = allElements (reader inner) s := rfl

lemma readsBack_list {bound : Nat} {reader : Reader α} {as : List α}
    (h : ∀ a ∈ as, ReadsBack bound reader (encode a) a) :
    ReadsBack (bound + 1) (list reader) (.array (as.map encode)) as := by
  intro depth hdepth rest hrest
  rw [chars_array_append, Value.depth]
  cases depth with
  | zero => exact list_zero reader _
  | succ inner =>
    have hitems (a : α) (ha : a ∈ as) : Recovers (reader inner) inner (encode a) a :=
      h a ha inner (Nat.lt_of_succ_lt_succ hdepth)
    rw [list_succ, allElements_itemChars hitems]
    simp only [Nat.add_le_add_iff_right]

end Lists

/-! ## Maps -/

section Maps

variable {item : Read α} {depth : Nat} {encode : α → Value}

/-- One member of a map and the members behind it. -/
lemma entries_cons {key : String} {a : α} {as : List (String × α)} {first : Bool} {steps : Nat}
    {s tail rest : List Char} {q : Prop} [Decidable q]
    (hkey : hasKey first s = .ok (true, memberText (key, encode a) ++ tail))
    (hitem : Recovers item depth (encode a) a) (htail : Ends tail)
    (hmore : entries item steps false tail = if q then .ok (as, rest) else .error .recursionLimit) :
    entries item (steps + 1) first s =
      if (encode a).depth ≤ depth ∧ q then .ok ((key, a) :: as, rest)
      else .error .recursionLimit := by
  rw [entries, bind_of_ok hkey, if_pos rfl, memberText, List.append_assoc,
    bind_of_ok (quotedString_stringChars key _), List.cons_append, bind_of_ok (colon_colon _),
    bind_of_ite (hitem tail htail), bind_of_ite hmore, ite_and, pure_run]

lemma entries_more {as : List (String × α)} (h : ∀ e ∈ as, Recovers item depth (encode e.2) e.2)
    {steps : Nat} (hsteps : as.length < steps) (rest : List Char) :
    entries item steps false
      ((as.flatMap fun e => ',' :: memberText (e.1, encode e.2)) ++ '}' :: rest) =
      if Value.memberDepth (as.map fun e => (e.1, encode e.2)) ≤ depth then .ok (as, '}' :: rest)
      else .error .recursionLimit := by
  induction as generalizing steps with
  | nil =>
    obtain ⟨steps, rfl⟩ := Nat.exists_eq_succ_of_ne_zero (Nat.ne_of_gt hsteps)
    rfl
  | cons e as ih =>
    cases steps with
    | zero => cases hsteps
    | succ steps =>
      have hmore := ih (fun b hb => h b (List.mem_cons_of_mem e hb)) (Nat.lt_of_succ_lt_succ hsteps)
      have htail := ends_more (fun b => memberText (b.1, encode b.2)) as (ends_brace rest)
      rw [List.flatMap_cons, List.cons_append, List.cons_append, List.append_assoc,
        entries_cons (hasKey_comma_memberText _ _) (h e List.mem_cons_self) htail hmore]
      simp only [List.map_cons, Value.memberDepth, Nat.max_le]

/-- The members of a map and its closing brace. -/
lemma allEntries_memberChars {as : List (String × α)}
    (h : ∀ e ∈ as, Recovers item depth (encode e.2) e.2) (rest : List Char) :
    allEntries item (Value.memberChars (as.map fun e => (e.1, encode e.2)) ++ '}' :: rest) =
      if Value.memberDepth (as.map fun e => (e.1, encode e.2)) ≤ depth then .ok (as, rest)
      else .error .recursionLimit := by
  have hget (s : List Char) : (get : Read (List Char)) s = .ok (s, s) := rfl
  have hlength : as.length ≤
      (Value.memberChars (as.map fun e => (e.1, encode e.2)) ++ '}' :: rest).length := by
    have hle := length_le_memberChars (as.map fun e => (e.1, encode e.2))
    rw [List.length_map] at hle
    rw [List.length_append]
    omega
  have hentries : entries item
      ((Value.memberChars (as.map fun e => (e.1, encode e.2)) ++ '}' :: rest).length + 1) true
      (Value.memberChars (as.map fun e => (e.1, encode e.2)) ++ '}' :: rest) =
        if Value.memberDepth (as.map fun e => (e.1, encode e.2)) ≤ depth then .ok (as, '}' :: rest)
        else .error .recursionLimit := by
    generalize (Value.memberChars (as.map fun e => (e.1, encode e.2)) ++ '}' :: rest).length =
      steps at hlength
    cases as with
    | nil => rfl
    | cons e as =>
      have hmore :=
        entries_more (fun b hb => h b (List.mem_cons_of_mem e hb)) (Nat.lt_of_succ_le hlength) rest
      have htail := ends_more (fun b => memberText (b.1, encode b.2)) as (ends_brace rest)
      rw [List.map_cons, memberChars_cons, List.flatMap_map, List.append_assoc,
        entries_cons (hasKey_memberText _ _) (h e List.mem_cons_self) htail hmore]
      simp only [Value.memberDepth, Nat.max_le]
  rw [allEntries, bind_of_ok (hget _), bind_of_ite hentries, bind_of_ok (skipOne_cons '}' rest),
    pure_run]

end Maps

/-! ## Records -/

section Records

variable {depth : Nat}

lemma member_here {αs : List Type} (field : RecordField Reader α) (fields : Fields Reader αs)
    (slots : Slots αs) :
    member depth field.name (.cons field fields) (none, slots) =
      colon >>= fun _ => field.read depth >>= fun value => pure (some value, slots) := by
  rw [member]
  exact (if_pos rfl).trans (if_neg Bool.false_ne_true)

lemma member_later {αs : List Type} {field : RecordField Reader α} {name : String}
    (hname : field.name ≠ name) (fields : Fields Reader αs) (slot : Option α) (slots : Slots αs) :
    member depth name (.cons field fields) (slot, slots) =
      member depth name fields slots >>= fun slots => pure (slot, slots) := by
  rw [member]
  exact if_neg hname

/-- The member with the given key fills one more slot. -/
def Fills {αs : List Type} (depth : Nat) (fields : Fields Reader αs) (m : String × Value)
    (slots slots' : Slots αs) :
    Prop :=
  ∀ rest, Ends rest → member depth m.1 fields slots (':' :: (m.2.chars ++ rest)) =
    if m.2.depth ≤ depth then .ok (slots', rest) else .error .recursionLimit

lemma fills_here {αs : List Type} {field : RecordField Reader α} {fields : Fields Reader αs}
    {v : Value} {a : α} (h : Recovers (field.read depth) depth v a) (slots : Slots αs) :
    Fills depth (.cons field fields) (field.name, v) (none, slots) (some a, slots) := by
  intro rest hrest
  rw [member_here, bind_of_ok (colon_colon _), bind_of_ite (h rest hrest)]
  rfl

lemma Fills.later {αs : List Type} {field : RecordField Reader α} {fields : Fields Reader αs}
    {m : String × Value} {slots slots' : Slots αs} (h : Fills depth fields m slots slots')
    (hname : m.1 ≠ field.name) (slot : Option α) :
    Fills depth (.cons field fields) m (slot, slots) (slot, slots') := by
  intro rest hrest
  rw [member_later hname.symm, bind_of_ite (h rest hrest)]
  rfl

lemma fillsByName {bound : Nat} (hdepth : depth < bound) :
    FillsByName (ReadsBack bound) fun fields m slots slots' =>
      Fills depth fields m slots slots' where
  here h slots := fills_here (h depth hdepth) slots
  later h hname slot := h.later hname slot

/-- Reads the members that fill slots, up to the closing brace. -/
lemma members_more {αs : List Type} {fields : Fields Reader αs} {ms : List (String × Value)}
    {slots slots' : Slots αs} (h : FillsAll (Fills depth fields) ms slots slots') {steps : Nat}
    (hsteps : ms.length < steps) (rest : List Char) :
    members fields depth steps false slots
      ((ms.flatMap fun m => ',' :: memberText m) ++ '}' :: rest) =
      if Value.memberDepth ms ≤ depth then .ok (slots', '}' :: rest)
      else .error .recursionLimit := by
  induction h generalizing steps with
  | nil slots =>
    obtain ⟨steps, rfl⟩ := Nat.exists_eq_succ_of_ne_zero (Nat.ne_of_gt hsteps)
    rfl
  | @cons m more slots slots' slots'' first later ih =>
    cases steps with
    | zero => cases hsteps
    | succ steps =>
      have htail := ends_more memberText more (ends_brace rest)
      have hmore := ih (Nat.lt_of_succ_lt_succ hsteps)
      rw [List.flatMap_cons, List.cons_append, List.cons_append, List.append_assoc, members,
        bind_of_ok (hasKey_comma_memberText m _), if_pos rfl, memberText, List.append_assoc,
        bind_of_ok (quotedString_stringChars m.1 _), List.cons_append, bind_of_ite (first _ htail),
        hmore, ← ite_and]
      simp only [Value.memberDepth, Nat.max_le]

lemma members_memberChars {αs : List Type} {fields : Fields Reader αs} {ms : List (String × Value)}
    {slots slots' : Slots αs} (h : FillsAll (Fills depth fields) ms slots slots') {steps : Nat}
    (hsteps : ms.length ≤ steps) (rest : List Char) :
    members fields depth (steps + 1) true slots (Value.memberChars ms ++ '}' :: rest) =
      if Value.memberDepth ms ≤ depth then .ok (slots', '}' :: rest)
      else .error .recursionLimit := by
  cases h with
  | nil slots => rfl
  | @cons m more _ slots' _ first later =>
    have htail := ends_more memberText more (ends_brace rest)
    have hmore := members_more later (Nat.lt_of_succ_le hsteps) rest
    rw [memberChars_cons, List.append_assoc, members, bind_of_ok (hasKey_memberText m _),
      if_pos rfl, memberText, List.append_assoc, bind_of_ok (quotedString_stringChars m.1 _),
      List.cons_append, bind_of_ite (first _ htail), hmore, ← ite_and]
    simp only [Value.memberDepth, Nat.max_le]

lemma record_zero {αs : List Type} (name : String) (fields : Fields Reader αs) (s : List Char) :
    record name fields 0 ('{' :: s) = .error .recursionLimit := rfl

lemma record_succ {αs : List Type} (name : String) (fields : Fields Reader αs) (inner : Nat)
    (s : List Char) :
    record name fields (inner + 1) ('{' :: s) =
      (members fields inner (s.length + 1) true (Slots.empty αs) >>= fun slots =>
        match fields.close slots with
        | .ok values => skipOne >>= fun _ => pure values
        | .error missing => throw (.missingField missing)) s := rfl

/-- A record is read back when its members are. -/
lemma readsBack_record {αs : List Type} {bound : Nat} {fields : Fields Reader αs}
    {ms : List (String × Value)} {row : Row αs} (name : String)
    (h : fields.Describes (ReadsBack bound) ms row) :
    ReadsBack (bound + 1) (record name fields) (.object ms) row := by
  intro depth hdepth rest hrest
  rw [chars_object_append, Value.depth]
  cases depth with
  | zero => exact record_zero name fields _
  | succ inner =>
    have hlength : ms.length ≤ (Value.memberChars ms ++ '}' :: rest).length := by
      have hle := length_le_memberChars ms
      rw [List.length_append]
      omega
    have hfills := h.fillsAll (fillsByName (Nat.lt_of_succ_lt_succ hdepth))
    rw [record_succ, bind_of_ite (members_memberChars hfills hlength rest), close_filled]
    dsimp only
    rw [bind_of_ok (skipOne_cons '}' rest), pure_run]
    simp only [Nat.add_le_add_iff_right]

end Records

/-! ## Choices -/

section Choices

variable {cases : List (String × Case Reader α)} {name : String} {a : α}

lemma choice_zero (cases : List (String × Case Reader α)) (s : List Char) :
    choice cases 0 ('{' :: s) = .error .recursionLimit := rfl

lemma choice_succ (cases : List (String × Case Reader α)) (inner : Nat) (s : List Char) :
    choice cases (inner + 1) ('{' :: s) =
      (caseName >>= fun name => findCase cases name >>= fun case => colon >>= fun _ =>
        caseData case inner >>= fun value => peek >>= fun next =>
          match next with
          | some '}' => skipOne >>= fun _ => pure value
          | some _ => throw .expectedValue
          | none => throw .endInObject) s := rfl

lemma caseName_stringChars (name : String) (s : List Char) :
    caseName (stringChars name ++ s) = .ok (name, s) :=
  quotedString_stringChars name s

lemma findCase_of_lookup {case : Case Reader α} (h : cases.lookup name = some case)
    (s : List Char) :
    findCase cases name s = .ok (case, s) := by
  rw [findCase, h]
  rfl

/-- A choice with data is read back when its data is. -/
lemma readsBack_choice {bound : Nat} {case : Case Reader α} {v : Value}
    (hcase : cases.lookup name = some case) (h : ReadsBack bound (caseData case) v a) :
    ReadsBack (bound + 1) (choice cases) (.object [(name, v)]) a := by
  intro depth hdepth rest hrest
  rw [chars_object_append, Value.depth]
  cases depth with
  | zero => exact choice_zero _ _
  | succ inner =>
    have hdata := h inner (Nat.lt_of_succ_lt_succ hdepth) ('}' :: rest) (ends_brace rest)
    have hdepth : Value.memberDepth [(name, v)] = v.depth := by simp [Value.memberDepth]
    have htext : Value.memberChars [(name, v)] ++ '}' :: rest =
        stringChars name ++ ':' :: (v.chars ++ '}' :: rest) := by
      simp [Value.memberChars]
    rw [choice_succ, htext, bind_of_ok (caseName_stringChars name _),
      bind_of_ok (findCase_of_lookup hcase _), bind_of_ok (colon_colon _), bind_of_ite hdata,
      hdepth]
    simp only [Nat.add_le_add_iff_right]
    rfl

/-- A choice without data is read back from its bare name. -/
lemma readsBack_bareChoice (hcase : cases.lookup name = some (.bare a)) (bound : Nat) :
    ReadsBack bound (choice cases) (.string name) a := by
  intro depth _ rest _
  have hchoice (s : List Char) : choice cases depth (stringChars name ++ s) =
      (quotedString >>= fun name => findCase cases name >>= fun case => bareCase case)
        (stringChars name ++ s) := rfl
  rw [Value.chars, hchoice, bind_of_ok (quotedString_stringChars name rest),
    bind_of_ok (findCase_of_lookup hcase rest)]
  rfl

end Choices

/-! ## Values without parts -/

lemma readsBack_map {bound : Nat} {reader : Reader α} {v : Value} {a : α} (f : α → β)
    (h : ReadsBack bound reader v a) : ReadsBack bound (Format.map f reader) v (f a) := by
  intro depth hdepth rest hrest
  exact map_of_ite f (h depth hdepth rest hrest)

lemma readsBack_string (bound : Nat) (s : String) : ReadsBack bound string (.string s) s := by
  intro depth _ rest _
  rw [Value.chars]
  exact quotedString_stringChars s rest

lemma readsBack_bool (bound : Nat) (b : Bool) : ReadsBack bound bool (.bool b) b := by
  intro depth _ rest _
  cases b <;> rw [Value.chars] <;> rfl

lemma readsBack_nullable_none (bound : Nat) (reader : Reader α) :
    ReadsBack bound (nullable reader) .null none := by
  intro depth _ rest _
  rw [Value.chars]
  rfl

lemma readsBack_nullable_some {bound : Nat} {reader : Reader α} {v : Value} {a : α} (hv : v ≠ .null)
    (h : ReadsBack bound reader v a) : ReadsBack bound (nullable reader) v (some a) := by
  intro depth hdepth rest hrest
  have hread := map_of_ite some (h depth hdepth rest hrest)
  obtain ⟨c, s, hchars, hspace, -, hnull⟩ := exists_chars_eq_cons v
  rw [hchars, List.cons_append] at hread ⊢
  have hn : c ≠ 'n' := fun hc => hv (hnull hc)
  have helse (s : List Char) : nullable reader depth (c :: s) =
      (some <$> reader depth) (c :: s) := by
    rw [nullable, bind_of_ok (peek_cons hspace _)]
    simp [hn]
  rw [helse, hread]

lemma readsBack_int32 (bound : Nat) (n : Int32) : ReadsBack bound int32 (.int n.toInt) n := by
  intro depth _ rest hrest
  have hrange : -Int.pow 2 31 ≤ n.toInt ∧ n.toInt < Int.pow 2 31 :=
    ⟨Int32.le_toInt n, Int32.toInt_lt n⟩
  have hread := number_intChars n.toInt64 hrest.follows
  rw [Int32.toInt_toInt64] at hread
  obtain ⟨c, digits, hchars, hc⟩ := exists_intChars_eq_cons n.toInt
  rw [hchars, List.cons_append] at hread
  rw [Value.chars, hchars, List.cons_append, int32,
    bind_of_ok (peek_cons (isSpace_of_startsNumber hc) _)]
  dsimp only
  rw [if_pos hc, bind_of_ok hread]
  dsimp only
  rw [if_pos hrange, Int32.ofInt_toInt]
  rfl

/-! ## Recursive shapes -/

/-- A recursive shape is read back when each level is, given that the next one is for one bracket
less. -/
lemma readsBack_recursive {shape : Reader α → Reader α} (encode : α → Value)
    (hshape : ∀ (bound : Nat) (reader : Reader α), (∀ a, ReadsBack bound reader (encode a) a) →
      ∀ a, ReadsBack (bound + 1) (shape reader) (encode a) a) (bound : Nat) (a : α) :
    ReadsBack bound (recursive shape) (encode a) a := by
  have hunroll (levels : Nat) : ∀ a, ReadsBack levels (unroll shape levels) (encode a) a := by
    induction levels with
    | zero => exact fun a depth hdepth => absurd hdepth (Nat.not_lt_zero depth)
    | succ levels ih => exact hshape levels _ ih
  intro depth _
  exact hunroll (depth + 1) a depth (Nat.lt_succ_self depth)

/-! ## Documents -/

/-- A whole document is read back when it does not nest too deeply, and it is refused for its
nesting otherwise. -/
lemma read_text {reader : Reader α} {v : Value} {a : α}
    (h : ReadsBack (nestingLimit + 1) reader v a) :
    read reader v.text = if v.depth ≤ nestingLimit then .ok a else .error .recursionLimit := by
  have hvalue := h nestingLimit (Nat.lt_succ_self _) [] ends_nil
  rw [List.append_nil] at hvalue
  rw [read, Value.text, String.toList_ofList, hvalue]
  split <;> rfl

end ResourceStubs.Json
