import ResourceStubs.Proofs.Json.Stability

/-!
# Objects that do not notice edits

The arguments of an annotation, and choices between named cases.

Arguments are kept in the order of their names, so rearranging them makes no difference as long as
no name is given twice (`ArgMap.ofList_perm`). A choice is written as the name of a case or as an
object with one member, whose value is the data of the case. The data has places for edits of its
own (`Json.CasesStable`).
-/

namespace ResourceStubs

namespace Json

variable {α : Type} {k : Kind} {bound : Nat} {t t' : Tree}

section Arguments

variable {step : Read α} {members : List (List Part × Tree)} {es : List (String × α)}

/-- Entries that were read were seen one by one. -/
lemma forall₂_seen_of_entries (hstops : StopsBehind step) {steps : Nat} {first : Bool}
    {s s' rest : List Char} (hs : Tree.MembersAs first members s)
    (h : entries step steps first (s ++ '}' :: rest) = .ok (es, s')) :
    List.Forall₂ (fun m e => keyText m.1 = some e.1 ∧ Seen step m.2 e.2) members es ∧
      s' = '}' :: rest := by
  induction members generalizing steps first s es with
  | nil =>
    cases steps with
    | zero => cases h
    | succ steps =>
      rw [entries, bind_of_ok (hasKey_end first hs rest)] at h
      cases h
      exact ⟨.nil, rfl⟩
  | cons m members ih =>
    cases steps with
    | zero => cases h
    | succ steps =>
      obtain ⟨key, t⟩ := m
      obtain ⟨lead, mark, text, more, hlead, hmark, htext, hmore, rfl⟩ := hs
      obtain ⟨blank, hblank, hcolon⟩ := colon_mark hmark
      simp only [List.append_assoc] at h
      rw [entries, bind_of_ok (hasKey_member hlead key _)] at h
      obtain ⟨name, s₁, hkey, h⟩ := exists_of_bind_eq_ok h
      obtain ⟨hname, rfl⟩ := (quotedString_quoted key _).of_ok hkey
      rw [bind_of_ok (hcolon _)] at h
      obtain ⟨a, s₂, hitem, h⟩ := exists_of_bind_eq_ok h
      have hrest := Tree.follows_membersAs hmore rest
      obtain rfl := hstops htext hblank hrest hitem
      obtain ⟨es, s₃, hentries, h⟩ := exists_of_bind_eq_ok h
      cases h
      obtain ⟨hseen, rfl⟩ := ih hmore hentries
      exact ⟨.cons ⟨hname, text, blank, _, _, htext, hblank, hrest, hitem⟩ hseen, rfl⟩

lemma entries_of_forall₂_reads
    (hreads : List.Forall₂ (fun m e => keyText m.1 = some e.1 ∧ Reads step m.2 e.2) members es)
    {steps : Nat} (hsteps : members.length < steps) {first : Bool} {s : List Char}
    (hs : Tree.MembersAs first members s) (rest : List Char) :
    entries step steps first (s ++ '}' :: rest) = .ok (es, '}' :: rest) := by
  induction hreads generalizing steps first s with
  | nil =>
    obtain ⟨steps, rfl⟩ := Nat.exists_eq_add_one_of_ne_zero (Nat.ne_zero_of_lt hsteps)
    rw [entries, bind_of_ok (hasKey_end first hs rest)]
    rfl
  | @cons m e members es hread hreads ih =>
    obtain ⟨key, t⟩ := m
    obtain ⟨steps, rfl⟩ := Nat.exists_eq_add_one_of_ne_zero (Nat.ne_zero_of_lt hsteps)
    obtain ⟨lead, mark, text, more, hlead, hmark, htext, hmore, rfl⟩ := hs
    obtain ⟨blank, hblank, hcolon⟩ := colon_mark hmark
    have hitem := hread.2 htext hblank (Tree.follows_membersAs hmore rest)
    simp only [List.append_assoc]
    rw [entries, bind_of_ok (hasKey_member hlead key _)]
    exact (bind_of_ok ((quotedString_quoted key _).1 e.1 hread.1)).trans <|
      (bind_of_ok (hcolon _)).trans <|
      (bind_of_ok hitem).trans (bind_of_ok (ih (Nat.lt_of_succ_lt_succ hsteps) hmore))

lemma allEntries_eq (step : Read α) (s : List Char) :
    allEntries step s =
      (entries step (s.length + 1) true >>= fun items => skipOne >>= fun _ => pure items) s := rfl

lemma args_refuses (depth : Nat) {s s' : List Char} {c : Char} (hpeek : peek s = .ok (some c, s'))
    (hc : c ≠ '{') : args depth s = refuse "a map" s' := by
  rw [args, bind_of_ok hpeek]
  simp [hc]

lemma args_blank (depth : Nat) {blank : List Char} (hblank : IsBlank blank) (s : List Char) :
    args depth (blank ++ s) = args depth s := by
  rw [args, bind_peek_blank hblank]

lemma seen_of_args {depth : Nat} {text blank rest s : List Char} {m : ArgMap}
    (htext : t.WrittenAs text) (hblank : IsBlank blank)
    (h : args depth (blank ++ (text ++ rest)) = .ok (m, s)) :
    ∃ inner members es, depth = inner + 1 ∧ t = .object members ∧
      List.Forall₂ (fun p e => keyText p.1 = some e.1 ∧ Seen (literal inner) p.2 e.2) members es ∧
      m = ArgMap.ofList es ∧ s = rest := by
  obtain ⟨c, hc, hpeek⟩ := htext.peek
  by_cases hbrace : c = '{'
  · obtain ⟨members, rfl⟩ := (hbrace ▸ hc).exists_object
    obtain ⟨inside, hinside, rfl⟩ := htext
    rw [args_blank depth hblank, List.cons_append, List.append_assoc, List.singleton_append] at h
    cases depth with
    | zero => cases h
    | succ inner =>
      rw [args_succ] at h
      obtain ⟨es, s₁, hentries, h⟩ := exists_of_bind_eq_ok h
      cases h
      rw [allEntries_eq] at hentries
      obtain ⟨es, s₁, hentries, h⟩ := exists_of_bind_eq_ok hentries
      obtain ⟨hseen, rfl⟩ :=
        forall₂_seen_of_entries ((isScalar_literal.stable 0).stopsBehind inner) hinside hentries
      cases h
      exact ⟨inner, members, _, rfl, rfl, hseen, rfl, rfl⟩
  · rw [args_refuses depth (hpeek blank rest hblank) hbrace] at h
    exact absurd h refuse_ne_ok

lemma reads_args {inner : Nat} {es : List (String × Literal)}
    (h : List.Forall₂ (fun p e => keyText p.1 = some e.1 ∧ Reads (literal inner) p.2 e.2)
      members es) :
    Reads (args (inner + 1)) (.object members) (ArgMap.ofList es) := by
  intro text blank rest htext hblank _
  obtain ⟨inside, hinside, rfl⟩ := htext
  have hlength := Tree.members_length_lt hinside ('}' :: rest)
  have hentries : allEntries (literal inner) (inside ++ '}' :: rest) = .ok (es, rest) := by
    rw [allEntries_eq, bind_of_ok (entries_of_forall₂_reads h hlength hinside rest)]
    rfl
  rw [args_blank _ hblank, List.cons_append, List.append_assoc, List.singleton_append, args_succ,
    bind_of_ok hentries]
  rfl

end Arguments

/-- Arguments with distinct keys can come in any order. -/
lemma stable_args (bound : Nat) : Stable .args bound args args where
  stopsBehind := by
    intro depth t text blank rest s m htext hblank hrest hok
    obtain ⟨-, -, -, -, -, -, -, hs⟩ := seen_of_args htext hblank hok
    exact hs
  reads := by
    intro depth depth' t t' m _ hvariant hnesting hseen
    obtain ⟨text, blank, rest, s, htext, hblank, hrest, hok⟩ := hseen
    obtain ⟨inner, members, es, rfl, rfl, hentries, rfl, -⟩ := seen_of_args htext hblank hok
    obtain ⟨members', rfl, hmembers⟩ := hvariant.args
    rw [Kind.nesting] at hnesting
    obtain ⟨inner', rfl⟩ := Nat.exists_eq_add_one_of_ne_zero (n := depth') (by omega)
    have hreads : List.Forall₂ (fun p e => keyText p.1 = some e.1 ∧ Reads (literal inner') p.2 e.2)
        members es :=
      hentries.imp fun _ _ h => ⟨h.1, isScalar_literal.reads h.2 inner'⟩
    rcases hmembers with rfl | ⟨hkeys, hperm⟩
    · exact reads_args hreads
    · obtain ⟨es', hreads', hperm'⟩ := List.perm_comp_forall₂ hperm.symm hreads
      have hnames : (members.map fun m => keyText m.1) = (es.map (·.1)).map some := by
        rw [List.map_map, ← List.forall₂_eq_eq_eq, List.forall₂_map_left_iff,
          List.forall₂_map_right_iff]
        exact hreads.imp fun _ _ h => h.1
      rw [hnames] at hkeys
      rw [ArgMap.ofList_perm (List.Nodup.of_map some hkeys) hperm'.symm]
      exact reads_args hreads'

/-! ## Choices -/

/-- The readers of a case are stable. -/
inductive CaseStable (k : Kind) (bound : Nat) : Case Reader α → Case Reader α → Prop where
  | bare (value : α) : CaseStable k bound (.bare value) (.bare value)
  | value {reader reader' : Reader α} (h : Stable k bound reader reader') :
      CaseStable k bound (.value reader) (.value reader')
  | body {reader reader' : Reader α} (h : Stable k bound reader reader') :
      CaseStable k bound (.body reader) (.body reader')

/-- The cases of two readers have the same names and are stable. -/
def CasesStable (c : Choice) (bound : Nat) (cases cases' : List (String × Case Reader α)) : Prop :=
  List.Forall₂ (fun p p' => p.1 = p'.1 ∧ CaseStable (c.caseKind p.1) bound p.2 p'.2) cases cases'

lemma CasesStable.lookup {c : Choice} {cases cases' : List (String × Case Reader α)}
    (h : CasesStable c bound cases cases') {name : String} {case : Case Reader α}
    (hcase : cases.lookup name = some case) :
    ∃ case', cases'.lookup name = some case' ∧ CaseStable (c.caseKind name) bound case case' := by
  induction h with
  | nil => cases hcase
  | @cons p p' cases cases' hhead htail ih =>
    obtain ⟨first, firstCase⟩ := p
    obtain ⟨first', firstCase'⟩ := p'
    obtain ⟨rfl, hstable⟩ := hhead
    by_cases hname : name = first
    · subst hname
      rw [List.lookup_cons_self] at hcase ⊢
      cases hcase
      exact ⟨firstCase', rfl, hstable⟩
    · have hne : (name == first) = false := beq_false_of_ne hname
      rw [List.lookup_cons, hne] at hcase ⊢
      exact ih hcase

lemma reads_caseData_bare (value : α) (depth : Nat) :
    Reads (caseData (.bare value) depth) .null value := by
  intro text blank rest htext hblank _
  cases htext
  exact bind_of_ok (peek_blank_cons hblank rfl ("ull".toList ++ rest))

/-- A case without data is written with null. -/
lemma seen_of_caseData_bare {value a : α} {depth : Nat} {text blank rest s : List Char}
    (htext : t.WrittenAs text) (hblank : IsBlank blank) (hrest : Follows rest)
    (h : caseData (.bare value) depth (blank ++ (text ++ rest)) = .ok (a, s)) :
    t = .null ∧ a = value ∧ s = rest := by
  obtain ⟨c, hc, hpeek⟩ := htext.peek
  by_cases hn : c = 'n'
  · obtain rfl := (hn ▸ hc).eq_null
    cases h.symm.trans (reads_caseData_bare value depth htext hblank hrest)
    exact ⟨rfl, rfl, rfl⟩
  · have hrefuse : caseData (.bare value) depth (blank ++ (text ++ rest)) =
        refuse "unit" (text ++ rest) := by
      exact (bind_of_ok (hpeek blank rest hblank)).trans (by simp [hn])
    exact absurd (hrefuse.symm.trans h) refuse_ne_ok

/-- The data of a case is a stable place. -/
lemma CaseStable.caseData {case case' : Case Reader α} (h : CaseStable k bound case case') :
    Stable k bound (caseData case) (caseData case') := by
  cases h with
  | bare value =>
    constructor
    · intro depth t text blank rest s a htext hblank hrest hok
      exact (seen_of_caseData_bare htext hblank hrest hok).2.2
    · intro depth depth' t t' a _ hvariant _ hseen
      obtain ⟨text, blank, rest, s, htext, hblank, hrest, hok⟩ := hseen
      obtain ⟨rfl, rfl, -⟩ := seen_of_caseData_bare htext hblank hrest hok
      rw [hvariant.eq_null_iff.2 rfl]
      exact reads_caseData_bare a depth'
  | value h => exact h
  | body h => exact h

section Choices

variable {cases : List (String × Case Reader α)} {depth : Nat}

lemma choice_refuses {s s' : List Char} {c : Char} (hpeek : peek s = .ok (some c, s'))
    (hbrace : c ≠ '{') (hquote : c ≠ '"') : choice cases depth s = .error .expectedValue := by
  rw [choice, bind_of_ok hpeek]
  -- the facts above leave only the last case of the match
  simp
  rfl

lemma choice_quoted {blank : List Char} (hblank : IsBlank blank) (parts : List Part)
    (rest : List Char) :
    choice cases depth (blank ++ (quoted parts ++ rest)) =
      (quotedString >>= fun name => findCase cases name >>= fun case => bareCase case)
        (quoted parts ++ rest) := by
  rw [choice, bind_of_ok (peek_quoted hblank parts rest)]
  rfl

lemma choice_blank {blank : List Char} (hblank : IsBlank blank) (s : List Char) :
    choice cases depth (blank ++ s) = choice cases depth s := by
  rw [choice, bind_peek_blank hblank]

lemma caseName_quoted {blank : List Char} (hblank : IsBlank blank) (key : List Part)
    (rest : List Char) :
    caseName (blank ++ (quoted key ++ rest)) = quotedString (quoted key ++ rest) := by
  rw [caseName, bind_of_ok (peek_quoted hblank key rest)]
  rfl

lemma caseName_end {blank : List Char} (hblank : IsBlank blank) (rest : List Char) :
    caseName (blank ++ '}' :: rest) = .error .expectedValue := by
  rw [caseName, bind_of_ok (peek_blank_cons hblank rfl _)]
  rfl

lemma lookup_of_findCase {name : String} {case : Case Reader α} {s s' : List Char}
    (h : findCase cases name s = .ok (case, s')) : cases.lookup name = some case ∧ s' = s := by
  cases hfound : cases.lookup name with
  | none =>
    rw [findCase, hfound] at h
    cases h
  | some found =>
    rw [findCase, hfound] at h
    cases h
    exact ⟨rfl, rfl⟩

/-- A choice that was read is a bare name or an object with one member. -/
lemma seen_of_choice {c : Choice} {cases' : List (String × Case Reader α)}
    (hstable : CasesStable c bound cases cases') {text blank rest s : List Char} {a : α}
    (htext : t.WrittenAs text) (hblank : IsBlank blank)
    (h : choice cases depth (blank ++ (text ++ rest)) = .ok (a, s)) :
    s = rest ∧
      ((∃ parts name, t = .string parts ∧ keyText parts = some name ∧
          cases.lookup name = some (.bare a)) ∨
        ∃ inner key u name case, depth = inner + 1 ∧ t = .object [(key, u)] ∧
          keyText key = some name ∧ cases.lookup name = some case ∧
          Seen (caseData case inner) u a) := by
  obtain ⟨first, hfirst, hpeek⟩ := htext.peek
  by_cases hquote : first = '"'
  · obtain ⟨parts, rfl⟩ := (hquote ▸ hfirst).exists_string
    cases htext
    rw [choice_quoted hblank] at h
    obtain ⟨name, s₁, hquoted, h⟩ := exists_of_bind_eq_ok h
    obtain ⟨hname, hs⟩ := (quotedString_quoted parts rest).of_ok hquoted
    obtain ⟨case, s₂, hfind, h⟩ := exists_of_bind_eq_ok h
    obtain ⟨hcase, hs'⟩ := lookup_of_findCase hfind
    subst hs hs'
    cases case with
    | bare value =>
      cases h
      exact ⟨rfl, .inl ⟨parts, name, rfl, hname, hcase⟩⟩
    | value reader => cases h
    | body reader => cases h
  by_cases hbrace : first = '{'
  · obtain ⟨members, rfl⟩ := (hbrace ▸ hfirst).exists_object
    obtain ⟨inside, hinside, rfl⟩ := htext
    rw [choice_blank hblank, List.cons_append, List.append_assoc, List.singleton_append] at h
    cases depth with
    | zero => cases h
    | succ inner =>
      rw [choice_succ] at h
      cases members with
      | nil =>
        rw [bind_of_error (caseName_end hinside rest)] at h
        cases h
      | cons m members =>
        obtain ⟨key, u⟩ := m
        obtain ⟨lead, mark, text, more, hlead, hmark, htext, hmore, rfl⟩ := hinside
        obtain ⟨space, hspace, hcolon⟩ := colon_mark hmark
        simp only [List.append_assoc] at h
        obtain ⟨name, s₁, hquoted, h⟩ := exists_of_bind_eq_ok h
        rw [caseName_quoted hlead] at hquoted
        obtain ⟨hname, hs⟩ := (quotedString_quoted key _).of_ok hquoted
        obtain ⟨case, s₂, hfind, h⟩ := exists_of_bind_eq_ok h
        obtain ⟨hcase, hs'⟩ := lookup_of_findCase hfind
        subst hs hs'
        rw [bind_of_ok (hcolon _)] at h
        obtain ⟨value, s₃, hvalue, h⟩ := exists_of_bind_eq_ok h
        obtain ⟨case', -, hcases⟩ := hstable.lookup hcase
        have hrest := Tree.follows_membersAs hmore rest
        obtain rfl := hcases.caseData.stopsBehind inner htext hspace hrest hvalue
        cases members with
        | nil =>
          rw [bind_of_ok (peek_blank_cons hmore rfl rest)] at h
          cases h
          exact ⟨rfl, .inr ⟨inner, key, u, name, case, rfl, rfl, hname, hcase,
            text, space, _, _, htext, hspace, hrest, hvalue⟩⟩
        | cons m members =>
          obtain ⟨lead, mark, text, more, ⟨before, after, hbefore, -, rfl⟩, -, -, -, rfl⟩ := hmore
          simp only [List.append_assoc, List.cons_append] at h
          rw [bind_of_ok (peek_blank_cons hbefore rfl _)] at h
          cases h
  · rw [choice_refuses (hpeek blank rest hblank) hbrace hquote] at h
    cases h

lemma reads_choice_bare {parts : List Part} {name : String} (hname : keyText parts = some name)
    {a : α} (hcase : cases.lookup name = some (.bare a)) :
    Reads (choice cases depth) (.string parts) a := by
  intro text blank rest htext hblank _
  cases htext
  rw [choice_quoted hblank, bind_of_ok ((quotedString_quoted parts rest).1 name hname),
    bind_of_ok (findCase_of_lookup hcase rest)]
  rfl

/-- An object with one member gives what the data of its case gives. -/
lemma yields_choice_object {inner : Nat} {key : List Part} {name : String}
    (hname : keyText key = some name) {case : Case Reader α} (hcase : cases.lookup name = some case)
    {value : Option α} (h : Yields (caseData case inner) t value) :
    Yields (choice cases (inner + 1)) (.object [(key, t)]) value := by
  intro text blank rest htext hblank _
  obtain ⟨inside, ⟨lead, mark, text, more, hlead, hmark, htext, hmore, rfl⟩, rfl⟩ := htext
  obtain ⟨space, hspace, hcolon⟩ := colon_mark hmark
  have hdata := h htext hspace (Tree.follows_membersAs hmore rest)
  rw [choice_blank hblank]
  simp only [List.append_assoc, List.cons_append, List.nil_append]
  have hkey := (caseName_quoted hlead key (mark ++ (text ++ (more ++ '}' :: rest)))).trans
    ((quotedString_quoted key _).1 name hname)
  rw [choice_succ, bind_of_ok hkey, bind_of_ok (findCase_of_lookup hcase _), bind_of_ok (hcolon _)]
  have hsame : value.bind some = value := Option.bind_fun_some value
  rw [← hsame]
  refine hdata.bind fun a _ => ?_
  rw [bind_of_ok (peek_blank_cons hmore rfl rest)]
  exact gives_some a rest

lemma reads_choice_object {inner : Nat} {key : List Part} {name : String}
    (hname : keyText key = some name) {case : Case Reader α} (hcase : cases.lookup name = some case)
    {a : α} (h : Reads (caseData case inner) t a) :
    Reads (choice cases (inner + 1)) (.object [(key, t)]) a :=
  (yields_choice_object hname hcase h.yields).reads

end Choices

lemma CasesStable.choice {c : Choice} {cases cases' : List (String × Case Reader α)}
    (h : CasesStable c bound cases cases') :
    Stable (.choice c) (bound + 1) (choice cases) (choice cases') where
  stopsBehind := by
    intro depth t text blank rest s a htext hblank _ hok
    exact (seen_of_choice h htext hblank hok).1
  reads := by
    intro depth depth' t t' a hdepth hvariant hnesting hseen
    obtain ⟨text, blank, rest, s, htext, hblank, hrest, hok⟩ := hseen
    obtain ⟨-, ⟨parts, name, rfl, hname, hcase⟩ |
        ⟨inner, key, u, name, case, rfl, rfl, hname, hcase, hdata⟩⟩ :=
      seen_of_choice h htext hblank hok
    · obtain ⟨case', hcase', hstable⟩ := h.lookup hcase
      cases hstable
      obtain rfl : t' = .string parts := by
        rcases hvariant with rfl | hedit
        · rfl
        · cases hedit
      exact reads_choice_bare hname hcase'
    · obtain ⟨u', rfl, hu⟩ := hvariant.choice
      obtain ⟨case', hcase', hstable⟩ := h.lookup hcase
      have hinner : (Kind.choice c).member name = some (c.caseKind name) := rfl
      rw [Kind.nesting, Kind.memberNesting, hname, Option.bind_some, hinner] at hnesting
      dsimp only at hnesting
      obtain ⟨inner', rfl⟩ := Nat.exists_eq_add_one_of_ne_zero (n := depth') (by omega)
      exact reads_choice_object hname hcase'
        (hstable.caseData.reads (by omega) (hu name hname) (by omega) hdata)

/-! ## Recursion -/

/-- A recursive shape is stable if each of its levels is, given the next one for a bound less. -/
lemma stable_recursive {shape : Reader α → Reader α}
    (hshape : ∀ bound reader reader', Stable k bound reader reader' →
      Stable k (bound + 1) (shape reader) (shape reader')) (bound : Nat) :
    Stable k bound (recursive shape) (recursive shape) := by
  have hunroll (levels levels' : Nat) :
      Stable k levels' (unroll shape levels) (unroll shape levels') := by
    induction levels generalizing levels' with
    | zero =>
      constructor
      · intro depth t text blank rest s a _ _ _ hok
        cases hok
      · intro depth depth' t t' a _ _ _ hseen
        obtain ⟨text, blank, rest, s, -, -, -, hok⟩ := hseen
        cases hok
    | succ levels ih =>
      cases levels' with
      | zero =>
        constructor
        · exact (hshape 0 _ _ (ih 0)).stopsBehind
        · intro depth depth' t t' a hdepth
          cases hdepth
      | succ levels' => exact hshape levels' _ _ (ih levels')
  constructor
  · exact fun depth => (hunroll (depth + 1) 0).stopsBehind depth
  · intro depth depth' t t' a _ hvariant hnesting hseen
    exact (hunroll (depth + 1) (depth' + 1)).reads (Nat.lt_succ_self depth') hvariant hnesting hseen

end Json

end ResourceStubs
