import Mathlib.Data.List.Basic
import Mathlib.Data.List.Infix
import ResourceStubs.Method

/-!
# Variables of segments and of routes

The variables of an endpoint are found by scanning its segments one by one, while a reader of the
generated code sees the concatenated route. Both readings are compared here through a third one that
does not scan at all: a name is a variable of a text when the name in braces occurs somewhere in it
(`Route.mem_scan_iff`). Occurrences never overlap, because a name has no braces, so reading from
left to right misses none.

An occurrence in a segment is an occurrence in the route. The converse needs that no occurrence
spans a border between segments. A slash is neither a brace nor part of a name, so borders that are
followed by a slash are never spanned (`Route.infix_or_infix_of_append`).
-/

namespace ResourceStubs.Route

/-- A name in braces. -/
def braced (name : List Char) : List Char :=
  '{' :: name ++ ['}']

/-- A text that can name a variable. -/
structure IsName (name : List Char) : Prop where
  nonempty : name ≠ []
  chars : ∀ c ∈ name, Text.isNameChar c = true

/-! ## Scanning finds every occurrence -/

/-- Behind characters of a name, a closing brace can only follow directly. -/
lemma closed_prefix_iff {name pending rest : List Char} {c : Char}
    (hname : ∀ d ∈ name, Text.isNameChar d = true)
    (hpending : ∀ d ∈ pending, Text.isNameChar d = true) (hc : Text.isNameChar c = false) :
    name ++ ['}'] <+: pending ++ c :: rest ↔ c = '}' ∧ name = pending := by
  have hbrace : Text.isNameChar '}' = false := by decide
  induction pending generalizing name with
  | nil =>
    cases name with
    | nil => simp [eq_comm]
    | cons d ds =>
      have hd : d ≠ c := by
        rintro rfl
        exact absurd (hname d List.mem_cons_self) (by simp [hc])
      simp [List.cons_prefix_cons, hd]
  | cons p ps ih =>
    cases name with
    | nil =>
      have hp : '}' ≠ p := by
        rintro rfl
        exact absurd (hpending _ List.mem_cons_self) (by simp [hbrace])
      simp [List.cons_prefix_cons, hp]
    | cons d ds =>
      have htail : ds ++ ['}'] <+: ps ++ c :: rest ↔ c = '}' ∧ ds = ps :=
        ih (fun e he => hname e (List.mem_cons_of_mem d he)) fun e he =>
          hpending e (List.mem_cons_of_mem p he)
      rw [List.cons_append, List.cons_append, List.cons_prefix_cons, htail, List.cons.injEq]
      tauto

/-- The name occurs in braces, where pending characters, latest first, may have begun it. -/
def Occurs (name : List Char) : Option (List Char) → List Char → Prop
  | none, s => braced name <:+: s
  | some pending, s => name ++ ['}'] <+: pending.reverse ++ s ∨ braced name <:+: s

/-- Pending characters all belong to names. -/
def IsPending : Option (List Char) → Prop
  | none => True
  | some begun => ∀ c ∈ begun, Text.isNameChar c = true

section Occurrences

variable {name begun rest : List Char} {pending : Option (List Char)} {c : Char}

lemma not_occurs_nil (hpending : IsPending pending) : ¬Occurs name pending [] := by
  cases pending with
  | none => simp [Occurs, braced]
  | some begun =>
    have hnot : ¬name ++ ['}'] <+: begun.reverse := by
      intro hprefix
      have hbrace : '}' ∈ begun := by
        have hmem : '}' ∈ begun.reverse := hprefix.subset (by simp)
        simpa using hmem
      exact absurd (hpending _ hbrace) (by decide)
    simp [Occurs, braced, hnot]

lemma occurs_none_cons (hc : c ≠ '{') : Occurs name none (c :: rest) ↔ Occurs name none rest := by
  rw [Occurs, Occurs, List.infix_cons_iff, braced, List.cons_append, List.cons_prefix_cons]
  simp [Ne.symm hc]

/-- An opening brace starts afresh, whatever was pending. -/
lemma occurs_open (hname : IsName name) (hpending : IsPending pending) :
    Occurs name pending ('{' :: rest) ↔ Occurs name (some []) rest := by
  have hopen : braced name <:+: '{' :: rest ↔ name ++ ['}'] <+: rest ∨ braced name <:+: rest := by
    rw [List.infix_cons_iff, braced, List.cons_append, List.cons_prefix_cons]
    simp
  cases pending with
  | none => exact hopen
  | some begun =>
    have hnot : ¬name ++ ['}'] <+: begun.reverse ++ '{' :: rest := by
      rw [closed_prefix_iff hname.chars (by simpa [IsPending] using hpending) (by decide)]
      simp
    simp [Occurs, hnot, hopen]

lemma occurs_close (hname : IsName name) (hpending : IsPending (some begun)) :
    Occurs name (some begun) ('}' :: rest) ↔ name = begun.reverse ∨ Occurs name none rest := by
  have hends : name ++ ['}'] <+: begun.reverse ++ '}' :: rest ↔ name = begun.reverse := by
    rw [closed_prefix_iff hname.chars (by simpa [IsPending] using hpending) (by decide)]
    simp
  exact or_congr hends (occurs_none_cons (by decide))

lemma occurs_nameChar (hc : Text.isNameChar c = true) :
    Occurs name (some begun) (c :: rest) ↔ Occurs name (some (c :: begun)) rest := by
  have hopen : c ≠ '{' := by
    rintro rfl
    exact absurd hc (by decide)
  have hbegun : (c :: begun).reverse ++ rest = begun.reverse ++ c :: rest := by simp
  rw [Occurs, Occurs, hbegun]
  exact or_congr_right (occurs_none_cons hopen)

lemma occurs_other (hname : IsName name) (hpending : IsPending (some begun)) (hopen : c ≠ '{')
    (hclose : c ≠ '}') (hc : Text.isNameChar c = false) :
    Occurs name (some begun) (c :: rest) ↔ Occurs name none rest := by
  have hnot : ¬name ++ ['}'] <+: begun.reverse ++ c :: rest := by
    rw [closed_prefix_iff hname.chars (by simpa [IsPending] using hpending) hc]
    exact fun h => hclose h.1
  rw [← occurs_none_cons hopen]
  simp [Occurs, hnot]

end Occurrences

lemma mem_scan_iff_of_pending {name s : List Char} {pending : Option (List Char)}
    (hpending : IsPending pending) :
    name ∈ scan s pending ↔ IsName name ∧ Occurs name pending s := by
  have hempty : IsPending (some []) := nofun
  fun_induction scan s pending with
  | case1 pending => simp [not_occurs_nil hpending]
  | case2 rest pending ih =>
    refine (ih hempty).trans ?_
    exact and_congr_right fun hname => (occurs_open hname hpending).symm
  | case3 c rest hopen ih =>
    refine (ih trivial).trans ?_
    rw [occurs_none_cons hopen]
  | case4 rest begun hnil hopen ih =>
    obtain rfl : begun = [] := List.isEmpty_iff.1 hnil
    refine (ih trivial).trans ?_
    refine and_congr_right fun hname => ?_
    rw [occurs_close hname hpending, List.reverse_nil, or_iff_right hname.nonempty]
  | case5 rest begun hne hopen ih =>
    have hbegun : IsName begun.reverse := ⟨by simpa using hne, by simpa [IsPending] using hpending⟩
    have hlater := ih trivial
    constructor
    · intro hmem
      rcases List.mem_cons.1 hmem with rfl | hmem
      · exact ⟨hbegun, (occurs_close hbegun hpending).2 (.inl rfl)⟩
      · obtain ⟨hname, hoccurs⟩ := hlater.1 hmem
        exact ⟨hname, (occurs_close hname hpending).2 (.inr hoccurs)⟩
    · rintro ⟨hname, hoccurs⟩
      rcases (occurs_close hname hpending).1 hoccurs with rfl | hoccurs
      · exact List.mem_cons_self
      · exact List.mem_cons_of_mem _ (hlater.2 ⟨hname, hoccurs⟩)
  | case6 c rest hopen begun hclose hchar ih =>
    have hmore : IsPending (some (c :: begun)) := by
      intro d hd
      rcases List.mem_cons.1 hd with rfl | hd
      · exact hchar
      · exact hpending d hd
    refine (ih hmore).trans ?_
    rw [occurs_nameChar hchar]
  | case7 c rest hopen begun hclose hchar ih =>
    refine (ih trivial).trans ?_
    exact and_congr_right fun hname =>
      (occurs_other hname hpending hopen hclose (eq_false_of_ne_true hchar)).symm

/-- The names that a scan finds are the names that occur in braces. -/
lemma mem_scan_iff {name s : List Char} : name ∈ scan s none ↔ IsName name ∧ braced name <:+: s :=
  mem_scan_iff_of_pending trivial

lemma mem_segmentVariables_iff {name segment : String} :
    name ∈ segmentVariables segment ↔
      IsName name.toList ∧ braced name.toList <:+: segment.toList := by
  rw [segmentVariables, List.mem_map, ← mem_scan_iff]
  constructor
  · rintro ⟨chars, hchars, rfl⟩
    rwa [String.toList_ofList]
  · intro hname
    exact ⟨name.toList, hname, String.ofList_toList⟩

lemma mem_variableNames_iff {name localPath : String} {segments : List String} :
    name ∈ variableNames segments localPath ↔
      IsName name.toList ∧
        ∃ segment ∈ segments ++ [localPath], braced name.toList <:+: segment.toList := by
  simp only [variableNames, List.mem_flatMap, mem_segmentVariables_iff]
  constructor
  · rintro ⟨segment, hmem, hname, hinfix⟩
    exact ⟨hname, segment, hmem, hinfix⟩
  · rintro ⟨hname, segment, hmem, hinfix⟩
    exact ⟨segment, hmem, hname, hinfix⟩

/-! ## Borders between segments -/

lemma toList_path (segments : List String) (localPath : String) :
    (path segments localPath).toList = (segments ++ [localPath]).flatMap String.toList := by
  simp [path, String.toList_join]

lemma infix_flatMap_of_mem {segments : List String} {segment : String} (h : segment ∈ segments) :
    segment.toList <:+: segments.flatMap String.toList := by
  obtain ⟨before, rest, rfl⟩ := List.append_of_mem h
  rw [List.flatMap_append, List.flatMap_cons]
  exact List.infix_append' _ _ _

lemma slash_not_mem_braced {name : List Char} (h : IsName name) : '/' ∉ braced name := by
  intro hslash
  have hmem : '/' ∈ name := by simpa [braced] using hslash
  exact absurd (h.chars _ hmem) (by decide)

/-- No name in braces spans a border that is followed by a slash. -/
lemma infix_or_infix_of_append {name first second : List Char} (hname : IsName name)
    (hsecond : second = [] ∨ second.head? = some '/') (h : braced name <:+: first ++ second) :
    braced name <:+: first ∨ braced name <:+: second := by
  rcases List.infix_append_iff_ne_nil.1 h with hfirst | hsecond' | ⟨l, m, -, hm, hsplit, -, hprefix⟩
  · exact .inl hfirst
  · exact .inr hsecond'
  · -- the part behind the border would start with the slash
    exfalso
    obtain ⟨c, rest, rfl⟩ := List.exists_cons_of_ne_nil hm
    obtain ⟨more, hmore⟩ := hprefix
    have hslash : c = '/' := by
      rcases hsecond with hnil | hhead
      · simp [hnil] at hmore
      · simpa [← hmore] using hhead
    apply slash_not_mem_braced hname
    rw [hsplit, hslash]
    simp

/-- Every segment is empty or starts with a slash. -/
def AllSlashed (segments : List String) : Prop :=
  ∀ segment ∈ segments, segment ≠ "" → segment.toList.head? = some '/'

lemma AllSlashed.flatMap {segments : List String} (h : AllSlashed segments) :
    segments.flatMap String.toList = [] ∨ (segments.flatMap String.toList).head? = some '/' := by
  induction segments with
  | nil => exact .inl rfl
  | cons segment rest ih =>
    rw [List.flatMap_cons]
    by_cases hempty : segment = ""
    · subst hempty
      exact ih fun s hs => h s (List.mem_cons_of_mem _ hs)
    · have hne : segment.toList ≠ [] := fun hnil => hempty (String.toList_inj.1 hnil)
      rw [List.head?_append_of_ne_nil _ hne]
      exact .inr (h segment List.mem_cons_self hempty)

lemma exists_segment_of_allSlashed {name : List Char} (hname : IsName name) {first : String}
    {rest : List String} (hrest : AllSlashed rest)
    (h : braced name <:+: (first :: rest).flatMap String.toList) :
    ∃ segment ∈ first :: rest, braced name <:+: segment.toList := by
  induction rest generalizing first with
  | nil => exact ⟨first, List.mem_cons_self, by simpa using h⟩
  | cons second rest ih =>
    rw [List.flatMap_cons] at h
    rcases infix_or_infix_of_append hname hrest.flatMap h with hfirst | hlater
    · exact ⟨first, List.mem_cons_self, hfirst⟩
    · obtain ⟨segment, hmem, hinfix⟩ := ih (fun s hs => hrest s (List.mem_cons_of_mem _ hs)) hlater
      exact ⟨segment, List.mem_cons_of_mem first hmem, hinfix⟩

/-- Every non-empty segment after the first non-empty one starts with a slash. -/
def Separated (segments : List String) : Prop :=
  ∀ segment ∈ (segments.filter (· ≠ "")).tail, segment.toList.head? = some '/'

lemma Separated.exists_segment {name : List Char} (hname : IsName name) {segments : List String}
    (hsegments : Separated segments) (h : braced name <:+: segments.flatMap String.toList) :
    ∃ segment ∈ segments, braced name <:+: segment.toList := by
  induction segments with
  | nil => simp [braced] at h
  | cons first rest ih =>
    by_cases hempty : first = ""
    · subst hempty
      have hrest : Separated rest := by simpa [Separated] using hsegments
      obtain ⟨segment, hmem, hinfix⟩ := ih hrest h
      exact ⟨segment, List.mem_cons_of_mem _ hmem, hinfix⟩
    · have hrest : AllSlashed rest := by
        intro segment hmem hne
        exact hsegments segment (by simp [hempty, hmem, hne])
      exact exists_segment_of_allSlashed hname hrest h

/-! ## Both readings -/

lemma marker_eq_pathVariable_iff {binding : Binding} :
    binding.marker = "@PathVariable" ↔ binding = .path := by
  cases binding with
  | path => simp [Binding.marker]
  | query required => cases required <;> simp [Binding.marker]

lemma mem_variableNames_path {segments : List String} {localPath name : String}
    (h : name ∈ variableNames segments localPath) :
    name ∈ variableNames [] (path segments localPath) := by
  obtain ⟨hname, segment, hmem, hinfix⟩ := mem_variableNames_iff.1 h
  refine mem_variableNames_iff.2 ⟨hname, path segments localPath, by simp, ?_⟩
  rw [toList_path]
  exact hinfix.trans (infix_flatMap_of_mem hmem)

/-- The variables of the segments are variables of the route, so a parameter with a path marker has
its name in braces in the route. When the segments are separated by slashes, there are no others. -/
theorem variableNames_agree (segments : List String) (localPath : String) :
    (∀ name ∈ variableNames segments localPath, name ∈ variableNames [] (path segments localPath)) ∧
      (∀ p : Param, (Binding.of (variableNames segments localPath) p).marker = "@PathVariable" →
        '{' :: p.name.toList ++ ['}'] <:+: (path segments localPath).toList) ∧
      (Separated (segments ++ [localPath]) → ∀ name,
        name ∈ variableNames segments localPath ↔
          name ∈ variableNames [] (path segments localPath)) := by
  refine ⟨fun name hname => mem_variableNames_path hname, ?_, ?_⟩
  · intro p hmarker
    have hbinding : Binding.of (variableNames segments localPath) p = .path :=
      marker_eq_pathVariable_iff.1 hmarker
    have hbound : p.name ∈ variableNames segments localPath := by
      unfold Binding.of at hbinding
      split at hbinding
      · rename_i hcontains
        simpa using hcontains
      · cases hbinding
    obtain ⟨-, route, hroute, hinfix⟩ := mem_variableNames_iff.1 (mem_variableNames_path hbound)
    obtain rfl : route = path segments localPath := by simpa using hroute
    exact hinfix
  · intro hseparated name
    refine ⟨mem_variableNames_path, ?_⟩
    intro h
    obtain ⟨hname, route, hroute, hinfix⟩ := mem_variableNames_iff.1 h
    obtain rfl : route = path segments localPath := by simpa using hroute
    rw [toList_path] at hinfix
    exact mem_variableNames_iff.2 ⟨hname, hseparated.exists_segment hname hinfix⟩

-- without a slash behind the border, the route has a variable that no segment has
example :
    variableNames ["/".push '{'] ("id".push '}') = [] ∧
      variableNames [] (path ["/".push '{'] ("id".push '}')) = ["id"] := by
  decide +kernel

/-- The segments above an order, with an empty one between them. -/
def orderSegments : List String :=
  ["orders", "", "/{id}"]

theorem variableNames_agree_orders :
    variableNames orderSegments "/items/{item}" = ["id", "item"] ∧
      '{' :: "id".toList ++ ['}'] <:+: (path orderSegments "/items/{item}").toList ∧
      Separated (orderSegments ++ ["/items/{item}"]) ∧
      ∀ name, name ∈ ["id", "item"] ↔ name ∈ variableNames [] "orders/{id}/items/{item}" := by
  have hnames : variableNames orderSegments "/items/{item}" = ["id", "item"] := by decide +kernel
  have hseparated : Separated (orderSegments ++ ["/items/{item}"]) := by
    unfold Separated
    decide +kernel
  have hpath : path orderSegments "/items/{item}" = "orders/{id}/items/{item}" := by decide +kernel
  have hmarker : (Binding.of (variableNames orderSegments "/items/{item}")
      { name := "id", type := .simple "int" }).marker = "@PathVariable" := by
    rw [hnames]
    rfl
  obtain ⟨-, hroute, hsame⟩ := variableNames_agree orderSegments "/items/{item}"
  have hbraced := hroute _ hmarker
  have hnamed := hsame hseparated
  rw [hnames, hpath] at hnamed
  exact ⟨hnames, hbraced, hseparated, hnamed⟩

end ResourceStubs.Route
