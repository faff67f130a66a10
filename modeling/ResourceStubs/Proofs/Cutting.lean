import Mathlib.Data.List.Basic

/-!
# Where a part of a text ends

Generated texts put parts one behind the other, without marks that could not occur in the parts
themselves. Whether the parts can be told apart again is a question of where each of them ends. All
answers here rest on one fact about lists: a list is cut in only one way into a part whose elements
have a property and a rest that does not go on with it (`append_inj_of_forall`). It is used for
characters, where the property is a class of characters, and for lines, where the property is how a
line starts (`Text.StartsWith`).
-/

namespace ResourceStubs

/-- Where a property of the elements ends, a list is cut in only one way. -/
lemma append_inj_of_forall {α : Type} {p : α → Prop} {xs ys rest rest' : List α}
    (hxs : ∀ x ∈ xs, p x) (hys : ∀ y ∈ ys, p y) (hrest : ∀ x ∈ rest.head?, ¬p x)
    (hrest' : ∀ y ∈ rest'.head?, ¬p y) (h : xs ++ rest = ys ++ rest') : xs = ys ∧ rest = rest' := by
  -- what one list has more of the property would be the start of the other rest
  have hnone : ∀ {more tail : List α}, (∀ x ∈ more, p x) → (∀ x ∈ (more ++ tail).head?, ¬p x) →
      more = [] := by
    intro more tail hmore htail
    by_contra hne
    obtain ⟨x, others, rfl⟩ := List.exists_cons_of_ne_nil hne
    exact htail x rfl (hmore x List.mem_cons_self)
  rcases List.append_eq_append_iff.1 h with ⟨more, rfl, rfl⟩ | ⟨more, rfl, rfl⟩
  · obtain rfl := hnone (fun x hx => hys x (List.mem_append_right _ hx)) hrest
    simp
  · obtain rfl := hnone (fun x hx => hxs x (List.mem_append_right _ hx)) hrest'
    simp

/-- The first element of a list in two parts is one of the first part, or the first one of the
second part. -/
lemma mem_or_eq_of_mem_head? {α : Type} {xs rest : List α} {x y : α}
    (h : x ∈ (xs ++ y :: rest).head?) :
    x ∈ xs ∨ x = y := by
  rw [List.head?_append] at h
  rcases Option.or_eq_some_iff.1 h with hx | ⟨-, hx⟩
  · exact .inl (List.mem_of_mem_head? hx)
  · exact .inr (Option.some.inj hx).symm

/-- The parts between separators hold the characters of the text, without the separator. -/
lemma mem_and_ne_of_mem_splitOn {a c : Char} {text part : List Char} (hpart : part ∈ text.splitOn a)
    (hc : c ∈ part) :
    c ∈ text ∧ c ≠ a := by
  induction text generalizing part with
  | nil =>
    rw [List.splitOn_nil, List.mem_singleton] at hpart
    rw [hpart] at hc
    cases hc
  | cons first rest ih =>
    rw [List.splitOn_cons_eq_if_modifyHead] at hpart
    split at hpart
    · rcases List.mem_cons.1 hpart with rfl | hpart
      · cases hc
      · obtain ⟨hmem, hne⟩ := ih hpart hc
        exact ⟨List.mem_cons_of_mem first hmem, hne⟩
    · rename_i hfirst
      obtain ⟨head, parts, hsplit⟩ := List.exists_cons_of_ne_nil (List.splitOn_ne_nil a rest)
      rw [hsplit] at hpart ih
      rcases List.mem_cons.1 hpart with rfl | hpart
      · rcases List.mem_cons.1 hc with rfl | hc
        · exact ⟨List.mem_cons_self, by simpa using hfirst⟩
        · obtain ⟨hmem, hne⟩ := ih List.mem_cons_self hc
          exact ⟨List.mem_cons_of_mem first hmem, hne⟩
      · obtain ⟨hmem, hne⟩ := ih (List.mem_cons_of_mem head hpart) hc
        exact ⟨List.mem_cons_of_mem first hmem, hne⟩

namespace Text

/-! ## How a text starts -/

/-- The text `s` starts with the text `start`. -/
def StartsWith (start s : String) : Prop :=
  start.toList <+: s.toList

instance (start s : String) : Decidable (StartsWith start s) :=
  inferInstanceAs (Decidable (start.toList <+: s.toList))

lemma startsWith_append (start rest : String) : StartsWith start (start ++ rest) := by
  rw [StartsWith, String.toList_append]
  exact List.prefix_append _ _

lemma StartsWith.append {start s : String} (h : StartsWith start s) (rest : String) :
    StartsWith start (s ++ rest) :=
  List.IsPrefix.trans h (startsWith_append s rest)

lemma StartsWith.trans {first start s : String} (h : StartsWith first start)
    (hs : StartsWith start s) :
    StartsWith first s :=
  List.IsPrefix.trans h hs

/-- A common indentation does not change how texts start. -/
lemma startsWith_indent_iff {indent start s : String} :
    StartsWith (indent ++ start) (indent ++ s) ↔ StartsWith start s := by
  rw [StartsWith, String.toList_append, String.toList_append, List.prefix_append_right_inj,
    StartsWith]

/-- A text has only one of two starts that do not continue each other. -/
lemma StartsWith.not_startsWith {start other s : String} (h : StartsWith start s)
    (hleft : ¬StartsWith start other) (hright : ¬StartsWith other start) : ¬StartsWith other s := by
  intro hother
  rcases List.prefix_or_prefix_of_prefix h hother with hprefix | hprefix
  · exact hleft hprefix
  · exact hright hprefix

/-! ## Lines -/

/-- The text stands on one line. -/
def OneLine (s : String) : Prop :=
  '\n' ∉ s.toList

instance (s : String) : Decidable (OneLine s) :=
  inferInstanceAs (Decidable ('\n' ∉ s.toList))

lemma oneLine_append {s t : String} : OneLine (s ++ t) ↔ OneLine s ∧ OneLine t := by
  simp only [OneLine, String.toList_append, List.mem_append, not_or]

/-- Lines can be read off a text in which each of them is closed by a line feed. -/
lemma eq_of_join_eq {xs ys : List String} (hxs : ∀ line ∈ xs, OneLine line)
    (hys : ∀ line ∈ ys, OneLine line)
    (h : String.join (xs.map (· ++ "\n")) = String.join (ys.map (· ++ "\n"))) : xs = ys := by
  have hbreak : "\n".toList = ['\n'] := rfl
  induction xs generalizing ys with
  | nil =>
    cases ys with
    | nil => rfl
    | cons y ys =>
      have hchars := congrArg String.toList h
      simp [hbreak] at hchars
  | cons x xs ih =>
    cases ys with
    | nil =>
      have hchars := congrArg String.toList h
      simp [hbreak] at hchars
    | cons y ys =>
      have hchars : x.toList ++ '\n' :: (String.join (xs.map (· ++ "\n"))).toList =
          y.toList ++ '\n' :: (String.join (ys.map (· ++ "\n"))).toList := by
        simpa [hbreak] using congrArg String.toList h
      have hplain : ∀ {line : String}, OneLine line → ∀ c ∈ line.toList, c ≠ '\n' := by
        intro line hline c hc
        exact ne_of_mem_of_not_mem hc hline
      obtain ⟨hfirst, hmore⟩ := append_inj_of_forall (hplain (hxs x List.mem_cons_self))
        (hplain (hys y List.mem_cons_self)) (by simp) (by simp) hchars
      obtain rfl := String.toList_inj.1 hfirst
      have hrest := ih (fun line hline => hxs line (List.mem_cons_of_mem _ hline))
        (fun line hline => hys line (List.mem_cons_of_mem _ hline))
          (String.toList_inj.1 (List.cons.inj hmore).2)
      rw [hrest]

end Text

end ResourceStubs
