import Mathlib.Data.List.Basic
import ResourceStubs.Path

/-!
# Joining paths

Paths are texts, and what they mean is read off the names between their slashes. Joining a relative
path adds its names at the end, for every text that the directory may be: empty, absolute, with or
without a slash at its end. A text that names one entry is the case of a single name.
-/

namespace ResourceStubs.Path

/-- A text that names one entry of a directory. -/
structure IsEntryName (name : String) : Prop where
  nonempty : name ≠ ""
  noSlash : '/' ∉ name.toList
  notDot : name ≠ "."
  notDots : name ≠ ".."

@[simp] lemma names_empty : names "" = [] := rfl

/-- A relative path without names is empty. -/
lemma eq_empty_of_names_eq_nil {path : String} (hnames : names path = [])
    (hrelative : isAbsolute path = false) :
    path = "" := by
  cases hpath : path.toList with
  | nil => exact String.toList_inj.1 hpath
  | cons c rest =>
    have hc : (c == '/') = false := by simpa [isAbsolute, hpath] using hrelative
    obtain ⟨first, others, hsplit⟩ := List.exists_cons_of_ne_nil (List.splitOn_ne_nil '/' rest)
    rw [names, hpath, List.splitOn_cons_eq_if_modifyHead, hc, hsplit] at hnames
    simp at hnames

lemma names_append_slash (base rest : String) :
    names (base ++ "/" ++ rest) = names base ++ names rest := by
  have hslash : "/".toList = ['/'] := rfl
  simp only [names, String.toList_append, hslash, List.append_assoc, List.singleton_append,
    List.splitOn_append_cons_self, List.filter_append, List.map_append]

lemma IsEntryName.toList_ne_nil {name : String} (h : IsEntryName name) : name.toList ≠ [] := by
  intro hnil
  exact h.nonempty (String.toList_inj.1 hnil)

lemma names_of_isEntryName {name : String} (h : IsEntryName name) : names name = [name] := by
  rw [names, List.splitOn_eq_singleton h.noSlash]
  simp [h.toList_ne_nil]

lemma IsEntryName.isAbsolute_eq_false {name : String} (h : IsEntryName name) :
    isAbsolute name = false := by
  have hslash := h.noSlash
  cases hname : name.toList with
  | nil => simp [isAbsolute, hname]
  | cons c rest =>
    rw [hname, List.mem_cons, not_or] at hslash
    simp [isAbsolute, hname, Ne.symm hslash.1]

lemma join_of_relative {base path : String} (h : isAbsolute path = false) :
    join base path =
      if base.isEmpty || endsWithSlash base then base ++ path else base ++ "/" ++ path := by
  rw [join, h, if_neg Bool.false_ne_true]

lemma exists_base_of_endsWithSlash {path : String} (h : endsWithSlash path = true) :
    ∃ base, path = base ++ "/" := by
  have hlast : path.toList.getLast? = some '/' := by simpa [endsWithSlash] using h
  obtain ⟨base, hbase⟩ := List.getLast?_eq_some_iff.1 hlast
  refine ⟨String.ofList base, String.toList_inj.1 ?_⟩
  rw [String.toList_append, String.toList_ofList, hbase]
  rfl

lemma isAbsolute_append {base : String} (h : base ≠ "") (rest : String) :
    isAbsolute (base ++ rest) = isAbsolute base := by
  have hne : base.toList ≠ [] := fun hnil => h (String.toList_inj.1 hnil)
  rw [isAbsolute, isAbsolute, String.toList_append, List.head?_append_of_ne_nil _ hne]

lemma endsWithSlash_append {name : String} (h : IsEntryName name) (base : String) :
    endsWithSlash (base ++ name) = false := by
  rw [endsWithSlash, String.toList_append, List.getLast?_append_of_ne_nil _ h.toList_ne_nil]
  have hlast : name.toList.getLast? ≠ some '/' :=
    fun hlast => h.noSlash (List.mem_of_getLast? hlast)
  simpa using hlast

/-- Joining a relative path adds its names at the end. -/
lemma names_join_of_relative {base path : String} (h : isAbsolute path = false) :
    names (join base path) = names base ++ names path := by
  rw [join_of_relative h]
  split
  · rename_i hcase
    rcases Bool.or_eq_true_iff.1 hcase with hempty | hslash
    · obtain rfl : base = "" := by simpa using hempty
      simp
    · obtain ⟨start, rfl⟩ := exists_base_of_endsWithSlash hslash
      have hstart : names (start ++ "/") = names start := by simpa using names_append_slash start ""
      rw [names_append_slash, hstart]
  · exact names_append_slash base path

lemma isAbsolute_join_of_relative {base path : String} (h : isAbsolute path = false) :
    isAbsolute (join base path) = isAbsolute base := by
  by_cases hbase : base = ""
  · subst hbase
    rw [join_of_relative h]
    simpa [isAbsolute] using h
  · rw [join_of_relative h]
    split
    · exact isAbsolute_append hbase path
    · rw [String.append_assoc]
      exact isAbsolute_append hbase _

lemma names_join {dir name : String} (h : IsEntryName name) :
    names (join dir name) = names dir ++ [name] := by
  rw [names_join_of_relative h.isAbsolute_eq_false, names_of_isEntryName h]

lemma isAbsolute_join {dir name : String} (h : IsEntryName name) :
    isAbsolute (join dir name) = isAbsolute dir :=
  isAbsolute_join_of_relative h.isAbsolute_eq_false

/-- Joining the name of an entry adds one component, whatever the directory looks like. -/
lemma components_join {dir name : String} (h : IsEntryName name) :
    components (join dir name) = components dir ++ [.name name] := by
  have hname : Component.ofName name = some (.name name) := by
    rw [Component.ofName, if_neg h.notDot, if_neg h.notDots]
  have hnames : (names dir ++ [name]).filterMap Component.ofName =
      (names dir).filterMap Component.ofName ++ [.name name] := by
    rw [List.filterMap_append, List.filterMap_cons_some hname, List.filterMap_nil]
  -- a dot at the start counts as a component, and joining neither adds nor hides one
  have hstart : (names dir ++ [name]).head? = some "." ↔ (names dir).head? = some "." := by
    rw [List.head?_append]
    cases (names dir).head? with
    | none => simpa using h.notDot
    | some first => rfl
  unfold components
  dsimp only
  rw [isAbsolute_join h, names_join h, hnames, ← List.append_assoc]
  simp only [hstart]

lemma endsWithSlash_join {dir name : String} (h : IsEntryName name) :
    endsWithSlash (join dir name) = false := by
  rw [join_of_relative h.isAbsolute_eq_false]
  split <;> exact endsWithSlash_append h _

end ResourceStubs.Path
