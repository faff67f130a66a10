import Mathlib.Data.List.Induction
import Mathlib.Data.List.Nodup
import Mathlib.Data.List.Perm.Basic
import ResourceStubs.Annotation

/-!
# Argument maps

The arguments of an annotation are kept as a list in the order of their keys. So a map is determined
by its entries, a list of entries in order is the map of these entries (`ArgMap.ofList_entries`),
and entries with distinct keys give the same map in whatever order they are set
(`ArgMap.ofList_perm`): the entries themselves, sorted (`ArgMap.perm_entries_ofList`).
-/

namespace ResourceStubs

/-! ## Entries in order -/

lemma ArgMap.ext {m m' : ArgMap} (h : m.entries = m'.entries) : m = m' := by
  cases m
  cases m'
  cases h
  rfl

lemma insertEntry_of_lt {key : String} {value : Literal} {entries : List (String × Literal)}
    (h : ∀ e ∈ entries, e.1 < key) : insertEntry key value entries = entries ++ [(key, value)] := by
  induction entries with
  | nil => rfl
  | cons e entries ih =>
    have hlt : e.1 < key := h e List.mem_cons_self
    have hmore := ih fun d hd => h d (List.mem_cons_of_mem e hd)
    rw [insertEntry, if_neg (String.lt_asymm hlt), if_pos hlt, hmore, List.cons_append]

/-- A map is the map of its entries. -/
lemma ArgMap.ofList_entries (m : ArgMap) : ArgMap.ofList m.entries = m := by
  -- entries that are in order are added at the end, one after the other
  have hfold (rest : List (String × Literal)) (start : ArgMap)
      (hsorted : (start.entries ++ rest).Pairwise fun a b => a.1 < b.1) :
      (rest.foldl (fun m e => m.insert e.1 e.2) start).entries = start.entries ++ rest := by
    induction rest generalizing start with
    | nil => simp
    | cons e rest ih =>
      have hlt : ∀ d ∈ start.entries, d.1 < e.1 := fun d hd =>
        (List.pairwise_append.1 hsorted).2.2 d hd e List.mem_cons_self
      have hinsert : (start.insert e.1 e.2).entries = start.entries ++ [e] := insertEntry_of_lt hlt
      have happend : start.entries ++ e :: rest = (start.insert e.1 e.2).entries ++ rest := by
        rw [hinsert, List.append_assoc, List.singleton_append]
      rw [happend] at hsorted ⊢
      exact ih _ hsorted
  have hentries : (ArgMap.ofList m.entries).entries = m.entries :=
    hfold m.entries ArgMap.empty m.sorted
  exact ArgMap.ext hentries

/-! ## Entries in any order -/

lemma insertEntry_comm_of_lt {key key' : String} (hlt : key < key') (value value' : Literal)
    (entries : List (String × Literal)) :
    insertEntry key value (insertEntry key' value' entries) =
      insertEntry key' value' (insertEntry key value entries) := by
  have hge : ¬key' < key := String.lt_asymm hlt
  induction entries with
  | nil => simp [insertEntry, hlt, hge]
  | cons e entries ih =>
    obtain ⟨k, v⟩ := e
    by_cases hbefore : key < k
    · by_cases hbefore' : key' < k
      · simp [insertEntry, hlt, hge, hbefore, hbefore']
      · by_cases hafter' : k < key' <;> simp [insertEntry, hlt, hge, hbefore, hbefore', hafter']
    · by_cases hafter : k < key
      · have hafter' : k < key' := String.lt_trans hafter hlt
        simp [insertEntry, hbefore, hafter, hafter', String.lt_asymm hafter', ih]
      · -- neither key is smaller, so the first one replaces the entry
        obtain rfl : key = k :=
          String.le_antisymm (String.not_lt.1 hafter) (String.not_lt.1 hbefore)
        simp [insertEntry, hlt, hge]

lemma insertEntry_comm {key key' : String} (hkeys : key ≠ key') (value value' : Literal)
    (entries : List (String × Literal)) :
    insertEntry key value (insertEntry key' value' entries) =
      insertEntry key' value' (insertEntry key value entries) := by
  by_cases hlt : key < key'
  · exact insertEntry_comm_of_lt hlt value value' entries
  · have hgt : key' < key := by
      by_contra hge
      exact hkeys (String.le_antisymm (String.not_lt.1 hge) (String.not_lt.1 hlt))
    exact (insertEntry_comm_of_lt hgt value' value entries).symm

/-- Entries with distinct keys can be set in any order. -/
lemma ArgMap.ofList_perm {entries entries' : List (String × Literal)}
    (hkeys : (entries.map (·.1)).Nodup) (h : entries.Perm entries') :
    ArgMap.ofList entries = ArgMap.ofList entries' := by
  refine h.foldl_eq' ?_ ArgMap.empty
  intro e he e' he' m
  by_cases hsame : e.1 = e'.1
  · rw [List.inj_on_of_nodup_map hkeys he he' hsame]
  · exact ArgMap.ext (insertEntry_comm (Ne.symm hsame) e'.2 e.2 m.entries)

/-- Setting a new key adds one entry. -/
lemma perm_insertEntry {key : String} {value : Literal} {entries : List (String × Literal)}
    (h : ∀ e ∈ entries, e.1 ≠ key) :
    (insertEntry key value entries).Perm ((key, value) :: entries) := by
  induction entries with
  | nil => exact .refl _
  | cons e entries ih =>
    unfold insertEntry
    split
    · exact .refl _
    · rename_i hge
      split
      · have hmore := ih fun d hd => h d (List.mem_cons_of_mem e hd)
        exact (hmore.cons e).trans (.swap _ _ _)
      · rename_i hle
        exact absurd (String.le_antisymm (String.not_lt.1 hge) (String.not_lt.1 hle))
          (h e List.mem_cons_self)

/-- Entries with distinct keys are all kept. -/
lemma ArgMap.perm_entries_ofList {entries : List (String × Literal)}
    (hkeys : (entries.map (·.1)).Nodup) :
    (ArgMap.ofList entries).entries.Perm entries := by
  induction entries using List.reverseRecOn with
  | nil => exact .refl _
  | append_singleton entries e ih =>
    rw [List.map_append, List.nodup_append] at hkeys
    obtain ⟨hbefore, -, hnew⟩ := hkeys
    have hentries := ih hbefore
    have hfresh : ∀ d ∈ (ArgMap.ofList entries).entries, d.1 ≠ e.1 := by
      intro d hd
      exact hnew _ (List.mem_map_of_mem (hentries.mem_iff.1 hd)) _ (by simp)
    have hlast : ArgMap.ofList (entries ++ [e]) = (ArgMap.ofList entries).insert e.1 e.2 := by
      rw [ArgMap.ofList, List.foldl_append]
      rfl
    rw [hlast]
    exact (perm_insertEntry hfresh).trans
      ((hentries.cons e).trans (List.perm_append_singleton e entries).symm)

end ResourceStubs
