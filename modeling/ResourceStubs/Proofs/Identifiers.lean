import Mathlib.Data.List.Basic
import ResourceStubs.Controller
import ResourceStubs.Proofs.Paths

/-!
# Generated names

Names are made from paths of any text, yet what comes out is plain: only letters, digits and
underscores. File names rest on this. A class is written to a single entry of the output directory,
whatever its path says.
-/

namespace ResourceStubs

namespace Text

lemma isNameChar_nameChar (c : Char) : isNameChar (nameChar c) = true := by
  unfold nameChar
  split
  · assumption
  · decide

lemma isNameChar_of_mem_identifierList {cs : List Char} {c : Char} (h : c ∈ identifierList cs) :
    isNameChar c = true := by
  have hmapped : ∀ d ∈ cs.map nameChar, isNameChar d = true := by
    intro d hd
    obtain ⟨e, -, rfl⟩ := List.mem_map.1 hd
    exact isNameChar_nameChar e
  have hunderscore : isNameChar '_' = true := by decide
  unfold identifierList at h
  split at h
  · obtain rfl := List.mem_singleton.1 h
    exact hunderscore
  · rename_i d rest heq
    rw [heq] at hmapped
    split at h
    · exact hmapped c h
    · rcases List.mem_cons.1 h with rfl | h
      · exact hunderscore
      · exact hmapped c h

lemma isNameChar_of_mem_className {path : String} {c : Char} (h : c ∈ (className path).toList) :
    isNameChar c = true := by
  rw [className, identifier, String.toList_append, String.toList_ofList, List.mem_append] at h
  rcases h with h | h
  · exact isNameChar_of_mem_identifierList h
  · have hsuffix : "Controller".toList.all isNameChar = true := rfl
    exact List.all_eq_true.1 hsuffix c h

end Text

/-- The file of a class is one entry of its directory. -/
lemma Controller.isEntryName_fileName {c : Controller} {path : String}
    (h : c.className = Text.className path) :
    Path.IsEntryName c.fileName := by
  have hchar : ∀ d ∈ c.className.toList, Text.isNameChar d = true := by
    intro d hd
    rw [h] at hd
    exact Text.isNameChar_of_mem_className hd
  have hlast : c.fileName.toList.getLast? = some 'a' := by
    rw [fileName, String.toList_append]
    exact List.getLast?_append_of_ne_nil _ (by decide)
  refine ⟨?_, ?_, ?_, ?_⟩
  · intro hname
    simp [hname] at hlast
  · intro hslash
    rw [fileName, String.toList_append, List.mem_append] at hslash
    rcases hslash with hslash | hslash
    · exact absurd (hchar _ hslash) (by decide)
    · exact absurd hslash (by decide)
  · intro hname
    simp [hname] at hlast
  · intro hname
    simp [hname] at hlast

end ResourceStubs
