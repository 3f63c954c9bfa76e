import Colloquy.Files.Path
import Mathlib.Data.String.Basic

/-!
# File names and their stems

A suffix that is put behind a word comes off again. So the name of a file with a suffix is the
stem with the suffix behind it, but for the name that is nothing else than the suffix, which is
its own stem.
-/

namespace Colloquy.Files.Path

theorem splitName_fst_ne_empty {name : String} (h : name ≠ "") : (splitName name).1 ≠ "" := by
  unfold splitName
  dsimp only
  split
  · exact h
  · next hparts =>
    simp only [Bool.or_eq_true, not_or] at hparts
    simpa using hparts.2

/-- A dot and a word without dots come off as the suffix. -/
theorem splitName_append {stem word : String} (hstem : stem ≠ "") (hword : word ≠ "")
    (hdot : '.' ∉ word.toList) : splitName (stem ++ ("." ++ word)) = (stem, "." ++ word) := by
  have hchars : (stem ++ ("." ++ word)).toList = stem.toList ++ '.' :: word.toList := by
    simp
  have htail :
      (stem.toList ++ '.' :: word.toList).reverse.takeWhile (· != '.') = word.toList.reverse := by
    rw [List.reverse_append, List.reverse_cons, List.append_assoc, List.takeWhile_append_of_pos,
      List.singleton_append, List.takeWhile_cons_of_neg (by simp), List.append_nil]
    intro c hc
    simpa using fun h : c = '.' => hdot (h ▸ List.mem_reverse.1 hc)
  have hrest :
      ((stem.toList ++ '.' :: word.toList).reverse.drop (word.toList.reverse.length + 1)).reverse =
      stem.toList := by
    rw [List.reverse_append, List.reverse_cons, List.drop_left' (by simp), List.reverse_reverse]
  have hparts : ¬ ((word.toList.reverse.length == (stem.toList ++ '.' :: word.toList).length ||
      word.toList.reverse.isEmpty || stem.toList.isEmpty) = true) := by
    simp [hstem, hword]
    omega
  unfold splitName
  dsimp only
  rw [hchars, htail, hrest, if_neg hparts]
  simp

/-- A name that ends in a dot and a word is its stem with these behind it, or nothing else than
these. -/
theorem name_of_suffix {name word : String} (hword : word ≠ "") (hdot : '.' ∉ word.toList)
    (hsuffix : ("." ++ word).toList.isSuffixOf name.toList = true) :
    name = (splitName name).1 ++ ("." ++ word) ∨ name = "." ++ word := by
  obtain ⟨cs, hcs⟩ := List.isSuffixOf_iff_suffix.1 hsuffix
  have hname : name = String.ofList cs ++ ("." ++ word) := by
    rw [String.ext_iff, ← hcs]
    simp
  by_cases hempty : String.ofList cs = ""
  · rw [hempty, String.empty_append] at hname
    exact .inr hname
  · left
    rw [hname, splitName_append hempty hword hdot]

/-- A name with a suffix is not the one of the directory above. -/
theorem ne_dots_of_suffix {name suffix : String} (hlength : 2 < suffix.length)
    (h : suffix.toList.isSuffixOf name.toList = true) : name ≠ ".." := by
  rintro rfl
  have hle := (List.isSuffixOf_iff_suffix.1 h).length_le
  rw [String.length_toList] at hle
  exact absurd hle (Nat.not_le.2 hlength)

theorem stem_child (path : Path) (name : String) : (path.child name).stem = (splitName name).1 := by
  simp [stem, Path.name, child]

end Colloquy.Files.Path
