import Mathlib.Data.List.Nodup
import Colloquy.Proofs.Script.Tagging

/-!
# Tags that a script gives

When the tag lines of a script name different tags, two blocks never ask for one tag by
themselves. A block can still find its tag taken: tags are given from the top of the script down,
and an earlier node may have got that one when it was made up or numbered. Only reserved tags can
be lost in this way.
-/

namespace Colloquy.Script

/-! ## Names on tag lines -/

/-- The names on the tag lines of a script. Indented lines name targets and do not belong to
them. -/
def tagNames (settings : Settings) (text : String) : List String :=
  (Passage.ofKind settings .tag (countedLines settings text)).map tagName

/-- The tags that passages have of their own stand on their tag lines. -/
theorem filterMap_tag_sublist (settings : Settings) (passages : List Passage) :
    (passages.filterMap (Passage.tag settings)).Sublist
      ((Passage.ofKind settings .tag passages.flatten).map tagName) := by
  induction passages with
  | nil => simp
  | cons passage passages ih =>
    have hpassage : (Passage.tag settings passage).toList.Sublist
        ((Passage.ofKind settings .tag passage).map tagName) := by
      rw [Passage.tag, ← List.getLast?_map]
      cases hlast : ((Passage.ofKind settings .tag passage).map tagName).getLast? with
      | none => exact List.nil_sublist _
      | some tag => exact List.singleton_sublist.mpr (List.mem_of_getLast? hlast)
    rw [List.flatten_cons, Passage.ofKind, List.filter_append, List.map_append]
    rw [List.filterMap_cons]
    cases htag : Passage.tag settings passage with
    | none => exact ih.trans (List.sublist_append_right _ _)
    | some tag =>
      rw [htag] at hpassage
      exact hpassage.append ih

/-- If the tag lines name different tags, no two nodes ask for one tag by themselves. -/
theorem ownTags_apart {settings : Settings} {text : String}
    (hdistinct : (tagNames settings text).Nodup) {i j : Nat} {tag : String}
    (hi : (ownTags settings (contents settings text))[i]? = some (some tag))
    (hj : (ownTags settings (contents settings text))[j]? = some (some tag)) : ¬ i < j := by
  intro hlt
  have hlines :
      (passages settings (countedLines settings text)).flatten = countedLines settings text :=
    flatten_passagesFrom settings [] _
  have hsublist := filterMap_tag_sublist settings (passages settings (countedLines settings text))
  have hkept : ((contents settings text).take settings.maxNodes.toNat).Sublist
      (passages settings (countedLines settings text)) :=
    (List.take_sublist _ _).trans List.filter_sublist
  rw [hlines] at hsublist
  have hnodup := ((hkept.filterMap (Passage.tag settings)).trans hsublist).nodup hdistinct
  rw [List.Nodup, List.pairwise_filterMap, List.pairwise_iff_getElem] at hnodup
  rw [ownTags, List.getElem?_map, Option.map_eq_some_iff] at hi hj
  obtain ⟨first, hfirst, hfirstTag⟩ := hi
  obtain ⟨second, hsecond, hsecondTag⟩ := hj
  obtain ⟨hilt, rfl⟩ := List.getElem?_eq_some_iff.mp hfirst
  obtain ⟨hjlt, rfl⟩ := List.getElem?_eq_some_iff.mp hsecond
  exact hnodup i j hilt hjlt hlt tag hfirstTag tag hsecondTag rfl

/-! ## Tags one by one -/

theorem Tagged.length {owns : List (Option String)} {tags : List String}
    {renamed : List (String × String)} (h : Tagged owns tags renamed) :
    tags.length = owns.length := by
  induction h with
  | nil => rfl
  | keep own earlier hnew ih => simp [ih]
  | rename own earlier htaken hnumber ih => simp [ih]

/-- A member of a list that was made longer by one was there before, or is the last one. -/
theorem of_getElem?_concat {α : Type} {l : List α} {x y : α} {i : Nat}
    (h : (l ++ [x])[i]? = some y) :
    (i < l.length ∧ l[i]? = some y) ∨ (i = l.length ∧ x = y) := by
  rcases Nat.lt_or_ge i l.length with hi | hi
  · rw [List.getElem?_append_left hi] at h
    exact .inl ⟨hi, h⟩
  · rw [List.getElem?_append_right hi, List.getElem?_singleton] at h
    split at h
    · exact .inr ⟨by omega, Option.some.inj h⟩
    · cases h

/-- What a node asks for and what it gets. -/
theorem Tagged.at {owns : List (Option String)} {tags : List String}
    {renamed : List (String × String)} (h : Tagged owns tags renamed) {i : Nat}
    {own : Option String} (hown : owns[i]? = some own) :
    let asked := askedTag (owns.take i) own
    (asked ∉ tags.take i ∧ tags[i]? = some asked) ∨
      asked ∈ tags.take i ∧ ∃ number, LeastFree (tags.take i) asked number ∧
        tags[i]? = some (numbered asked number) ∧ (asked, numbered asked number) ∈ renamed := by
  induction h with
  | nil => simp at hown
  | @keep owns tags renamed last earlier hnew ih =>
    have hlength := earlier.length
    rcases of_getElem?_concat hown with ⟨hi, hown⟩ | ⟨rfl, rfl⟩
    · rw [List.take_append_of_le_length (by omega), List.take_append_of_le_length (by omega),
        List.getElem?_append_left (by omega)]
      exact ih hown
    · left
      rw [List.take_left, ← hlength, List.take_left, List.getElem?_concat_length]
      exact ⟨hnew, rfl⟩
  | @rename owns tags renamed last earlier htaken number hnumber ih =>
    have hlength := earlier.length
    rcases of_getElem?_concat hown with ⟨hi, hown⟩ | ⟨rfl, rfl⟩
    · rw [List.take_append_of_le_length (by omega), List.take_append_of_le_length (by omega),
        List.getElem?_append_left (by omega)]
      refine (ih hown).imp id ?_
      rintro ⟨hmem, number, hleast, htag, hrenamed⟩
      exact ⟨hmem, number, hleast, htag, List.mem_append_left _ hrenamed⟩
    · right
      rw [List.take_left, ← hlength, List.take_left, List.getElem?_concat_length]
      exact ⟨htaken, number, hnumber, rfl, List.mem_append_right _ List.mem_cons_self⟩

/-! ## Reserved tags -/

/-- The tags that are made up, and these with any numbers put to them. -/
inductive Reserved : String → Prop
  | start : Reserved startTag
  | auto (n : Nat) : Reserved (autoTag n)
  | numbered {tag : String} (h : Reserved tag) (n : Nat) : Reserved (numbered tag n)

theorem reserved_askedTag (earlier : List (Option String)) : Reserved (askedTag earlier none) := by
  unfold askedTag
  dsimp only
  split
  · exact .start
  · exact .auto _

theorem exists_of_mem_take {α : Type} {l : List α} {x : α} {n : Nat} (h : x ∈ l.take n) :
    ∃ j < n, l[j]? = some x := by
  obtain ⟨j, hj, rfl⟩ := List.mem_take_iff_getElem.mp h
  exact ⟨j, by omega, List.getElem?_eq_getElem (by omega)⟩

/-- A tag is reserved, unless it is the one that the block of its node has of its own: a block
with another tag of its own was numbered because its tag was taken, and it was taken by a node
that came by it in one of these ways. -/
theorem own_or_reserved {settings : Settings} {text : String}
    (hdistinct : (tagNames settings text).Nodup) {i : Nat} {tag : String}
    (htag : (compile settings text).graph.tags[i]? = some tag) :
    (ownTags settings (contents settings text))[i]? = some (some tag) ∨ Reserved tag := by
  have htagged := tagged_compile settings text
  rw [← tags_compile] at htagged
  induction i using Nat.strongRecOn generalizing tag with
  | ind i ih =>
    have hlt : i < (ownTags settings (contents settings text)).length := by
      rw [← htagged.length]
      exact (List.getElem?_eq_some_iff.mp htag).1
    obtain ⟨own, hown⟩ : ∃ own, (ownTags settings (contents settings text))[i]? = some own :=
      ⟨_, List.getElem?_eq_getElem hlt⟩
    rcases htagged.at hown with ⟨-, hkept⟩ | ⟨htaken, number, -, hnumbered, -⟩
    · rw [htag, Option.some.injEq] at hkept
      cases own with
      | none =>
        rw [hkept]
        exact .inr (reserved_askedTag _)
      | some own =>
        left
        rw [hown, hkept]
        rfl
    · rw [htag, Option.some.injEq] at hnumbered
      rw [hnumbered]
      right
      refine .numbered ?_ number
      cases own with
      | none => exact reserved_askedTag _
      | some own =>
        obtain ⟨j, hj, hholder⟩ := exists_of_mem_take htaken
        exact (ih j hj hholder).resolve_left fun hsame => ownTags_apart hdistinct hsame hown hj

/-- Among different tags in a script, one that a node has of its own is kept, unless an earlier
node that the script does not give this tag has got it already. That happens to reserved tags
only, and the tag is then numbered, with a warning. -/
theorem kept_or_numbered {settings : Settings} {text : String}
    (hdistinct : (tagNames settings text).Nodup) {i : Nat} {tag : String}
    (hown : (ownTags settings (contents settings text))[i]? = some (some tag)) :
    let owns := ownTags settings (contents settings text)
    let compiled := compile settings text
    let tags := compiled.graph.tags
    (tag ∉ tags.take i ∧ tags[i]? = some tag) ∨
      (Reserved tag ∧ (∃ j < i, tags[j]? = some tag ∧ owns[j]? ≠ some (some tag)) ∧
        ∃ number, LeastFree (tags.take i) tag number ∧ tags[i]? = some (numbered tag number) ∧
          (tag, numbered tag number) ∈ renamings compiled.warnings) := by
  intro owns compiled tags
  have htagged : Tagged owns tags (renamings compiled.warnings) := by
    have h := tagged_compile settings text
    rwa [← tags_compile] at h
  rcases htagged.at hown with hkept | ⟨htaken, hnumbered⟩
  · exact .inl hkept
  · obtain ⟨j, hj, hholder⟩ := exists_of_mem_take htaken
    have hother : owns[j]? ≠ some (some tag) := fun hsame => ownTags_apart hdistinct hsame hown hj
    have hreserved := (own_or_reserved hdistinct hholder).resolve_left hother
    exact .inr ⟨hreserved, ⟨j, hj, hholder, hother⟩, hnumbered⟩

end Colloquy.Script
