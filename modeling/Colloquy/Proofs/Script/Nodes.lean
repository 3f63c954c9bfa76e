import Mathlib.Data.List.Induction
import Colloquy.Proofs.Script.Passages

/-!
# Nodes of passages

What the definitions of passages, tags and nodes amount to when a list of passages is taken apart
or made longer: where lines are cut, which tag the next node gets, and which nodes a list of
passages has.
-/

namespace Colloquy.Script

/-! ## Cuts -/

theorem passagesFrom_ne_nil (settings : Settings) (current : Passage) (lines : List Line) :
    passagesFrom settings current lines ≠ [] := by
  induction lines generalizing current with
  | nil => simp [passagesFrom]
  | cons line lines ih =>
    rw [passagesFrom]
    split
    · simp
    · exact ih _

/-- Nothing of the lines is lost when they are cut. -/
theorem flatten_passagesFrom (settings : Settings) (current : Passage) (lines : List Line) :
    (passagesFrom settings current lines).flatten = current ++ lines := by
  induction lines generalizing current with
  | nil => simp [passagesFrom]
  | cons line lines ih =>
    rw [passagesFrom]
    split
    · rw [List.flatten_cons, ih]
      rfl
    · rw [ih, List.append_assoc]
      rfl

/-- Every passage but the last has a speaker. -/
theorem speaker_isSome_of_mem_dropLast (settings : Settings) (current : Passage)
    (lines : List Line) :
    ∀ passage ∈ (passagesFrom settings current lines).dropLast,
      (Passage.speaker settings passage).isSome := by
  induction lines generalizing current with
  | nil => simp [passagesFrom]
  | cons line lines ih =>
    rw [passagesFrom]
    split
    · next hcut =>
      intro passage hmem
      rw [List.dropLast_cons_of_ne_nil (passagesFrom_ne_nil _ _ _), List.mem_cons] at hmem
      rcases hmem with rfl | hmem
      · simp only [Passage.endsBefore, Bool.and_eq_true] at hcut
        exact hcut.1
      · exact ih _ _ hmem
    · exact ih _

/-- The passages that stand for nodes are the closed ones, and the last one if it has content. -/
theorem contents_eq {settings : Settings} {text : String} {closed : List Passage}
    {passage : Passage}
    (hcuts : passages settings (countedLines settings text) = closed ++ [passage]) :
    contents settings text =
      closed ++ if Passage.hasContent settings passage then [passage] else [] := by
  have hclosed : ∀ p ∈ closed, Passage.hasContent settings p := by
    intro p hp
    have hspeaker := speaker_isSome_of_mem_dropLast settings [] (countedLines settings text) p
      (by rw [← passages, hcuts, List.dropLast_concat]; exact hp)
    simp [Passage.hasContent, hspeaker]
  rw [contents, hcuts, List.filter_append, List.filter_eq_self.mpr hclosed, List.filter_singleton]
  cases Passage.hasContent settings passage <;> rfl

/-- Every passage with content but the last has a speaker. -/
theorem speaker_isSome_of_mem_dropLast_contents {settings : Settings} {text : String}
    {passage : Passage} (hpassage : passage ∈ (contents settings text).dropLast) :
    (Passage.speaker settings passage).isSome := by
  have hcuts := (List.dropLast_concat_getLast
    (passagesFrom_ne_nil settings [] (countedLines settings text))).symm
  apply speaker_isSome_of_mem_dropLast settings [] (countedLines settings text)
  rw [contents_eq hcuts] at hpassage
  split at hpassage
  · rwa [List.dropLast_concat] at hpassage
  · rw [List.append_nil] at hpassage
    exact List.dropLast_subset _ hpassage

/-! ## Nodes of passages -/

/-- The tags that the nodes of some passages ask for by themselves. -/
def ownTags (settings : Settings) (passages : List Passage) : List (Option String) :=
  (passages.take settings.maxNodes.toNat).map (Passage.tag settings)

theorem map_fst_foldl_giveTag (owns : List (Option String))
    (given : List (Option String × String)) :
    (owns.foldl giveTag given).map (·.1) = given.map (·.1) ++ owns := by
  induction owns generalizing given with
  | nil => simp
  | cons own owns ih =>
    rw [List.foldl_cons, ih]
    simp [giveTag]

theorem giveTags_append_singleton (owns : List (Option String)) (own : Option String) :
    giveTags (owns ++ [own]) =
      giveTags owns ++ [freshTag (giveTags owns) (askedTag owns own)] := by
  have howns : (owns.foldl giveTag []).map (·.1) = owns := map_fst_foldl_giveTag owns []
  rw [giveTags, List.foldl_append, List.foldl_cons, List.foldl_nil, giveTag, howns,
    List.map_append, giveTags]
  rfl

/-- A property of the tags in a script and of the tags that are made up holds of all tags, if
numbering a tag keeps it. -/
theorem forall_mem_giveTags {P : String → Prop} {owns : List (Option String)}
    (hown : ∀ own ∈ owns, ∀ tag ∈ own, P tag) (hstart : P startTag) (hauto : ∀ n, P (autoTag n))
    (hnumbered : ∀ base n, P base → P (numbered base n)) :
    ∀ tag ∈ giveTags owns, P tag := by
  induction owns using List.reverseRecOn with
  | nil => simp [giveTags]
  | append_singleton owns own ih =>
    intro tag htag
    rw [giveTags_append_singleton, List.mem_append, List.mem_singleton] at htag
    rcases htag with htag | rfl
    · exact ih (fun o ho => hown o (List.mem_append_left _ ho)) tag htag
    · have hasked : P (askedTag owns own) := by
        unfold askedTag
        cases own with
        | some tag => exact hown (some tag) (by simp) tag rfl
        | none =>
          dsimp only
          split
          · exact hstart
          · exact hauto _
      unfold freshTag
      split
      · exact hnumbered _ _ hasked
      · exact hasked

@[simp] theorem length_giveTags (owns : List (Option String)) :
    (giveTags owns).length = owns.length := by
  have h := congrArg List.length (map_fst_foldl_giveTag owns [])
  simpa [giveTags] using h

theorem nodesOf_eq (settings : Settings) (passages : List Passage) :
    nodesOf settings passages =
      List.zipWith (Passage.node settings) (passages.take settings.maxNodes.toNat)
        (giveTags (ownTags settings passages)) := rfl

/-- The nodes, each made of a passage and of the tag that it got. -/
theorem nodesOf_eq_map_zip (settings : Settings) (passages : List Passage) :
    nodesOf settings passages =
      ((passages.take settings.maxNodes.toNat).zip (giveTags (ownTags settings passages))).map
        fun entry => Passage.node settings entry.1 entry.2 :=
  List.map_uncurry_zip_eq_zipWith.symm

@[simp] theorem length_nodesOf (settings : Settings) (passages : List Passage) :
    (nodesOf settings passages).length = (ownTags settings passages).length := by
  simp [nodesOf_eq, ownTags]

/-- What does not depend on the tag of a node can be read off its passage. -/
theorem map_nodesOf {α : Type} {settings : Settings} {f : Node → α} {g : Passage → α}
    (hfg : ∀ passage tag, f (Passage.node settings passage tag) = g passage)
    (passages : List Passage) :
    (nodesOf settings passages).map f = (passages.take settings.maxNodes.toNat).map g := by
  have hzip : ((passages.take settings.maxNodes.toNat).zip
      (giveTags (ownTags settings passages))).map Prod.fst =
        passages.take settings.maxNodes.toNat := List.map_fst_zip (by simp [ownTags])
  rw [nodesOf_eq_map_zip, List.map_map, ← hzip, List.map_map, hzip]
  exact List.map_congr_left fun entry _ => hfg entry.1 entry.2

/-- The nodes have the tags that were given to them. -/
theorem map_tag_nodesOf (settings : Settings) (passages : List Passage) :
    (nodesOf settings passages).map (·.tag) = giveTags (ownTags settings passages) := by
  have hzip : ((passages.take settings.maxNodes.toNat).zip
      (giveTags (ownTags settings passages))).map Prod.snd =
        giveTags (ownTags settings passages) := List.map_snd_zip (by simp [ownTags])
  rw [nodesOf_eq_map_zip, List.map_map]
  exact hzip

/-- A node comes from one of the passages and has one of the tags. -/
theorem exists_of_mem_nodesOf {settings : Settings} {passages : List Passage} {node : Node}
    (hnode : node ∈ nodesOf settings passages) :
    ∃ passage ∈ passages, ∃ tag ∈ giveTags (ownTags settings passages),
      node = Passage.node settings passage tag := by
  rw [nodesOf_eq_map_zip] at hnode
  obtain ⟨⟨passage, tag⟩, hmem, rfl⟩ := List.mem_map.mp hnode
  obtain ⟨hpassage, htag⟩ := List.of_mem_zip hmem
  exact ⟨passage, List.mem_of_mem_take hpassage, tag, htag, rfl⟩

/-- One more passage has no node if there are too many, and the next node otherwise. -/
theorem nodesOf_append_singleton (settings : Settings) (passages : List Passage)
    (passage : Passage) :
    nodesOf settings (passages ++ [passage]) =
      if isFull (nodesOf settings passages).length settings.maxNodes then nodesOf settings passages
      else nodesOf settings passages ++
        [Passage.node settings passage (freshTag ((nodesOf settings passages).map (·.tag))
          (askedTag (ownTags settings passages) (Passage.tag settings passage)))] := by
  rw [map_tag_nodesOf, length_nodesOf, ownTags, List.length_map]
  have htake := take_append_singleton passages passage settings.maxNodes
  by_cases hfull : isFull (passages.take settings.maxNodes.toNat).length settings.maxNodes
  · rw [if_pos hfull] at htake ⊢
    simp only [nodesOf_eq, ownTags, htake]
  · rw [if_neg hfull] at htake ⊢
    simp only [nodesOf_eq, ownTags, htake, List.map_append, List.map_cons, List.map_nil,
      giveTags_append_singleton]
    rw [List.zipWith_append (by simp)]
    rfl

theorem ownTags_append_singleton (settings : Settings) (passages : List Passage)
    (passage : Passage) :
    ownTags settings (passages ++ [passage]) =
      if isFull (nodesOf settings passages).length settings.maxNodes then ownTags settings passages
      else ownTags settings passages ++ [Passage.tag settings passage] := by
  rw [length_nodesOf, ownTags, ownTags, List.length_map, take_append_singleton]
  split
  · rfl
  · rw [List.map_append]
    rfl

end Colloquy.Script
