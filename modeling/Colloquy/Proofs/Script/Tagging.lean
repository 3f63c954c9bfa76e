import Colloquy.Proofs.Script.Reading

/-!
# How nodes get their tags

A node asks for the tag that its block has of its own, or for one that is made up. It gets what it
asks for, unless an earlier node has that tag; then the tag is numbered, and there is a warning.
`Tagged` says this of all nodes of a graph, one after the other, together with the warnings.
-/

namespace Colloquy.Script

/-! ## Numbers that make a tag new -/

/-- The least number, counted from one, that makes a tag new. -/
structure LeastFree (used : List String) (base : String) (number : Nat) : Prop where
  pos : 1 ≤ number
  free : numbered base number ∉ used
  least : ∀ k, 1 ≤ k → k < number → numbered base k ∈ used

/-- The search for a number ends, and it ends at the least one. -/
theorem leastFree_freshNumber (used : List String) (base : String) :
    LeastFree used base (freshNumber used base) := by
  have found : freshNumber? used base = some (freshNumber used base) := by simp [freshNumber]
  rw [freshNumber?_eq_find?, candidates, List.find?_map, Option.map_eq_some_iff] at found
  obtain ⟨n, hn, hsucc⟩ := found
  obtain ⟨hfree, -, hleast⟩ := List.find?_range_eq_some.mp hn
  rw [← hsucc]
  refine ⟨by omega, by simpa using hfree, fun k hpos hk => ?_⟩
  obtain ⟨j, rfl⟩ : ∃ j, k = j + 1 := ⟨k - 1, by omega⟩
  simpa using hleast j (by omega)

theorem freshTag_of_mem {used : List String} {base : String} (h : base ∈ used) :
    freshTag used base = numbered base (freshNumber used base) :=
  if_pos h

theorem freshTag_of_not_mem {used : List String} {base : String} (h : base ∉ used) :
    freshTag used base = base :=
  if_neg h

/-! ## Tags and renamings -/

/-- The tag that was taken and the one that was given instead of it, if a complaint is about
that. -/
def Complaint.renamed? : Complaint → Option (String × String)
  | .tagTaken tag renamed => some (tag, renamed)
  | _ => none

/-- The tags that were taken, each with the one that was given instead of it, in the order of the
warnings. -/
def renamings (warnings : List Warning) : List (String × String) :=
  warnings.filterMap (·.complaint.renamed?)

/-- Which tags nodes get, and what is warned about. The nodes are known by the tags that their
blocks have of their own, if any. -/
inductive Tagged : List (Option String) → List String → List (String × String) → Prop
  | nil : Tagged [] [] []
  /-- A tag that no earlier node has is given as it is. -/
  | keep {owns : List (Option String)} {tags : List String} {renamed : List (String × String)}
    (own : Option String) (earlier : Tagged owns tags renamed) (hnew : askedTag owns own ∉ tags) :
    Tagged (owns ++ [own]) (tags ++ [askedTag owns own]) renamed
  /-- Another tag gets the least number that makes it new, with one warning. -/
  | rename {owns : List (Option String)} {tags : List String} {renamed : List (String × String)}
    (own : Option String) (earlier : Tagged owns tags renamed) (htaken : askedTag owns own ∈ tags)
    {number : Nat} (hnumber : LeastFree tags (askedTag owns own) number) :
    Tagged (owns ++ [own]) (tags ++ [numbered (askedTag owns own) number])
      (renamed ++ [(askedTag owns own, numbered (askedTag owns own) number)])

/-- One more node gets its tag. -/
theorem Tagged.give {owns : List (Option String)} {tags : List String}
    {renamed : List (String × String)} (h : Tagged owns tags renamed) (own : Option String) :
    let asked := askedTag owns own
    let given := freshTag tags asked
    Tagged (owns ++ [own]) (tags ++ [given])
      (renamed ++ if given = asked then [] else [(asked, given)]) := by
  intro asked given
  by_cases htaken : asked ∈ tags
  · have hgiven : given = numbered asked (freshNumber tags asked) := freshTag_of_mem htaken
    have hne : given ≠ asked := (ne_of_mem_of_not_mem htaken (freshTag_not_mem tags asked)).symm
    rw [if_neg hne, hgiven]
    exact h.rename own htaken (leastFree_freshNumber tags asked)
  · have hgiven : given = asked := freshTag_of_not_mem htaken
    rw [if_pos hgiven, hgiven, List.append_nil]
    exact h.keep own htaken

/-- The tags of some nodes do not depend on the nodes after them. -/
theorem giveTags_take (owns : List (Option String)) (count : Nat) :
    giveTags (owns.take count) = (giveTags owns).take count := by
  have hprefix :
      ∀ front back : List (Option String), giveTags front <+: giveTags (front ++ back) := by
    intro front back
    induction back using List.reverseRecOn with
    | nil => simp
    | append_singleton back own ih =>
      rw [← List.append_assoc, giveTags_append_singleton]
      exact ih.trans (List.prefix_append _ _)
  have h := hprefix (owns.take count) (owns.drop count)
  rw [List.take_append_drop, List.prefix_iff_eq_take, length_giveTags, List.length_take,
    ← length_giveTags owns, ← List.take_eq_take_min] at h
  exact h

/-! ## Renamings along a run -/

section Steps

variable {settings : Settings} {closed : List Passage} {passage : Passage} {draft : Draft}
  {place : Place} {line : Line}

theorem renamings_append (warnings : List Warning) (place : Place) (complaints : List Complaint) :
    renamings (warnings ++ complaints.map (⟨place, ·⟩)) =
      renamings warnings ++ complaints.filterMap Complaint.renamed? := by
  rw [renamings, List.filterMap_append, List.filterMap_map, renamings]
  rfl

theorem renamed?_labelComplaints (block : Block) :
    block.labelComplaints.filterMap Complaint.renamed? = [] := by
  unfold Block.labelComplaints
  cases block.label <;> rfl

/-- No line by itself is about a tag that is taken. -/
theorem renamed?_complaints (block : Block) (line : Line) :
    (block.complaints settings line).filterMap Complaint.renamed? = [] := by
  have htag : (tagComplaints line).filterMap Complaint.renamed? = [] := by
    unfold tagComplaints
    split <;> rfl
  have hlength : (lengthComplaints settings line).filterMap Complaint.renamed? = [] := by
    unfold lengthComplaints
    split <;> rfl
  have htarget : ∀ target,
      (block.targetComplaints settings target).filterMap Complaint.renamed? = [] := by
    intro target
    unfold Block.targetComplaints
    repeat' split
    all_goals rfl
  unfold Block.complaints
  cases settings.kind line with
  | blank | comment => rfl
  | speaker =>
    dsimp only [speakerComplaints]
    split <;> rfl
  | tag => cases block.tag <;> simp [htag, Complaint.renamed?]
  | command =>
    dsimp only [Block.commandComplaints]
    repeat' split
    all_goals rfl
  | speech => exact hlength
  | choice =>
    dsimp only [Block.rowComplaints]
    cases Line.innerKind line with
    | tag => simp [htag, htarget]
    | command => rfl
    | blank | comment | speaker | choice | speech =>
      dsimp only
      rw [List.filterMap_append, hlength, List.append_nil]
      cases block.label <;> rfl

/-- A step is about a tag that is taken only if it closes a block. -/
theorem renamed?_stepComplaints (draft : Draft) (line : Line) :
    (draft.stepComplaints settings line).filterMap Complaint.renamed? =
      if draft.block.endsBefore settings line then
        (draft.closeComplaints settings).filterMap Complaint.renamed?
      else [] := by
  rw [Draft.stepComplaints, List.filterMap_append, List.filterMap_append, renamed?_complaints,
    List.append_nil]
  by_cases hchoice : settings.kind line = .choice
  · simp [hchoice, Block.endsBefore_of_choice hchoice]
  · rw [if_neg hchoice, renamed?_labelComplaints, List.nil_append]
    split <;> rfl

theorem renamed?_lastComplaints (draft : Draft) :
    (draft.lastComplaints settings).filterMap Complaint.renamed? =
      if draft.block.hasContent then (draft.closeComplaints settings).filterMap Complaint.renamed?
      else [] := by
  rw [Draft.lastComplaints, List.filterMap_append, renamed?_labelComplaints, List.nil_append]
  split
  · rfl
  · cases draft.block.tag <;> rfl

/-- The nodes of some passages have their tags, and the warnings so far are about those. -/
def Draft.Names (settings : Settings) (closed : List Passage) (draft : Draft) : Prop :=
  Tagged (ownTags settings closed) (giveTags (ownTags settings closed)) (renamings draft.warnings)

/-- Closing a block gives its node a tag, if there is room for a node. -/
theorem tagged_close (hholds : draft.Holds settings closed)
    (htag : draft.block.tag = Passage.tag settings passage)
    {renamed : List (String × String)}
    (h : Tagged (ownTags settings closed) (giveTags (ownTags settings closed)) renamed) :
    Tagged (ownTags settings (closed ++ [passage]))
      (giveTags (ownTags settings (closed ++ [passage])))
      (renamed ++ (draft.closeComplaints settings).filterMap Complaint.renamed?) := by
  have hsize : draft.graph.size = (nodesOf settings closed).length := by
    rw [Graph.size, hholds.nodes]
  have hbase := baseTag_of_holds hholds htag
  have hfinal : draft.finalTag = freshTag (giveTags (ownTags settings closed))
      (askedTag (ownTags settings closed) (Passage.tag settings passage)) := by
    rw [Draft.finalTag, hbase, hholds.usedTags, Graph.tags, hholds.nodes, map_tag_nodesOf]
  rw [ownTags_append_singleton, Draft.closeComplaints, hsize]
  by_cases hfull : isFull (nodesOf settings closed).length settings.maxNodes
  · have hnone : [Complaint.nodesFull settings.maxNodes].filterMap Complaint.renamed? = [] := rfl
    rw [if_pos hfull, if_pos hfull, hnone, List.append_nil]
    exact h
  · rw [if_neg hfull, if_neg hfull, giveTags_append_singleton, Draft.renameComplaints,
      hbase, hfinal]
    have hgive := h.give (Passage.tag settings passage)
    dsimp only at hgive
    split at hgive
    · next hkept => simpa [hkept] using hgive
    · next hrenamed => simpa [hrenamed, Complaint.renamed?] using hgive

/-- A step keeps the tags and the warnings about them together. -/
theorem names_read (htracks : draft.Tracks settings closed passage)
    (h : draft.Names settings closed) (hcounts : settings.counts line) :
    if Passage.endsBefore settings passage line then
      (draft.read settings place line).Names settings (closed ++ [passage])
    else (draft.read settings place line).Names settings closed := by
  unfold Draft.Names at *
  rw [Draft.read_warnings hcounts htracks.inChoices, renamings_append, renamed?_stepComplaints,
    htracks.block, endsBefore_block]
  by_cases hcut : Passage.endsBefore settings passage line
  · rw [if_pos hcut, if_pos hcut]
    exact tagged_close htracks.toHolds (by rw [htracks.block]; rfl) h
  · rw [if_neg hcut, if_neg hcut, List.append_nil]
    exact h

/-- The last block gets its tag like the others. -/
theorem names_finish (htracks : draft.Tracks settings closed passage)
    (h : draft.Names settings closed) :
    (draft.finish settings).Names settings
      (closed ++ if Passage.hasContent settings passage then [passage] else []) := by
  unfold Draft.Names at *
  rw [Draft.finish_warnings htracks.inChoices, renamings_append, renamed?_lastComplaints,
    htracks.block, hasContent_block]
  by_cases hcontent : Passage.hasContent settings passage
  · rw [if_pos hcontent, if_pos hcontent]
    exact tagged_close htracks.toHolds (by rw [htracks.block]; rfl) h
  · rw [if_neg hcontent, if_neg hcontent, List.append_nil, List.append_nil]
    exact h

end Steps

/-! ## Scripts -/

/-- The nodes of a script get their tags one after the other, and the warnings about tags that are
taken are about those. -/
theorem tagged_compile (settings : Settings) (text : String) :
    Tagged (ownTags settings (contents settings text))
      (giveTags (ownTags settings (contents settings text)))
      (renamings (compile settings text).warnings) := by
  have hstart : Draft.Names settings [] {} := by
    have howns : ownTags settings [] = [] := by simp [ownTags]
    rw [Draft.Names, howns]
    exact .nil
  obtain ⟨closed, passage, ⟨htracks, hnames⟩, hcuts⟩ := readAll_induction
    (motive := fun closed passage draft =>
      draft.Tracks settings closed passage ∧ draft.Names settings closed)
    ⟨tracks_empty settings, hstart⟩
    (fun h hcounts => (apply_ite₂ And _ _ _ _ _).mp
      ⟨tracks_read h.1 hcounts, names_read h.1 h.2 hcounts⟩)
    text
  rw [contents_eq hcuts]
  exact names_finish htracks hnames

theorem tags_compile (settings : Settings) (text : String) :
    (compile settings text).graph.tags = giveTags (ownTags settings (contents settings text)) := by
  rw [Graph.tags, nodes_compile, map_tag_nodesOf]

/-- The limit on the number of nodes has no part in what the passages are. -/
theorem contents_withMaxNodes (settings : Settings) (limit : Int) (text : String) :
    contents { settings with maxNodes := limit } text = contents settings text := by
  have hcuts : ∀ (lines : List Line) (current : Passage),
      passagesFrom { settings with maxNodes := limit } current lines =
        passagesFrom settings current lines := by
    intro lines
    induction lines with
    | nil => intro current; rfl
    | cons line lines ih =>
      intro current
      rw [passagesFrom, passagesFrom, ih, ih]
      rfl
  rw [contents, passages, hcuts]
  rfl

/-- Tags are given to the nodes of a script in their order, and each depends on the earlier ones
alone.

* The node that a passage stands for asks for the tag that the passage has of its own, else for
one that is made up, as `askedTag` says. It gets that one if no earlier node has it, and else that
one with the least number that makes it new. There is one warning for each tag that was changed,
and none for others. * There is always a least number that makes a tag new. * Passages that are
left out for their number have no part in this: with room for more nodes, the first ones get the
same tags. -/
theorem tags_given_in_order (settings : Settings) (text : String) :
    let kept := (contents settings text).take settings.maxNodes.toNat
    let compiled := compile settings text
    (compiled.graph.nodes = List.zipWith (Passage.node settings) kept compiled.graph.tags ∧
      Tagged (kept.map (Passage.tag settings)) compiled.graph.tags (renamings compiled.warnings)) ∧
    (∀ used base, ∃ number, LeastFree used base number) ∧
    ∀ room : Nat,
      compiled.graph.tags =
        (compile { settings with maxNodes := settings.maxNodes + room } text).graph.tags.take
          settings.maxNodes.toNat := by
  intro kept compiled
  have htags : compiled.graph.tags = giveTags (kept.map (Passage.tag settings)) :=
    tags_compile settings text
  refine ⟨⟨?_, ?_⟩, fun used base => ⟨_, leastFree_freshNumber used base⟩, fun room => ?_⟩
  · rw [htags]
    exact nodes_compile settings text
  · rw [htags]
    exact tagged_compile settings text
  · have hroom : min settings.maxNodes.toNat (settings.maxNodes + room).toNat =
        settings.maxNodes.toNat := by omega
    rw [htags, tags_compile, contents_withMaxNodes, ← giveTags_take, ownTags, ← List.map_take,
      List.take_take, hroom]
    rfl

/-- The tag of the second node would be made up and is taken, so it is numbered. -/
example : (compile {} "[node_0]\nAnn:\nOne.\nBob:\nTwo.\nCid:\nThree.\n").graph.tags =
    ["node_0", "node_0_1", "node_1"] := by
  decide

end Colloquy.Script
