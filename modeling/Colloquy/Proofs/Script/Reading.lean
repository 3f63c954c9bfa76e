import Colloquy.Proofs.Script.Nodes
import Colloquy.Proofs.Script.Steps

/-!
# Reading line by line and passage by passage

The compiler keeps a draft and changes it with every line. This file shows that what it ends with
is what the passages of the script stand for.

`Draft.Tracks` says that a draft holds exactly what the passages read so far stand for: its graph
the closed passages, its block the passage that is being read. `tracks_read` shows that a step
keeps this, and `nodes_compile` follows by induction on the lines.
-/

namespace Colloquy.Script

open Line (Kind)

/-! ## Passages and blocks -/

/-- What the parts of a passage that has been read so far make in a draft. -/
def Passage.block (settings : Settings) (passage : Passage) : Block where
  tag := Passage.tag settings passage
  speaker := Passage.speaker settings passage
  speech := Passage.speech settings passage
  commands := Passage.commands settings passage
  choices := Passage.choices settings passage
  label := (openLabel? settings passage).map settings.clip

section Append

variable {settings : Settings} {passage : Passage} {line : Line}

/-! ## A line in a passage and in a block -/

/-- A line that is not a row of a choice list changes one part only, and leaves no open label. -/
theorem block_append_plain (hcounts : settings.counts line) (hplain : settings.kind line ≠ .choice)
    (hstays : Passage.endsBefore settings passage line = false) :
    (Passage.block settings passage).dropLabel.add settings line =
      Passage.block settings (passage ++ [line]) := by
  unfold Block.add Passage.block Block.dropLabel
  rw [openLabel?_append_of_ne hplain, choices_append_of_ne hplain]
  cases hkind : settings.kind line with
  | blank => simp [Settings.counts, hkind] at hcounts
  | comment => simp [Settings.counts, hkind] at hcounts
  | choice => exact absurd hkind hplain
  | speaker =>
    have hnone : Passage.speaker settings passage = none := by
      simpa [Passage.endsBefore, hkind] using hstays
    rw [speaker_append hkind hnone, tag_append_of_ne (by simp [hkind]),
      speech_append_of_ne (by simp [hkind]), commands_append_of_ne (by simp [hkind])]
    rfl
  | tag =>
    rw [tag_append hkind, speaker_append_of_ne (by simp [hkind]),
      speech_append_of_ne (by simp [hkind]), commands_append_of_ne (by simp [hkind])]
    rfl
  | command =>
    rw [commands_append hkind, tag_append_of_ne (by simp [hkind]),
      speaker_append_of_ne (by simp [hkind]), speech_append_of_ne (by simp [hkind])]
    simp only [Block.addCommand]
    split <;> rfl
  | speech =>
    rw [speech_append hkind, tag_append_of_ne (by simp [hkind]),
      speaker_append_of_ne (by simp [hkind]), commands_append_of_ne (by simp [hkind])]
    rfl

/-- A row of a choice list changes the choices and the open label only. -/
theorem block_append_row (hkind : settings.kind line = .choice) :
    (Passage.block settings passage).add settings line =
      Passage.block settings (passage ++ [line]) := by
  unfold Passage.block
  rw [tag_append_of_ne (by simp [hkind]), speaker_append_of_ne (by simp [hkind]),
    speech_append_of_ne (by simp [hkind]), commands_append_of_ne (by simp [hkind]),
    openLabel?_append_singleton]
  unfold Block.add Block.addRow
  simp only [hkind]
  cases hinner : Line.innerKind line with
  | tag =>
    have htarget : settings.isTarget line := by simp [Settings.isTarget, hkind, hinner]
    rw [choices_append_target htarget, not_isStray_of_isTarget htarget,
      not_isLabel_of_isTarget htarget]
    cases hopen : openLabel? settings passage with
    | none => rfl
    | some label =>
      simp only [Block.addTarget, Option.map_some]
      split <;> rfl
  | command =>
    have hstray : settings.isStray line := by simp [Settings.isStray, hkind, hinner]
    rw [choices_append_of_not_isTarget (by simp [Settings.isTarget, hinner]), if_pos hstray]
  | blank | comment | speaker | choice | speech =>
    have hlabel : settings.isLabel line := by simp [Settings.isLabel, hkind, hinner]
    rw [choices_append_of_not_isTarget (not_isTarget_of_isLabel hlabel),
      not_isStray_of_isLabel hlabel, if_pos hlabel]
    rfl

end Append

/-! ## Drafts that track passages -/

/-- The graph of a draft holds what some passages stand for. -/
structure Draft.Holds (settings : Settings) (closed : List Passage) (draft : Draft) : Prop where
  nodes : draft.graph.nodes = nodesOf settings closed
  usedTags : draft.usedTags = draft.graph.tags
  autoTags : draft.autoTags = (ownTags settings closed).tail.countP Option.isNone

/-- A draft holds what the passages read so far stand for: the graph what the closed ones do, the
block what the beginning of the next one does. -/
structure Draft.Tracks (settings : Settings) (closed : List Passage) (passage : Passage)
    (draft : Draft) : Prop extends Draft.Holds settings closed draft where
  block : draft.block = Passage.block settings passage
  /-- A label can be open only in a choice list. -/
  inChoices : draft.block.label.isSome → draft.inChoices

section Tracks

variable {settings : Settings} {closed : List Passage} {passage : Passage} {draft : Draft}
  {place : Place} {line : Line}

@[simp] theorem block_nil (settings : Settings) : Passage.block settings [] = {} := by
  simp [Passage.block, Passage.tag, Passage.speaker, Passage.speech, Passage.commands,
    Passage.namedCommands, Passage.choices, Passage.ofKind, pairs, neighbours, openLabel?]

theorem tracks_empty (settings : Settings) : Draft.Tracks settings [] [] {} where
  nodes := by simp [Graph.empty, nodesOf_eq]
  usedTags := rfl
  autoTags := by simp [ownTags]
  block := (block_nil settings).symm
  inChoices := by simp

theorem hasBody_block :
    (Passage.block settings passage).hasBody = Passage.hasBody settings passage := by
  unfold Block.hasBody Passage.hasBody Passage.block
  cases Passage.speech settings passage <;> cases Passage.commands settings passage <;>
    cases Passage.choices settings passage <;> rfl

theorem hasContent_block :
    (Passage.block settings passage).hasContent = Passage.hasContent settings passage := by
  rw [Block.hasContent, hasBody_block]
  rfl

theorem endsBefore_block :
    (Passage.block settings passage).endsBefore settings line =
      Passage.endsBefore settings passage line := by
  rw [Block.endsBefore, hasBody_block]
  rfl

/-- The block asks for the tag that its passage asks for. -/
theorem baseTag_of_holds (hholds : draft.Holds settings closed)
    (htag : draft.block.tag = Passage.tag settings passage) :
    draft.baseTag = askedTag (ownTags settings closed) (Passage.tag settings passage) := by
  unfold Draft.baseTag askedTag
  rw [htag, hholds.nodes, hholds.autoTags]
  cases Passage.tag settings passage with
  | some tag => rfl
  | none =>
    have hempty : (nodesOf settings closed).isEmpty = true ↔ ownTags settings closed = [] := by
      rw [List.isEmpty_iff, ← List.length_eq_zero_iff, length_nodesOf, List.length_eq_zero_iff]
    simp only [hempty]

/-- The number of tags made up after the block has become a node. -/
theorem nextAutoTags_of_holds (hholds : draft.Holds settings closed)
    (htag : draft.block.tag = Passage.tag settings passage) :
    draft.nextAutoTags =
      (ownTags settings closed ++ [Passage.tag settings passage]).tail.countP Option.isNone := by
  unfold Draft.nextAutoTags
  rw [htag, hholds.nodes, hholds.autoTags]
  have hlength := length_nodesOf settings closed
  cases howns : ownTags settings closed with
  | nil =>
    rw [howns, List.length_nil, List.length_eq_zero_iff] at hlength
    simp [hlength]
  | cons own owns =>
    have hne : (nodesOf settings closed).isEmpty = false := by
      cases hn : nodesOf settings closed with
      | nil => simp [hn, howns] at hlength
      | cons => rfl
    rw [hne, List.cons_append, List.tail_cons, List.tail_cons, List.countP_append]
    cases Passage.tag settings passage <;> simp

/-- The block becomes the node that its passage stands for. -/
theorem node_of_holds (hholds : draft.Holds settings closed)
    (hblock : draft.block = (Passage.block settings passage).dropLabel) :
    draft.node = Passage.node settings passage (freshTag ((nodesOf settings closed).map (·.tag))
      (askedTag (ownTags settings closed) (Passage.tag settings passage))) := by
  have htag : draft.finalTag = freshTag ((nodesOf settings closed).map (·.tag))
      (askedTag (ownTags settings closed) (Passage.tag settings passage)) := by
    rw [Draft.finalTag, hholds.usedTags, baseTag_of_holds hholds (by rw [hblock]; rfl), Graph.tags,
      hholds.nodes]
  rw [Draft.node, htag, hblock]
  rfl

/-- Closing a block closes its passage. -/
theorem holds_closeBlock (hholds : draft.Holds settings closed)
    (hblock : draft.block = (Passage.block settings passage).dropLabel) :
    (draft.closeBlock settings place).Holds settings (closed ++ [passage]) := by
  have hsize : draft.graph.size = (nodesOf settings closed).length := by
    rw [Graph.size, hholds.nodes]
  have hused :
      (draft.closeBlock settings place).usedTags = (draft.closeBlock settings place).graph.tags :=
    Draft.usedTags_closeBlock hholds.usedTags
  unfold Draft.closeBlock at hused ⊢
  rw [hsize] at hused ⊢
  by_cases hfull : isFull (nodesOf settings closed).length settings.maxNodes
  · rw [if_pos hfull]
    constructor
    · rw [nodesOf_append_singleton, if_pos hfull]
      exact hholds.nodes
    · rwa [if_pos hfull] at hused
    · rw [ownTags_append_singleton, if_pos hfull]
      exact hholds.autoTags
  · rw [if_neg hfull]
    constructor
    · rw [nodesOf_append_singleton, if_neg hfull, ← node_of_holds hholds hblock, ← hholds.nodes]
      rfl
    · rwa [if_neg hfull] at hused
    · rw [ownTags_append_singleton, if_neg hfull]
      exact nextAutoTags_of_holds hholds (by rw [hblock]; rfl)

theorem block_append_plain_label (hplain : settings.kind line ≠ .choice) :
    (Passage.block settings (passage ++ [line])).label = none := by
  rw [Passage.block, openLabel?_append_of_ne hplain]
  rfl

theorem holds_dropLabel (hholds : draft.Holds settings closed) :
    (draft.dropLabel place).Holds settings closed := by
  constructor
  · rw [Draft.dropLabel_graph, hholds.nodes]
  · rw [Draft.dropLabel_usedTags, Draft.dropLabel_graph, hholds.usedTags]
  · rw [Draft.dropLabel_autoTags, hholds.autoTags]

/-- A row of a choice list never closes a passage. -/
theorem tracks_read_choice (h : draft.Tracks settings closed passage)
    (hchoice : settings.kind line = .choice) :
    (draft.read settings place line).Tracks settings closed (passage ++ [line]) := by
  rw [Draft.read_of_choice hchoice]
  refine ⟨⟨h.nodes, h.usedTags, h.autoTags⟩, ?_, fun _ => rfl⟩
  rw [← block_append_row hchoice, ← h.block]
  rfl

/-- A line that is not a row of a choice list begins the next passage or goes on with this one. -/
theorem tracks_read_plain (h : draft.Tracks settings closed passage)
    (hcounts : settings.counts line) (hplain : settings.kind line ≠ .choice) :
    if Passage.endsBefore settings passage line then
      (draft.read settings place line).Tracks settings (closed ++ [passage]) [line]
    else (draft.read settings place line).Tracks settings closed (passage ++ [line]) := by
  have hholds : (draft.dropLabel place).Holds settings closed := holds_dropLabel h.toHolds
  have hblock : (draft.dropLabel place).block = (Passage.block settings passage).dropLabel := by
    rw [Draft.dropLabel_block, h.block]
  rw [Draft.read_eq hcounts h.inChoices, Draft.makeWay_of_plain hplain, h.block, endsBefore_block]
  by_cases hcut : Passage.endsBefore settings passage line
  · rw [if_pos hcut, if_pos hcut]
    have hclosed : ((draft.dropLabel place).closeBlock settings place).Holds settings
        (closed ++ [passage]) := holds_closeBlock hholds hblock
    have hfirst : (Passage.block settings []).dropLabel.add settings line =
        Passage.block settings [line] := block_append_plain hcounts hplain endsBefore_nil
    rw [block_nil] at hfirst
    have hnext :
        (((draft.dropLabel place).closeBlock settings place).add settings place line).block =
        Passage.block settings [line] := by
      rw [← hfirst, Draft.add_block, Draft.closeBlock_block]
      rfl
    refine ⟨⟨hclosed.nodes, hclosed.usedTags, hclosed.autoTags⟩, hnext, ?_⟩
    rw [hnext, ← List.nil_append [line], block_append_plain_label hplain]
    simp
  · rw [if_neg hcut, if_neg hcut]
    have hnext : ((draft.dropLabel place).add settings place line).block =
        Passage.block settings (passage ++ [line]) := by
      rw [← block_append_plain hcounts hplain (by simpa using hcut), Draft.add_block, hblock]
    refine ⟨⟨hholds.nodes, hholds.usedTags, hholds.autoTags⟩, hnext, ?_⟩
    rw [hnext, block_append_plain_label hplain]
    simp

/-- A step goes on with the passage, or closes it and begins the next one. -/
theorem tracks_read (h : draft.Tracks settings closed passage) (hcounts : settings.counts line) :
    if Passage.endsBefore settings passage line then
      (draft.read settings place line).Tracks settings (closed ++ [passage]) [line]
    else (draft.read settings place line).Tracks settings closed (passage ++ [line]) := by
  by_cases hchoice : settings.kind line = .choice
  · rw [endsBefore_of_choice hchoice]
    exact tracks_read_choice h hchoice
  · exact tracks_read_plain h hcounts hchoice

/-- The last block becomes a node if its passage stands for one. -/
theorem nodes_finish (h : draft.Tracks settings closed passage) :
    (draft.finish settings).graph.nodes =
      nodesOf settings
        (closed ++ if Passage.hasContent settings passage then [passage] else []) := by
  have hholds : (draft.dropLabel {}).Holds settings closed := holds_dropLabel h.toHolds
  have hblock : (draft.dropLabel {}).block = (Passage.block settings passage).dropLabel := by
    rw [Draft.dropLabel_block, h.block]
  rw [Draft.finish_eq h.inChoices, Draft.closeLast, hblock, Block.dropLabel_hasContent,
    hasContent_block]
  by_cases hcontent : Passage.hasContent settings passage
  · rw [if_pos hcontent, if_pos hcontent]
    exact (holds_closeBlock hholds hblock).nodes
  · rw [if_neg hcontent, if_neg hcontent, List.append_nil]
    exact hholds.nodes

end Tracks

/-! ## Runs -/

/-- Lines are numbered after the carriage returns at their ends have been dropped. -/
theorem numberedLines_eq (text : String) :
    numberedLines text = (scriptLines text).zipIdx.map fun entry => (entry.2 + 1, entry.1) := by
  rw [scriptLines_eq, List.zipIdx_map, List.map_map]
  rfl

theorem map_snd_numberedLines (text : String) :
    (numberedLines text).map (·.2) = scriptLines text := by
  rw [numberedLines_eq, List.map_map]
  exact List.zipIdx_map_fst 0 (scriptLines text)

/-- The draft after some more lines. -/
def Draft.readLines (settings : Settings) (draft : Draft) (lines : List (Nat × Line)) : Draft :=
  lines.foldl (fun draft entry => draft.read settings ⟨entry.1, String.ofList entry.2⟩ entry.2)
    draft

/-- Lines that do not count make no difference. -/
theorem Draft.readLines_filter (settings : Settings) (draft : Draft) (entries : List (Nat × Line)) :
    draft.readLines settings (entries.filter (settings.counts ·.2)) =
      draft.readLines settings entries := by
  induction entries generalizing draft with
  | nil => rfl
  | cons entry entries ih =>
    by_cases hcounts : settings.counts entry.2
    · rw [List.filter_cons, if_pos hcounts]
      exact ih _
    · have hskip : draft.read settings ⟨entry.1, String.ofList entry.2⟩ entry.2 = draft :=
        Draft.read_of_not_counts (by simpa using hcounts)
      rw [List.filter_cons, if_neg hcounts, ih, Draft.readLines, Draft.readLines,
        List.foldl_cons, hskip]

/-- A run over some lines keeps a property of the closed passages, the current passage and the
draft, if every step over a line that counts does. -/
theorem foldl_read_induction {settings : Settings} {motive : List Passage → Passage → Draft → Prop}
    (step : ∀ {closed passage draft place line}, motive closed passage draft →
      settings.counts line →
      if Passage.endsBefore settings passage line then
        motive (closed ++ [passage]) [line] (draft.read settings place line)
      else motive closed (passage ++ [line]) (draft.read settings place line))
    (lines : List (Nat × Line)) {closed : List Passage} {passage : Passage} {draft : Draft}
    (start : motive closed passage draft) :
    ∃ closed' passage',
      motive closed' passage' (lines.foldl
        (fun draft entry => draft.read settings ⟨entry.1, String.ofList entry.2⟩ entry.2) draft) ∧
      closed ++ passagesFrom settings passage ((lines.map (·.2)).filter settings.counts) =
        closed' ++ [passage'] := by
  induction lines generalizing draft closed passage with
  | nil => exact ⟨closed, passage, start, rfl⟩
  | cons entry lines ih =>
    rw [List.foldl_cons, List.map_cons]
    by_cases hcounts : settings.counts entry.2
    · have hnext := @step closed passage draft ⟨entry.1, String.ofList entry.2⟩ entry.2 start
        hcounts
      rw [List.filter_cons_of_pos hcounts, passagesFrom]
      by_cases hcut : Passage.endsBefore settings passage entry.2
      · rw [if_pos hcut] at hnext ⊢
        obtain ⟨closed', passage', hmotive, hcuts⟩ := ih hnext
        refine ⟨closed', passage', hmotive, ?_⟩
        rw [← hcuts, List.append_assoc]
        rfl
      · rw [if_neg hcut] at hnext ⊢
        exact ih hnext
    · rw [Draft.read_of_not_counts (by simpa using hcounts), List.filter_cons_of_neg hcounts]
      exact ih start

/-- The draft of a compiler is changed line by line. -/
theorem Compiler.draft_readLines (settings : Settings) (compiler : Compiler)
    (lines : List (Nat × Line)) :
    (compiler.readLines settings lines).draft = compiler.draft.readLines settings lines := by
  induction lines generalizing compiler with
  | nil => rfl
  | cons entry lines ih => exact ih _

theorem readAll_eq (settings : Settings) (lines : List (Nat × Line)) :
    readAll settings lines = Draft.readLines settings {} lines :=
  Compiler.draft_readLines settings .new lines

/-- What every step keeps holds after the last line of a script. -/
theorem readAll_induction {settings : Settings} {motive : List Passage → Passage → Draft → Prop}
    (start : motive [] [] {})
    (step : ∀ {closed passage draft place line}, motive closed passage draft →
      settings.counts line →
      if Passage.endsBefore settings passage line then
        motive (closed ++ [passage]) [line] (draft.read settings place line)
      else motive closed (passage ++ [line]) (draft.read settings place line))
    (text : String) :
    ∃ closed passage, motive closed passage (readAll settings (numberedLines text)) ∧
      passages settings (countedLines settings text) = closed ++ [passage] := by
  obtain ⟨closed, passage, hmotive, hcuts⟩ :=
    foldl_read_induction step (numberedLines text) start
  refine ⟨closed, passage, ?_, ?_⟩
  · rwa [readAll_eq]
  · rw [← hcuts, map_snd_numberedLines]
    rfl

/-! ## Compilers -/

/-- Nothing of what a compiler was left with is there when it takes in the first line. -/
theorem Compiler.forgetWarnings_reset (compiler : Compiler) :
    compiler.reset.forgetWarnings = .new :=
  rfl

/-- Whatever a compiler has compiled before, it makes of a script what a new one makes of it, and
is left in the same state. -/
theorem Compiler.compile_again (settings : Settings) (compiler : Compiler) (text : String) :
    compiler.compile settings text = Compiler.new.compile settings text := by
  rw [compile, compile, forgetWarnings_reset, forgetWarnings_reset]

/-- A compiled script is what the draft holds after the last line, once the last block is closed. -/
theorem compile_eq (settings : Settings) (text : String) :
    compile settings text =
      let draft := (readAll settings (numberedLines text)).finish settings
      ⟨draft.graph, draft.warnings⟩ :=
  rfl

/-- The nodes of a compiled script are those that its passages stand for. -/
theorem nodes_compile (settings : Settings) (text : String) :
    (compile settings text).graph.nodes = nodesOf settings (contents settings text) := by
  obtain ⟨closed, passage, htracks, hcuts⟩ :=
    readAll_induction (tracks_empty settings) tracks_read text
  rw [contents_eq hcuts]
  exact nodes_finish htracks

/-- A tag line after a body names the next node, and one before it the same node. -/
example : (compile {} "ANNA:\n[a]\nHello.\n[b]\nBEN:\nBye.").graph.tags = ["a", "b"] := by
  decide

/-- Compiling line by line gives what the passages say, one node for each passage with a speaker
or a body. The speaker stands on the speaker line of the passage, the text is its lines of speech,
the commands and the choices are the first ones that the limits admit, and the tags are given from
left to right. -/
theorem compile_refines_passages (settings : Settings) (text : String) :
    let kept := (contents settings text).take settings.maxNodes.toNat
    (compile settings text).graph.nodes =
      List.zipWith
        (fun passage tag =>
          { tag := tag
            speaker := (Passage.speaker settings passage).getD ""
            text := " ".intercalate (Passage.speech settings passage)
            commands := Passage.commands settings passage
            choices := Passage.choices settings passage })
        kept (giveTags (kept.map (Passage.tag settings))) :=
  nodes_compile settings text

end Colloquy.Script
