import Colloquy.Proofs.Script.Reading

/-!
# Scripts that compile without a warning

Much of a script can be left out of its graph: lines that cannot be read, lines that are too long,
choices without a target, and whatever exceeds a limit. This file shows that each of these gives a
warning.

`Passage.Kept` says that a passage is read in full, and `Settled` that passages are closed without
a loss. A step without a complaint keeps both (`quiet_read`), so they hold of all passages of a
script that compiles without a warning (`settled_contents`).
-/

namespace Colloquy.Script

open Line (Kind)

/-- The content of a line in full. -/
def fullText (line : Line) : String :=
  String.ofList (Chars.trim line)

/-- A choice as its two rows say it: the label in full, and the target if there is one. -/
def fullChoice (pair : Line × Line) : String × Option String :=
  (fullText pair.1, Line.tag? pair.2)

/-- A choice as a node holds it, in the form of `fullChoice`. -/
def heldChoice (choice : Choice) : String × Option String :=
  (choice.text, some choice.target)

/-- The two rows of a choice. -/
def rowsOf (pair : Line × Line) : List Line :=
  [pair.1, pair.2]

/-- A passage is read in full. The last row of a choice list may be a label that waits for its
target. -/
structure Passage.Kept (settings : Settings) (passage : Passage) : Prop where
  speaker : (ofKind settings .speaker passage).map Line.speaker? =
    ((Passage.speaker settings passage).map some).toList
  tag : (ofKind settings .tag passage).map Line.tag? =
    ((Passage.tag settings passage).map some).toList
  commands : Passage.commands settings passage = (ofKind settings .command passage).map commandOf
  speech : Passage.speech settings passage = (ofKind settings .speech passage).map fullText
  choices : (Passage.choices settings passage).map heldChoice =
    (pairs settings passage).map fullChoice
  rows : ofKind settings .choice passage =
    (pairs settings passage).flatMap rowsOf ++ (openLabel? settings passage).toList
  label :
    (openLabel? settings passage).map settings.clip = (openLabel? settings passage).map fullText

/-! ## A line without a complaint -/

section Step

variable {settings : Settings} {passage : Passage} {line : Line}

theorem kept_nil (settings : Settings) : Passage.Kept settings [] := by
  constructor <;>
    simp [Passage.ofKind, Passage.speaker, Passage.tag, Passage.commands, Passage.namedCommands,
      Passage.speech, Passage.choices, pairs, neighbours, openLabel?]

theorem clip_eq_fullText (h : lengthComplaints settings line = []) :
    settings.clip line = fullText line := by
  unfold lengthComplaints at h
  split at h
  · cases h
  · next hlength => exact clip_eq_self hlength

theorem tag?_of_tagComplaints (h : tagComplaints line = []) :
    Line.tag? line = some (tagName line) := by
  unfold tagComplaints at h
  split at h
  · next hsome =>
    obtain ⟨tag, htag⟩ := Option.isSome_iff_exists.mp hsome
    rw [tagName, htag]
    rfl
  · cases h

theorem speaker?_of_speakerComplaints (h : speakerComplaints line = []) :
    Line.speaker? line = some (speakerName line) := by
  unfold speakerComplaints at h
  split at h
  · next hsome =>
    obtain ⟨speaker, hspeaker⟩ := Option.isSome_iff_exists.mp hsome
    rw [speakerName, hspeaker]
    rfl
  · cases h

theorem kept_speaker_append (hkept : Passage.Kept settings passage)
    (hstays : Passage.endsBefore settings passage line = false)
    (hquiet : (Passage.block settings passage).complaints settings line = []) :
    (Passage.ofKind settings .speaker (passage ++ [line])).map Line.speaker? =
      ((Passage.speaker settings (passage ++ [line])).map some).toList := by
  by_cases hkind : settings.kind line = .speaker
  · have hnone : Passage.speaker settings passage = none := by
      simpa [Passage.endsBefore, hkind] using hstays
    have hread : Line.speaker? line = some (speakerName line) := by
      apply speaker?_of_speakerComplaints
      simpa [Block.complaints, hkind] using hquiet
    rw [ofKind_append_of_eq hkind, List.map_append, hkept.speaker,
      speaker_append hkind hnone, hnone, List.map_singleton, hread]
    rfl
  · rw [ofKind_append_of_ne hkind, speaker_append_of_ne hkind, hkept.speaker]

theorem kept_tag_append (hkept : Passage.Kept settings passage)
    (hquiet : (Passage.block settings passage).complaints settings line = []) :
    (Passage.ofKind settings .tag (passage ++ [line])).map Line.tag? =
      ((Passage.tag settings (passage ++ [line])).map some).toList := by
  by_cases hkind : settings.kind line = .tag
  · simp only [Block.complaints, hkind, List.append_eq_nil_iff] at hquiet
    obtain ⟨hparsed, hfirst⟩ := hquiet
    have hnone : Passage.tag settings passage = none := by
      cases htag : Passage.tag settings passage with
      | none => rfl
      | some tag => simp [Passage.block, htag] at hfirst
    rw [ofKind_append_of_eq hkind, List.map_append, hkept.tag, tag_append hkind, hnone,
      List.map_singleton, tag?_of_tagComplaints hparsed]
    rfl
  · rw [ofKind_append_of_ne hkind, tag_append_of_ne hkind, hkept.tag]

theorem kept_commands_append (hkept : Passage.Kept settings passage)
    (hquiet : (Passage.block settings passage).complaints settings line = []) :
    Passage.commands settings (passage ++ [line]) =
      (Passage.ofKind settings .command (passage ++ [line])).map commandOf := by
  by_cases hkind : settings.kind line = .command
  · simp only [Block.complaints, hkind, Block.commandComplaints] at hquiet
    split at hquiet
    · cases hquiet
    · next hnamed =>
      split at hquiet
      · cases hquiet
      · next hroom =>
        have htaken : ¬ ((commandOf line).name.isEmpty ||
            isFull (Passage.commands settings passage).length settings.maxCommands) = true := by
          rw [Bool.or_eq_true]
          exact not_or.mpr ⟨hnamed, hroom⟩
        rw [commands_append hkind, if_neg htaken, ofKind_append_of_eq hkind, List.map_append,
          hkept.commands]
        rfl
  · rw [commands_append_of_ne hkind, ofKind_append_of_ne hkind, hkept.commands]

theorem kept_speech_append (hkept : Passage.Kept settings passage)
    (hquiet : (Passage.block settings passage).complaints settings line = []) :
    Passage.speech settings (passage ++ [line]) =
      (Passage.ofKind settings .speech (passage ++ [line])).map fullText := by
  by_cases hkind : settings.kind line = .speech
  · have hclip : settings.clip line = fullText line := by
      apply clip_eq_fullText
      simpa [Block.complaints, hkind] using hquiet
    rw [speech_append hkind, ofKind_append_of_eq hkind, List.map_append, hkept.speech, hclip]
    rfl
  · rw [speech_append_of_ne hkind, ofKind_append_of_ne hkind, hkept.speech]

/-- A row of a choice list that gives no complaint is a target for an open label, or a label where
none is open. -/
theorem row_cases (hkind : settings.kind line = .choice)
    (hquiet : (Passage.block settings passage).complaints settings line = []) :
    (∃ label, settings.isTarget line ∧ openLabel? settings passage = some label ∧
      Line.tag? line = some (tagName line) ∧
      isFull (Passage.choices settings passage).length settings.maxChoices = false) ∨
    (settings.isLabel line ∧ openLabel? settings passage = none ∧
      settings.clip line = fullText line) := by
  simp only [Block.complaints, hkind, Block.rowComplaints] at hquiet
  cases hinner : Line.innerKind line with
  | tag =>
    simp only [hinner, List.append_eq_nil_iff] at hquiet
    obtain ⟨hparsed, htaken⟩ := hquiet
    left
    cases hopen : openLabel? settings passage with
    | none => simp [Block.targetComplaints, Passage.block, hopen] at htaken
    | some label =>
      refine ⟨label, by simp [Settings.isTarget, hkind, hinner], rfl,
        tag?_of_tagComplaints hparsed, ?_⟩
      cases hfull : isFull (Passage.choices settings passage).length settings.maxChoices with
      | false => rfl
      | true => simp [Block.targetComplaints, Passage.block, hopen, hfull] at htaken
  | command => simp [hinner] at hquiet
  | blank | comment | speaker | choice | speech =>
    simp only [hinner, List.append_eq_nil_iff] at hquiet
    obtain ⟨hfirst, hlength⟩ := hquiet
    right
    refine ⟨by simp [Settings.isLabel, hkind, hinner], ?_, clip_eq_fullText hlength⟩
    cases hopen : openLabel? settings passage with
    | none => rfl
    | some label => simp [Passage.block, hopen] at hfirst

theorem kept_rows_append (hkept : Passage.Kept settings passage)
    (hopen : settings.kind line ≠ .choice → openLabel? settings passage = none)
    (hquiet : (Passage.block settings passage).complaints settings line = []) :
    (Passage.choices settings (passage ++ [line])).map heldChoice =
        (pairs settings (passage ++ [line])).map fullChoice ∧
      Passage.ofKind settings .choice (passage ++ [line]) =
        (pairs settings (passage ++ [line])).flatMap rowsOf ++
          (openLabel? settings (passage ++ [line])).toList ∧
      (openLabel? settings (passage ++ [line])).map settings.clip =
        (openLabel? settings (passage ++ [line])).map fullText := by
  rw [pairs_append_singleton]
  by_cases hkind : settings.kind line = .choice
  · rw [ofKind_append_of_eq hkind, openLabel?_append_singleton, hkept.rows]
    rcases row_cases hkind hquiet with ⟨label, htarget, hlabel, htag, hroom⟩
      | ⟨hlabel, hnone, hclip⟩
    · -- the open label and its target become a pair
      have hclip : settings.clip label = fullText label := by
        have := hkept.label
        rw [hlabel] at this
        simpa using this
      have hchoice : heldChoice (settings.choiceOf (label, line)) = fullChoice (label, line) := by
        rw [heldChoice, fullChoice, Settings.choiceOf, hclip, htag]
      rw [choices_append_target htarget, hlabel, hroom, if_pos htarget,
        not_isStray_of_isTarget htarget, not_isLabel_of_isTarget htarget]
      refine ⟨?_, ?_, rfl⟩
      · simp [hkept.choices, hchoice]
      · simp [rowsOf]
    · rw [choices_append_of_not_isTarget (not_isTarget_of_isLabel hlabel),
        not_isTarget_of_isLabel hlabel, not_isStray_of_isLabel hlabel, hlabel, hnone]
      refine ⟨?_, ?_, ?_⟩
      · simp [hkept.choices]
      · simp
      · simp [hclip]
  · rw [ofKind_append_of_ne hkind, openLabel?_append_of_ne hkind, choices_append_of_ne hkind,
      not_isTarget_of_kind hkind, hkept.rows, hopen hkind]
    refine ⟨?_, ?_, rfl⟩
    · simp [hkept.choices]
    · simp

/-- A line that gives no complaint is taken in in full. -/
theorem kept_append (hkept : Passage.Kept settings passage)
    (hstays : Passage.endsBefore settings passage line = false)
    (hopen : settings.kind line ≠ .choice → openLabel? settings passage = none)
    (hquiet : (Passage.block settings passage).complaints settings line = []) :
    Passage.Kept settings (passage ++ [line]) := by
  obtain ⟨hchoices, hrows, hlabel⟩ := kept_rows_append hkept hopen hquiet
  exact {
    speaker := kept_speaker_append hkept hstays hquiet
    tag := kept_tag_append hkept hquiet
    commands := kept_commands_append hkept hquiet
    speech := kept_speech_append hkept hquiet
    choices := hchoices
    rows := hrows
    label := hlabel }

end Step

/-! ## Passages that are closed without a complaint -/

/-- The closed passages are read in full, none ends with an open label, each has a node, and no
tag is renamed. -/
structure Settled (settings : Settings) (closed : List Passage) : Prop where
  kept : ∀ passage ∈ closed, Passage.Kept settings passage
  ended : ∀ passage ∈ closed, openLabel? settings passage = none
  fits : closed.length ≤ settings.maxNodes.toNat
  named : ∀ entry ∈ closed.zip (giveTags (closed.map (Passage.tag settings))),
    ∀ own ∈ Passage.tag settings entry.1, entry.2 = own

section Run

variable {settings : Settings} {closed : List Passage} {passage : Passage} {draft : Draft}
  {place : Place} {line : Line}

theorem settled_nil (settings : Settings) : Settled settings [] := by
  constructor <;> simp

/-- A choice list that ends without a complaint leaves no label open. -/
theorem openLabel?_of_labelComplaints
    (hended : (Passage.block settings passage).labelComplaints = []) :
    openLabel? settings passage = none := by
  cases hopen : openLabel? settings passage with
  | none => rfl
  | some label => simp [Block.labelComplaints, Passage.block, hopen] at hended

theorem ownTags_of_fits (hfits : closed.length ≤ settings.maxNodes.toNat) :
    ownTags settings closed = closed.map (Passage.tag settings) := by
  rw [ownTags, List.take_of_length_le hfits]

/-- A block that is closed without a complaint settles its passage. -/
theorem settled_append (hsettled : Settled settings closed) (hkept : Passage.Kept settings passage)
    (htracks : draft.Tracks settings closed passage)
    (hended : draft.block.labelComplaints = []) (hquiet : draft.closeComplaints settings = []) :
    Settled settings (closed ++ [passage]) := by
  have howns := ownTags_of_fits hsettled.fits
  rw [htracks.block] at hended
  have hlast := openLabel?_of_labelComplaints hended
  unfold Draft.closeComplaints at hquiet
  split at hquiet
  · cases hquiet
  next hroom =>
  rw [Graph.size, htracks.nodes, length_nodesOf, howns, List.length_map] at hroom
  have hfinal : freshTag (giveTags (closed.map (Passage.tag settings)))
      (askedTag (closed.map (Passage.tag settings)) (Passage.tag settings passage)) =
        askedTag (closed.map (Passage.tag settings)) (Passage.tag settings passage) := by
    unfold Draft.renameComplaints at hquiet
    split at hquiet
    · next hsame =>
      rw [Draft.finalTag, htracks.usedTags, Graph.tags, htracks.nodes, map_tag_nodesOf,
        baseTag_of_holds htracks.toHolds (by rw [htracks.block]; rfl), howns] at hsame
      exact hsame
    · cases hquiet
  constructor
  · intro p hp
    rcases List.mem_append.mp hp with hp | hp
    · exact hsettled.kept p hp
    · rwa [List.mem_singleton.mp hp]
  · intro p hp
    rcases List.mem_append.mp hp with hp | hp
    · exact hsettled.ended p hp
    · rwa [List.mem_singleton.mp hp]
  · unfold isFull at hroom
    simp only [List.length_append, List.length_singleton, decide_eq_true_eq] at hroom ⊢
    omega
  · rw [List.map_append, List.map_singleton, giveTags_append_singleton, hfinal,
      List.zip_append (by simp)]
    intro entry hentry own hown
    rcases List.mem_append.mp hentry with hentry | hentry
    · exact hsettled.named entry hentry own hown
    · rw [List.zip_cons_cons, List.zip_nil_left, List.mem_singleton] at hentry
      rw [hentry] at hown ⊢
      rw [Option.mem_def.mp hown]
      rfl

/-- As long as there is no warning, everything is kept. -/
def Quiet (settings : Settings) (closed : List Passage) (passage : Passage) (draft : Draft) :
    Prop :=
  draft.Tracks settings closed passage ∧
    (draft.warnings = [] → Settled settings closed ∧ Passage.Kept settings passage)

theorem quiet_read (h : Quiet settings closed passage draft) (hcounts : settings.counts line) :
    if Passage.endsBefore settings passage line then
      Quiet settings (closed ++ [passage]) [line] (draft.read settings place line)
    else Quiet settings closed (passage ++ [line]) (draft.read settings place line) := by
  obtain ⟨htracks, hsofar⟩ := h
  have hnext : if Passage.endsBefore settings passage line then
      (draft.read settings place line).Tracks settings (closed ++ [passage]) [line]
    else (draft.read settings place line).Tracks settings closed (passage ++ [line]) :=
    tracks_read htracks hcounts
  -- no warning after the step means none before it and no complaint in it
  have hsilent : (draft.read settings place line).warnings = [] →
      draft.warnings = [] ∧ draft.stepComplaints settings line = [] := by
    intro hnone
    rw [Draft.read_warnings hcounts htracks.inChoices, List.append_eq_nil_iff,
      List.map_eq_nil_iff] at hnone
    exact hnone
  by_cases hcut : Passage.endsBefore settings passage line
  · rw [if_pos hcut] at hnext ⊢
    refine ⟨hnext, fun hnone => ?_⟩
    obtain ⟨hbefore, hstep⟩ := hsilent hnone
    obtain ⟨hsettled, hkept⟩ := hsofar hbefore
    have hplain : settings.kind line ≠ .choice := by
      intro hchoice
      rw [endsBefore_of_choice hchoice] at hcut
      cases hcut
    have hends : draft.block.endsBefore settings line = true := by
      rw [htracks.block, endsBefore_block, hcut]
    rw [Draft.stepComplaints, if_neg hplain, Block.before, hends, if_pos rfl, if_pos rfl,
      List.append_eq_nil_iff, List.append_eq_nil_iff, ← block_nil settings] at hstep
    obtain ⟨⟨hended, hclosed⟩, hline⟩ := hstep
    refine ⟨settled_append hsettled hkept htracks hended hclosed, ?_⟩
    exact kept_append (kept_nil settings) endsBefore_nil (fun _ => rfl) hline
  · rw [if_neg hcut] at hnext ⊢
    refine ⟨hnext, fun hnone => ?_⟩
    obtain ⟨hbefore, hstep⟩ := hsilent hnone
    obtain ⟨hsettled, hkept⟩ := hsofar hbefore
    have hends : draft.block.endsBefore settings line = false := by
      rw [htracks.block, endsBefore_block]
      simpa using hcut
    refine ⟨hsettled, kept_append hkept (by simpa using hcut) ?_ ?_⟩
    · intro hplain
      rw [Draft.stepComplaints, if_neg hplain, List.append_eq_nil_iff,
        List.append_eq_nil_iff, htracks.block] at hstep
      exact openLabel?_of_labelComplaints hstep.1.1
    · have hline := (List.append_eq_nil_iff.mp hstep).2
      rw [Block.before, hends, htracks.block] at hline
      split at hline
      · contradiction
      · split at hline
        · exact hline
        · next hplain => rwa [Block.complaints_dropLabel hplain] at hline

/-- A passage that is read in full and makes neither a node nor a complaint has no lines. -/
theorem eq_nil_of_kept (hkept : Passage.Kept settings passage)
    (hcounts : ∀ line ∈ passage, settings.counts line)
    (hcontent : Passage.hasContent settings passage = false)
    (htag : Passage.tag settings passage = none) (hopen : openLabel? settings passage = none) :
    passage = [] := by
  simp only [Passage.hasContent, Passage.hasBody, Bool.or_eq_false_iff, bne_eq_false_iff_eq,
    Option.isSome_eq_false_iff, Option.isNone_iff_eq_none] at hcontent
  obtain ⟨hspeaker, ⟨hspeech, hcommands⟩, hchoices⟩ := hcontent
  have hspeakers : Passage.ofKind settings .speaker passage = [] := by
    simpa [hspeaker] using hkept.speaker
  have htags : Passage.ofKind settings .tag passage = [] := by
    simpa [htag] using hkept.tag
  have hspoken : Passage.ofKind settings .speech passage = [] := by
    simpa [hspeech] using hkept.speech
  have hordered : Passage.ofKind settings .command passage = [] := by
    simpa [hcommands] using hkept.commands
  have hoffered : Passage.ofKind settings .choice passage = [] := by
    have hpairs : pairs settings passage = [] := by simpa [hchoices] using hkept.choices
    rw [hkept.rows, hpairs, hopen]
    rfl
  rw [List.eq_nil_iff_forall_not_mem]
  intro line hline
  have hmem : line ∈ Passage.ofKind settings (settings.kind line) passage := by
    simpa [Passage.ofKind] using hline
  have hcount := hcounts line hline
  cases hkind : settings.kind line with
  | blank | comment => simp [Settings.counts, hkind] at hcount
  | tag => simp [hkind, htags] at hmem
  | speaker => simp [hkind, hspeakers] at hmem
  | command => simp [hkind, hordered] at hmem
  | choice => simp [hkind, hoffered] at hmem
  | speech => simp [hkind, hspoken] at hmem

/-- If the last block gives no complaint, its passage is settled, or there is nothing in it. -/
theorem settled_finish (h : Quiet settings closed passage draft)
    (hcounts : ∀ line ∈ passage, settings.counts line)
    (hquiet : (draft.finish settings).warnings = []) :
    let all := closed ++ if Passage.hasContent settings passage then [passage] else []
    Settled settings all ∧ all.flatten = closed.flatten ++ passage := by
  obtain ⟨htracks, hsofar⟩ := h
  rw [Draft.finish_warnings htracks.inChoices, List.append_eq_nil_iff, List.map_eq_nil_iff,
    Draft.lastComplaints, List.append_eq_nil_iff] at hquiet
  obtain ⟨hbefore, hended, hlast⟩ := hquiet
  obtain ⟨hsettled, hkept⟩ := hsofar hbefore
  have hblock : draft.block.hasContent = Passage.hasContent settings passage := by
    rw [htracks.block, hasContent_block]
  rw [hblock] at hlast
  by_cases hcontent : Passage.hasContent settings passage
  · rw [if_pos hcontent] at hlast ⊢
    exact ⟨settled_append hsettled hkept htracks hended hlast, by simp⟩
  · rw [if_neg hcontent] at hlast ⊢
    have hnil : passage = [] := by
      apply eq_nil_of_kept hkept hcounts (by simpa using hcontent)
      · simpa [htracks.block, Passage.block] using hlast
      · rw [htracks.block] at hended
        exact openLabel?_of_labelComplaints hended
    rw [hnil, List.append_nil, List.append_nil]
    exact ⟨hsettled, rfl⟩

theorem settled_contents {text : String} (hquiet : (compile settings text).warnings = []) :
    Settled settings (contents settings text) ∧
      (contents settings text).flatten = countedLines settings text := by
  obtain ⟨closed, passage, hrun, hcuts⟩ :=
    readAll_induction (motive := Quiet settings)
      ⟨tracks_empty settings, fun _ => ⟨settled_nil settings, kept_nil settings⟩⟩ quiet_read text
  have hlines : closed.flatten ++ passage = countedLines settings text := by
    have hflatten := flatten_passagesFrom settings [] (countedLines settings text)
    rw [← passages, hcuts] at hflatten
    simpa using hflatten
  have hcounts : ∀ line ∈ passage, settings.counts line := by
    intro line hline
    have hmem : line ∈ countedLines settings text := by
      rw [← hlines]
      exact List.mem_append_right _ hline
    exact (List.mem_filter.mp hmem).2
  rw [contents_eq hcuts, ← hlines]
  exact settled_finish hrun hcounts hquiet

end Run

end Colloquy.Script
