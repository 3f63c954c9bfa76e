import Mathlib.Data.List.Induction
import Colloquy.Proofs.Script.Reading

/-!
# The lines that warnings name

A warning names the line at which it arose, even if it is about what was said before: a label that
is dropped, or a block for which there is no more room, is reported at the line that ends it. So
the warnings stand in the order of the lines, and lines that do not count are never named
(`cites_ofLines`). What is still pending after the last line is closed without a line, and such
warnings come last.

`Draft.Cites` is what every line keeps, and `Draft.Closing` says what can be wrong at the end. The
main statement is `warnings_in_place`.
-/

namespace Colloquy.Script

variable {settings : Settings} {lines : List Line} {line : Line} {draft : Draft} {warning : Warning}
  {complaint : Complaint}

/-! ## Naming a line -/

/-- A warning names one of some lines, with its number and its text, and the line counts. -/
def Warning.Cites (settings : Settings) (lines : List Line) (warning : Warning) : Prop :=
  ∃ index line, lines[index]? = some line ∧ settings.counts line = true ∧
    warning.place = ⟨index + 1, String.ofList line⟩

/-- A warning may stand before another one: it names no later line, and it names some line if the
other one does. -/
def Warning.Before (first second : Warning) : Prop :=
  second.place.number = 0 ∨ 0 < first.place.number ∧ first.place.number ≤ second.place.number

/-- The warnings of a draft name some lines in their order. -/
structure Draft.Cites (settings : Settings) (lines : List Line) (draft : Draft) : Prop where
  ordered : draft.warnings.Pairwise fun first second => first.place.number ≤ second.place.number
  cited : ∀ warning ∈ draft.warnings, warning.Cites settings lines
  tracked : ∃ closed passage, draft.Tracks settings closed passage

theorem Warning.Cites.pos (h : warning.Cites settings lines) : 0 < warning.place.number := by
  obtain ⟨index, line, -, -, hplace⟩ := h
  rw [hplace]
  exact Nat.succ_pos index

theorem Warning.Cites.le_length (h : warning.Cites settings lines) :
    warning.place.number ≤ lines.length := by
  obtain ⟨index, line, hline, -, hplace⟩ := h
  rw [hplace]
  exact (List.getElem?_eq_some_iff.1 hline).1

theorem Warning.Cites.append (h : warning.Cites settings lines) (more : List Line) :
    warning.Cites settings (lines ++ more) := by
  obtain ⟨index, line, hline, hcounts, hplace⟩ := h
  have hlt : index < lines.length := (List.getElem?_eq_some_iff.1 hline).1
  exact ⟨index, line, by rwa [List.getElem?_append_left hlt], hcounts, hplace⟩

theorem cites_last (hcounts : settings.counts line = true) (complaint : Complaint) :
    Warning.Cites settings (lines ++ [line]) ⟨⟨lines.length + 1, String.ofList line⟩, complaint⟩ :=
  ⟨lines.length, line, List.getElem?_concat_length, hcounts, rfl⟩

/-! ## Reading -/

/-- The draft after some lines, counted from one. -/
def Draft.ofLines (settings : Settings) (lines : List Line) : Draft :=
  readAll settings (lines.zipIdx.map fun entry => (entry.2 + 1, entry.1))

theorem ofLines_append_singleton (settings : Settings) (lines : List Line) (line : Line) :
    Draft.ofLines settings (lines ++ [line]) =
      (Draft.ofLines settings lines).read settings ⟨lines.length + 1, String.ofList line⟩ line := by
  simp [Draft.ofLines, readAll_eq, Draft.readLines, List.zipIdx_append]

theorem exists_tracks_read {place : Place}
    (h : ∃ closed passage, draft.Tracks settings closed passage)
    (hcounts : settings.counts line = true) :
    ∃ closed passage, (draft.read settings place line).Tracks settings closed passage := by
  obtain ⟨closed, passage, htracks⟩ := h
  by_cases hends : Passage.endsBefore settings passage line = true
  · exact ⟨_, _, (if_pos hends).mp (tracks_read htracks hcounts)⟩
  · exact ⟨_, _, (if_neg hends).mp (tracks_read htracks hcounts)⟩

/-- Reading a line adds warnings that name this line, and none if the line does not count. -/
theorem Draft.Cites.read (h : draft.Cites settings lines) (line : Line) :
    (draft.read settings ⟨lines.length + 1, String.ofList line⟩ line).Cites settings
      (lines ++ [line]) := by
  by_cases hcounts : settings.counts line = true
  · obtain ⟨closed, passage, htracks⟩ := h.tracked
    have hwarnings : (draft.read settings ⟨lines.length + 1, String.ofList line⟩ line).warnings =
        draft.warnings ++ (draft.stepComplaints settings line).map
          (⟨⟨lines.length + 1, String.ofList line⟩, ·⟩) :=
      Draft.read_warnings hcounts htracks.inChoices
    refine ⟨?_, ?_, exists_tracks_read h.tracked hcounts⟩
    · rw [hwarnings, List.pairwise_append]
      refine ⟨h.ordered, ?_, fun old hold new hnew => ?_⟩
      · rw [List.pairwise_map]
        exact List.pairwise_of_forall fun _ _ => Nat.le_refl _
      · obtain ⟨complaint, -, rfl⟩ := List.mem_map.1 hnew
        exact Nat.le_succ_of_le (h.cited old hold).le_length
    · intro warning hwarning
      rw [hwarnings, List.mem_append] at hwarning
      obtain hold | hnew := hwarning
      · exact (h.cited warning hold).append [line]
      · obtain ⟨complaint, -, rfl⟩ := List.mem_map.1 hnew
        exact cites_last hcounts complaint
  · rw [Draft.read_of_not_counts (by simpa using hcounts)]
    exact ⟨h.ordered, fun warning hwarning => (h.cited warning hwarning).append [line], h.tracked⟩

theorem cites_ofLines (settings : Settings) (lines : List Line) :
    (Draft.ofLines settings lines).Cites settings lines := by
  induction lines using List.reverseRecOn with
  | nil =>
      exact ⟨List.Pairwise.nil, by simp [Draft.ofLines, readAll_eq, Draft.readLines], [], [],
        tracks_empty settings⟩
  | append_singleton lines line ih =>
    rw [ofLines_append_singleton]
    exact ih.read line

/-! ## Closing -/

/-- What is wrong at the end of a script: with the label that waits, with the block if there is
one, and with the tag otherwise. -/
inductive Draft.Closing (settings : Settings) (draft : Draft) : Complaint → Prop
  | label {label : String} (waits : draft.block.label = some label) :
    Closing settings draft (.labelDropped label)
  | full (content : draft.block.hasContent = true)
    (full : isFull draft.graph.size settings.maxNodes = true) :
    Closing settings draft (.nodesFull settings.maxNodes)
  | taken (content : draft.block.hasContent = true)
    (room : isFull draft.graph.size settings.maxNodes = false)
    (other : draft.finalTag ≠ draft.baseTag) :
    Closing settings draft (.tagTaken draft.baseTag draft.finalTag)
  | tag {tag : String} (content : draft.block.hasContent = false)
    (pending : draft.block.tag = some tag) :
    Closing settings draft (.tagUnused tag)

theorem mem_labelComplaints_iff {block : Block} :
    complaint ∈ block.labelComplaints ↔ ∃ label,
    block.label = some label ∧ complaint = .labelDropped label := by
  unfold Block.labelComplaints
  cases block.label <;> simp

theorem mem_closeComplaints_iff :
    complaint ∈ draft.closeComplaints settings ↔
      isFull draft.graph.size settings.maxNodes = true ∧ complaint = .nodesFull settings.maxNodes ∨
      isFull draft.graph.size settings.maxNodes = false ∧ draft.finalTag ≠ draft.baseTag ∧
        complaint = .tagTaken draft.baseTag draft.finalTag := by
  unfold Draft.closeComplaints Draft.renameComplaints
  by_cases hfull : isFull draft.graph.size settings.maxNodes = true
  · simp [hfull]
  · by_cases hkept : draft.finalTag = draft.baseTag
    · simp [hfull, hkept]
    · simp [hfull, hkept]

theorem mem_lastComplaints_iff :
    complaint ∈ draft.lastComplaints settings ↔ draft.Closing settings complaint := by
  rw [Draft.lastComplaints, List.mem_append, mem_labelComplaints_iff]
  constructor
  · rintro (⟨label, hlabel, rfl⟩ | hlast)
    · exact .label hlabel
    · split at hlast
      · next hcontent =>
        obtain ⟨hfull, rfl⟩ | ⟨hroom, hother, rfl⟩ := mem_closeComplaints_iff.1 hlast
        · exact .full hcontent hfull
        · exact .taken hcontent hroom hother
      · next hcontent =>
        obtain ⟨tag, htag, rfl⟩ :
            ∃ tag, draft.block.tag = some tag ∧ Complaint.tagUnused tag = complaint := by
          simpa using hlast
        exact .tag (by simpa using hcontent) htag
  · intro h
    cases h with
    | label hlabel => exact .inl ⟨_, hlabel, rfl⟩
    | full hcontent hfull =>
      rw [if_pos hcontent]
      exact .inr (mem_closeComplaints_iff.2 (.inl ⟨hfull, rfl⟩))
    | taken hcontent hroom hother =>
      rw [if_pos hcontent]
      exact .inr (mem_closeComplaints_iff.2 (.inr ⟨hroom, hother, rfl⟩))
    | tag hcontent htag => simp [hcontent, htag]

/-! ## All warnings -/

theorem cites_readAll (settings : Settings) (text : String) :
    (readAll settings (numberedLines text)).Cites settings (scriptLines text) := by
  rw [numberedLines_eq]
  exact cites_ofLines settings (scriptLines text)

/-- The warnings of a script are those of its lines, and after them those of the end. -/
theorem warnings_compile (settings : Settings) (compiler : Compiler) (text : String) :
    let draft := readAll settings (numberedLines text)
    (compiler.compile settings text).compiled.warnings =
      draft.warnings ++ (draft.lastComplaints settings).map (⟨{}, ·⟩) := by
  rw [Compiler.compile_again]
  obtain ⟨closed, passage, htracks⟩ := (cites_readAll settings text).tracked
  exact Draft.finish_warnings htracks.inChoices

/-- Warnings without a line may follow warnings that name their lines in order. -/
theorem Draft.Cites.pairwise_append (h : draft.Cites settings lines) {last : List Warning}
    (hlast : ∀ warning ∈ last, warning.place.number = 0) :
    (draft.warnings ++ last).Pairwise Warning.Before := by
  refine List.pairwise_append.2 ⟨?_, ?_, fun _ _ warning hwarning => .inl (hlast warning hwarning)⟩
  · exact h.ordered.imp_of_mem fun hfirst _ hle => .inr ⟨(h.cited _ hfirst).pos, hle⟩
  · exact List.pairwise_of_forall_mem_list fun _ _ warning hwarning => .inl (hlast warning hwarning)

/-- Warnings name their lines, whatever the compiler has compiled before. They stand in the order
of these lines, and those that name none are the last ones. Every line that is named is the one
with this number in the script, without its line end, and it is neither blank nor a comment. The
other warnings are about closing what is pending after the last line, with whatever is wrong with
it, and all that arose before name a line. -/
theorem warnings_in_place (settings : Settings) (compiler : Compiler) (text : String) :
    let warnings := (compiler.compile settings text).compiled.warnings
    let draft := readAll settings (numberedLines text)
    warnings.Pairwise Warning.Before ∧
    (∀ warning ∈ warnings, 0 < warning.place.number →
      ∃ line, (scriptLines text)[warning.place.number - 1]? = some line ∧
        warning.place.source = String.ofList line ∧ settings.kind line ≠ .blank ∧
        settings.kind line ≠ .comment) ∧
    (∀ warning ∈ warnings, warning.place.number = 0 →
      warning.place.source = "" ∧ draft.Closing settings warning.complaint) ∧
    (∀ complaint, draft.Closing settings complaint → ⟨{}, complaint⟩ ∈ warnings) ∧
    warnings.filter (0 < ·.place.number) = draft.warnings := by
  intro warnings draft
  have hcites : draft.Cites settings (scriptLines text) := cites_readAll settings text
  obtain ⟨last, hwarnings, hlast⟩ : ∃ last : List Warning, warnings = draft.warnings ++ last ∧
      ∀ warning, warning ∈ last ↔ warning.place = {} ∧
        draft.Closing settings warning.complaint := by
    refine ⟨_, warnings_compile settings compiler text, fun warning => ?_⟩
    rw [List.mem_map, ← mem_lastComplaints_iff]
    constructor
    · rintro ⟨complaint, hcomplaint, rfl⟩
      exact ⟨rfl, hcomplaint⟩
    · rintro ⟨hplace, hcomplaint⟩
      exact ⟨_, hcomplaint, by rw [← hplace]⟩
  have hnumber : ∀ warning ∈ last, warning.place.number = 0 := fun warning hwarning => by
    rw [((hlast warning).1 hwarning).1]
  rw [hwarnings]
  refine ⟨hcites.pairwise_append hnumber, fun warning hwarning hpos => ?_,
    fun warning hwarning hzero => ?_,
    fun complaint hclosing => List.mem_append_right _ ((hlast _).2 ⟨rfl, hclosing⟩), ?_⟩
  · obtain hread | hclosed := List.mem_append.1 hwarning
    · obtain ⟨index, line, hline, hcounts, hplace⟩ := hcites.cited warning hread
      rw [hplace]
      rw [Settings.counts, Bool.and_eq_true, bne_iff_ne, bne_iff_ne] at hcounts
      exact ⟨line, hline, rfl, hcounts⟩
    · exact absurd (hnumber warning hclosed) (Nat.ne_of_gt hpos)
  · obtain hread | hclosed := List.mem_append.1 hwarning
    · exact absurd hzero (Nat.ne_of_gt (hcites.cited warning hread).pos)
    · obtain ⟨hplace, hclosing⟩ := (hlast warning).1 hclosed
      exact ⟨by rw [hplace], hclosing⟩
  · rw [List.filter_append, List.filter_eq_self.2, List.filter_eq_nil_iff.2, List.append_nil]
    · intro warning hwarning
      simp [hnumber warning hwarning]
    · intro warning hwarning
      simpa using (hcites.cited warning hwarning).pos

/-- A label without a target is reported at the line that ends its list, and a tag without a block
at no line. -/
example : (compile {} "  Left\n# Why?\n\n[a]").warnings =
    [⟨⟨4, "[a]"⟩, .labelDropped "Left"⟩, ⟨{}, .tagUnused "a"⟩] := by
  rfl

end Colloquy.Script
