import Mathlib.Logic.Relation
import Colloquy.Graph.Files
import Colloquy.Proofs.Chars.LineEnds
import Colloquy.Proofs.Chars.Utf8
import Colloquy.Proofs.Script.Reading

/-!
# Layout

What a script compiles to depends on what its lines are for and on what they hold between their
blanks. Blank lines and comments, the width of an indentation, and the numbers and ends of lines
have no part in it: they show in the places of the warnings only.

Two drafts match if they differ in the places of their warnings only. A step keeps drafts matching
if the two lines have one gist, so scripts with one outline end in matching drafts.
-/

namespace Colloquy.Script

open Line (Kind)

/-! ## Outlines -/

/-- What matters of a line: what it is for, and its content. -/
def Settings.gist (settings : Settings) (line : Line) : Kind × List Char :=
  (settings.kind line, Chars.trim line)

/-- What matters of some lines: the gists of those that are neither blank nor comments. -/
def outline (settings : Settings) (lines : List Line) : List (Kind × List Char) :=
  (lines.filter settings.counts).map settings.gist

/-- The warnings in words, without the lines that they are about. -/
def Compiled.messages (compiled : Compiled) : List String :=
  compiled.warnings.map (·.complaint.message)

/-- One change of layout in some lines. -/
inductive Relayout (settings : Settings) : List Line → List Line → Prop
  /-- A blank line or a comment goes. -/
  | skip (front back : List Line) {line : Line} (hline : settings.counts line = false) :
    Relayout settings (front ++ line :: back) (front ++ back)
  /-- Blanks are put to the end of a line. -/
  | pad (front back : List Line) (line : Line) {blanks : List Char}
    (hblanks : blanks.all Chars.isBlank) :
    Relayout settings (front ++ line :: back) (front ++ (line ++ blanks) :: back)
  /-- A row of a choice list is indented in another way. -/
  | indent (front back : List Line) (line : Line) {old new : List Char}
    (hold : old.all Chars.isBlank) (hnew : new.all Chars.isBlank)
    (hrow : settings.kind (old ++ line) = .choice)
    (hindented : Line.isIndented settings.minIndent (new ++ line)) :
    Relayout settings (front ++ (old ++ line) :: back) (front ++ (new ++ line) :: back)

/-! ## Lines with one gist -/

section Gist

variable {settings : Settings} {line other : Line}

theorem gist_eq_iff : settings.gist line = settings.gist other ↔
    settings.kind line = settings.kind other ∧ Chars.trim line = Chars.trim other :=
  Prod.ext_iff

/-- Everything that is taken from a line is taken from its content. -/
theorem parts_congr (settings : Settings) (htrim : Chars.trim line = Chars.trim other) :
    Line.tag? line = Line.tag? other ∧ Line.speaker? line = Line.speaker? other ∧
      Line.command line = Line.command other ∧ settings.clip line = settings.clip other := by
  simp only [Line.tag?, Line.speaker?, Line.command, Line.unmarked, Settings.clip, htrim, and_self]

theorem counts_congr (hgist : settings.gist line = settings.gist other) :
    settings.counts line = settings.counts other := by
  rw [Settings.counts, Settings.counts, (gist_eq_iff.mp hgist).1]

theorem Block.endsBefore_congr (hgist : settings.gist line = settings.gist other) (block : Block) :
    block.endsBefore settings line = block.endsBefore settings other := by
  rw [Block.endsBefore, Block.endsBefore, (gist_eq_iff.mp hgist).1]

theorem Block.add_congr (hgist : settings.gist line = settings.gist other) (block : Block) :
    block.add settings line = block.add settings other := by
  obtain ⟨hkind, htrim⟩ := gist_eq_iff.mp hgist
  obtain ⟨htag, hspeaker, hcommand, hclip⟩ := parts_congr settings htrim
  simp only [Block.add, Block.addRow, Line.innerKind, tagName, speakerName, commandOf, hkind, htrim,
    htag, hspeaker, hcommand, hclip]

theorem Block.complaints_congr (hgist : settings.gist line = settings.gist other) (block : Block) :
    block.complaints settings line = block.complaints settings other := by
  obtain ⟨hkind, htrim⟩ := gist_eq_iff.mp hgist
  obtain ⟨htag, hspeaker, hcommand, -⟩ := parts_congr settings htrim
  simp only [Block.complaints, Block.rowComplaints, tagComplaints, speakerComplaints,
    lengthComplaints, Line.innerKind, tagName, commandOf, hkind, htrim, htag, hspeaker, hcommand]

end Gist

/-! ## Matching drafts -/

/-- Two drafts that differ in the places of their warnings only. -/
structure Draft.Matches (first second : Draft) : Prop where
  graph : first.graph = second.graph
  usedTags : first.usedTags = second.usedTags
  autoTags : first.autoTags = second.autoTags
  block : first.block = second.block
  inChoices : first.inChoices = second.inChoices
  complaints : first.warnings.map (·.complaint) = second.warnings.map (·.complaint)

namespace Draft.Matches

variable {settings : Settings} {first second : Draft} {place place' : Place} {line other : Line}

theorem report (h : first.Matches second) (complaints : List Complaint) :
    (first.report place complaints).Matches (second.report place' complaints) where
  graph := h.graph
  usedTags := h.usedTags
  autoTags := h.autoTags
  block := h.block
  inChoices := h.inChoices
  complaints := by
    rw [report_warnings, report_warnings, List.map_append, List.map_append, h.complaints,
      List.map_map, List.map_map]
    rfl

theorem withBlock (h : first.Matches second) (change : Block → Block) :
    (first.withBlock change).Matches (second.withBlock change) where
  graph := h.graph
  usedTags := h.usedTags
  autoTags := h.autoTags
  block := congrArg change h.block
  inChoices := h.inChoices
  complaints := h.complaints

theorem withInChoices (h : first.Matches second) (inChoices : Bool) :
    Matches { first with inChoices := inChoices } { second with inChoices := inChoices } where
  graph := h.graph
  usedTags := h.usedTags
  autoTags := h.autoTags
  block := h.block
  inChoices := rfl
  complaints := h.complaints

theorem dropLabel (h : first.Matches second) (place place' : Place) :
    (first.dropLabel place).Matches (second.dropLabel place') := by
  rw [dropLabel_eq, dropLabel_eq, h.block]
  exact (h.report _).withBlock _

/-- Which node a block becomes does not depend on where the script is. -/
theorem closeBlock (h : first.Matches second) :
    (first.closeBlock settings place).Matches (second.closeBlock settings place') := by
  obtain ⟨graph, usedTags, used, autoTags, block, inChoices, warnings⟩ := first
  obtain ⟨graph', usedTags', used', autoTags', block', inChoices', warnings'⟩ := second
  obtain ⟨rfl, rfl, rfl, rfl, rfl, hcomplaints⟩ := h
  have hsame : Matches ⟨graph, usedTags, used, autoTags, block, inChoices, warnings⟩
      ⟨graph, usedTags, used, autoTags, block, inChoices, warnings'⟩ :=
    ⟨rfl, rfl, rfl, rfl, rfl, hcomplaints⟩
  unfold Draft.closeBlock
  split
  · exact ⟨rfl, rfl, rfl, rfl, rfl, (hsame.report _).complaints⟩
  · exact ⟨rfl, rfl, rfl, rfl, rfl, (hsame.report _).complaints⟩

theorem commit (h : first.Matches second) :
    (first.commit settings place).Matches (second.commit settings place') := by
  rw [commit_eq, commit_eq]
  exact (h.dropLabel place place').closeBlock

theorem add (h : first.Matches second) (hgist : settings.gist line = settings.gist other) :
    (first.add settings place line).Matches (second.add settings place' other) := by
  have hadd : (Block.add settings · line) = (Block.add settings · other) :=
    funext (Block.add_congr hgist)
  rw [Draft.add, Draft.add, hadd, h.block, Block.complaints_congr hgist]
  exact (h.report _).withBlock _

theorem ite {p q : Bool} (hpq : p = q) {first' second' : Draft} (h : first.Matches second)
    (h' : first'.Matches second') :
    Matches (if p then first else first') (if q then second else second') := by
  subst hpq
  cases p
  · exact h'
  · exact h

/-- Where a line stands and how it is laid out makes no difference to what a step does with it. -/
theorem read (h : first.Matches second) (hgist : settings.gist line = settings.gist other) :
    (first.read settings place line).Matches (second.read settings place' other) := by
  obtain ⟨hkind, -⟩ := gist_eq_iff.mp hgist
  have hcounts := counts_congr hgist
  by_cases hskip : settings.counts line = false
  · rw [read_of_not_counts hskip, read_of_not_counts (hcounts ▸ hskip)]
    exact h
  rw [Bool.not_eq_false] at hskip
  by_cases hchoice : settings.kind line = .choice
  · rw [read_of_choice hchoice, read_of_choice (hkind ▸ hchoice)]
    exact (h.add hgist).withInChoices true
  · have hsettled := (ite h.inChoices (h.dropLabel place place') h).withInChoices false
    rw [read_of_plain hskip hchoice, readPlain_eq hskip hchoice,
      read_of_plain (hcounts ▸ hskip) (hkind ▸ hchoice),
      readPlain_eq (hcounts ▸ hskip) (hkind ▸ hchoice)]
    refine (ite ?_ hsettled.commit hsettled).add hgist
    rw [hsettled.block, Block.endsBefore_congr hgist]

theorem finish (h : first.Matches second) :
    (first.finish settings).Matches (second.finish settings) := by
  have hsettled := ite h.inChoices (h.dropLabel {} {}) h
  unfold Draft.finish
  dsimp only
  generalize (if first.inChoices then first.dropLabel {} else first) = settled at hsettled ⊢
  generalize (if second.inChoices then second.dropLabel {} else second) = settled' at hsettled ⊢
  refine ite (congrArg Block.hasContent hsettled.block) hsettled.commit ?_
  rw [hsettled.block]
  cases settled'.block.tag with
  | none => exact hsettled
  | some tag => exact hsettled.report [.tagUnused tag]

/-- Lines with the same gists, one by one, keep drafts matching. -/
theorem readLines_of_gists {entries others : List (Nat × Line)} (h : first.Matches second)
    (hgists : entries.map (settings.gist ·.2) = others.map (settings.gist ·.2)) :
    (first.readLines settings entries).Matches (second.readLines settings others) := by
  induction entries generalizing others first second with
  | nil =>
    rw [List.map_nil, eq_comm, List.map_eq_nil_iff] at hgists
    rw [hgists]
    exact h
  | cons entry entries ih =>
    obtain ⟨entry', others', rfl, hgist, hrest⟩ := List.map_eq_cons_iff.mp hgists.symm
    rw [Draft.readLines, List.foldl_cons, Draft.readLines, List.foldl_cons]
    exact ih (h.read hgist.symm) hrest.symm

/-- Lines with one outline keep drafts matching. -/
theorem readLines {entries others : List (Nat × Line)} (h : first.Matches second)
    (houtline : outline settings (entries.map (·.2)) = outline settings (others.map (·.2))) :
    (first.readLines settings entries).Matches (second.readLines settings others) := by
  rw [← readLines_filter settings first entries, ← readLines_filter settings second others]
  apply h.readLines_of_gists
  rw [outline, outline, List.filter_map, List.filter_map, List.map_map, List.map_map] at houtline
  exact houtline

end Draft.Matches

/-! ## Changes of layout -/

section Blanks

variable {settings : Settings} {line : Line} {blanks : List Char}

theorem trim_blanks (hblanks : ∀ c ∈ blanks, Chars.isBlank c) : Chars.trim blanks = [] := by
  simpa using Chars.trim_append_blanks hblanks []

/-- Blanks at the end do not change the indentation of a line with content. -/
theorem isIndented_append_blanks (hline : Chars.trim line ≠ []) (minIndent : Int)
    (blanks : List Char) :
    Line.isIndented minIndent (line ++ blanks) = Line.isIndented minIndent line := by
  have hpart : (line.takeWhile Chars.isBlank).length ≠ line.length := by
    intro hlength
    have hall := (List.takeWhile_prefix Chars.isBlank).eq_of_length hlength
    exact hline (trim_blanks (List.takeWhile_eq_self_iff.mp hall))
  cases line with
  | nil => exact absurd rfl hline
  | cons c cs =>
    rw [List.cons_append, Line.isIndented, Line.isIndented, ← List.cons_append,
      List.takeWhile_append, if_neg hpart]

theorem gist_append_blanks (hblanks : ∀ c ∈ blanks, Chars.isBlank c) :
    settings.gist (line ++ blanks) = settings.gist line := by
  have htrim := Chars.trim_append_blanks hblanks line
  refine gist_eq_iff.mpr ⟨?_, htrim⟩
  unfold Settings.kind Line.kind
  rw [htrim]
  by_cases hline : Chars.trim line = []
  · rw [hline]
    rfl
  · rw [isIndented_append_blanks hline]

/-- Carriage returns at the end of a line are blanks like others. -/
theorem gist_dropReturns : settings.gist (Chars.dropReturns line) = settings.gist line := by
  obtain ⟨returns, hreturns, heq⟩ := Chars.exists_dropReturns_append line
  conv_rhs => rw [← heq]
  exact (gist_append_blanks hreturns).symm

theorem kind_eq_choice_iff : settings.kind line = .choice ↔
    (Line.innerKind line ≠ .blank ∧ Line.innerKind line ≠ .comment) ∧
      Line.isIndented settings.minIndent line := by
  have hinner : Line.innerKind line ≠ .choice := by
    unfold Line.innerKind Line.contentKind
    repeat' split
    all_goals simp
  unfold Settings.kind Line.kind
  rw [← Line.innerKind]
  cases hkind : Line.innerKind line <;> simp_all

end Blanks

/-- An outline depends on the gists of the lines, one by one. -/
theorem outline_congr {settings : Settings} {line other : Line}
    (hgist : settings.gist line = settings.gist other) (front back : List Line) :
    outline settings (front ++ line :: back) = outline settings (front ++ other :: back) := by
  have hcounts := counts_congr hgist
  unfold outline
  simp only [List.filter_append, List.filter_cons, List.map_append, hcounts]
  split
  · rw [List.map_cons, List.map_cons, hgist]
  · rfl

/-- A change of layout changes no outline. -/
theorem outline_relayout {settings : Settings} {lines others : List Line}
    (h : Relayout settings lines others) : outline settings lines = outline settings others := by
  cases h with
  | skip front back hline => simp [outline, List.filter_append, hline]
  | pad front back line hblanks =>
    exact outline_congr (gist_append_blanks (List.all_eq_true.mp hblanks)).symm front back
  | indent front back line hold hnew hrow hindented =>
    refine outline_congr (gist_eq_iff.mpr ?_) front back
    have htrim : ∀ {blanks : List Char}, blanks.all Chars.isBlank →
        Chars.trim (blanks ++ line) = Chars.trim line :=
      fun hblanks => Chars.trim_blanks_append (List.all_eq_true.mp hblanks) line
    refine ⟨?_, (htrim hold).trans (htrim hnew).symm⟩
    obtain ⟨hinner, -⟩ := kind_eq_choice_iff.mp hrow
    rw [hrow, eq_comm, kind_eq_choice_iff, Line.innerKind, htrim hnew, ← htrim hold]
    exact ⟨hinner, hindented⟩

/-- Changes of layout, made and taken back, change no outline. -/
theorem outline_of_eqvGen {settings : Settings} {lines others : List Line}
    (h : Relation.EqvGen (Relayout settings) lines others) :
    outline settings lines = outline settings others := by
  induction h with
  | rel lines others h => exact outline_relayout h
  | refl lines => rfl
  | symm lines others _ ih => exact ih.symm
  | trans lines between others _ _ ih ih' => exact ih.trans ih'

/-- The end of a line has no part in its gist. -/
theorem outline_scriptLines (settings : Settings) (text : String) :
    outline settings (scriptLines text) = outline settings (Chars.lines text.toList) := by
  have hcounts : settings.counts ∘ Chars.dropReturns = settings.counts :=
    funext fun _ => counts_congr gist_dropReturns
  rw [outline, scriptLines_eq, List.filter_map, hcounts, List.map_map, outline]
  exact List.map_congr_left fun _ _ => gist_dropReturns

/-! ## Scripts with one outline -/

/-- Scripts with one outline leave drafts that match. -/
theorem matches_of_outline {settings : Settings} {first second : String}
    (h : outline settings (scriptLines first) = outline settings (scriptLines second)) :
    Draft.Matches ((readAll settings (numberedLines first)).finish settings)
      ((readAll settings (numberedLines second)).finish settings) := by
  have hstart : Draft.Matches {} {} := ⟨rfl, rfl, rfl, rfl, rfl, rfl⟩
  rw [← map_snd_numberedLines, ← map_snd_numberedLines] at h
  rw [readAll_eq, readAll_eq]
  exact (hstart.readLines h).finish

theorem compile_of_outline {settings : Settings} {first second : String}
    (h : outline settings (scriptLines first) = outline settings (scriptLines second)) :
    (compile settings first).graph = (compile settings second).graph ∧
      (compile settings first).messages = (compile settings second).messages := by
  have hmatches := matches_of_outline h
  refine ⟨hmatches.graph, ?_⟩
  have hmessages := congrArg (List.map Complaint.message) hmatches.complaints
  rw [List.map_map, List.map_map] at hmessages
  exact hmessages

/-- A file gives the text that was put into it, up to the line ends that reading unifies. -/
theorem compileFile_of_read {settings : Settings} {text : String} {tree : Files.Tree}
    {path : Files.Path} (hfile : tree.read path = .ok (Utf8.encode text))
    (hpaired : Chars.ReturnsPaired text.toList) :
    compileFile settings tree path = .ok (compile settings text) := by
  have htext : tree.readText path = .ok (String.ofList (Chars.unifyLineEnds text.toList)) := by
    unfold Files.Tree.readText
    simp only [hfile, Utf8.decode_encode]
  have hlines :
      scriptLines (String.ofList (Chars.unifyLineEnds text.toList)) = scriptLines text := by
    rw [scriptLines_eq, scriptLines_eq, String.toList_ofList]
    exact Chars.lines_unifyLineEnds hpaired
  have hnumbered : numberedLines (String.ofList (Chars.unifyLineEnds text.toList)) =
      numberedLines text := by
    rw [numberedLines_eq, numberedLines_eq, hlines]
  rw [compileFile_eq, htext, Except.map, compile_eq, compile_eq, hnumbered]

/-- Layout does not matter. Scripts whose lines, blank lines and comments apart, agree in kind and
content compile to the same graph with the same warnings in words. So do scripts that differ in
blank lines and comments, in blanks at the end of lines, and in how far the rows of choice lists
are indented. And a script in a file compiles as it is, whether its lines end in line feeds alone
or with carriage returns before them. -/
theorem layout_irrelevant (settings : Settings) :
    (∀ first second,
      outline settings (scriptLines first) = outline settings (scriptLines second) →
      (compile settings first).graph = (compile settings second).graph ∧
        (compile settings first).messages = (compile settings second).messages) ∧
    (∀ first second : String,
      Relation.EqvGen (Relayout settings) (Chars.lines first.toList) (Chars.lines second.toList) →
      (compile settings first).graph = (compile settings second).graph ∧
        (compile settings first).messages = (compile settings second).messages) ∧
    ∀ (text : String) (tree : Files.Tree) (path : Files.Path),
      tree.read path = .ok (Utf8.encode text) → Chars.ReturnsPaired text.toList →
      compileFile settings tree path = .ok (compile settings text) := by
  refine ⟨fun _ _ => compile_of_outline, fun first second hchanges => ?_,
    fun _ _ _ => compileFile_of_read⟩
  apply compile_of_outline
  rw [outline_scriptLines, outline_scriptLines]
  exact outline_of_eqvGen hchanges

/-- A script with comments, an empty line, a wider indentation and a carriage return, beside the
plain one. -/
theorem layout_irrelevant_reindented :
    let plain := "Ann:\n  Go\n  [b]\n  Stay"
    let spaced := "# Ann\nAnn:\n\n\tGo\n  [b]\r\n  Stay"
    let text := "Ann:\r\nHi.\r\n"
    let tree := (Files.Tree.bare .top).put (Files.Place.top.child "a") (.file (Utf8.encode text))
    (outline {} (scriptLines plain) = outline {} (scriptLines spaced) ∧
      Relation.EqvGen (Relayout {}) (Chars.lines plain.toList) (Chars.lines spaced.toList) ∧
      (compile {} plain).graph = (compile {} spaced).graph ∧
      (compile {} plain).messages = (compile {} spaced).messages) ∧
    tree.read { names := ["a"] } = .ok (Utf8.encode text) ∧ Chars.ReturnsPaired text.toList ∧
      compileFile {} tree { names := ["a"] } = .ok (compile {} text) := by
  intro plain spaced text tree
  have houtline : outline {} (scriptLines plain) = outline {} (scriptLines spaced) := by
    decide +kernel
  have hchanges : Relation.EqvGen (Relayout {}) (Chars.lines plain.toList)
      (Chars.lines spaced.toList) := by
    let ann : Line := ['A', 'n', 'n', ':']
    let go : Line := ['G', 'o']
    let target : Line := [' ', ' ', '[', 'b', ']']
    let stay : Line := [' ', ' ', 'S', 't', 'a', 'y']
    have hplain : Chars.lines plain.toList = [ann, [' ', ' '] ++ go, target, stay] := by
      decide +kernel
    have hspaced : Chars.lines spaced.toList =
        [['#', ' ', 'A', 'n', 'n'], ann, [], ['\t'] ++ go, target ++ ['\r'], stay] := by
      decide +kernel
    have hpad : Relayout {} [ann, [' ', ' '] ++ go, target, stay]
        [ann, [' ', ' '] ++ go, target ++ ['\r'], stay] :=
      .pad [ann, [' ', ' '] ++ go] [stay] target (by decide)
    have hindent : Relayout {} [ann, [' ', ' '] ++ go, target ++ ['\r'], stay]
        [ann, ['\t'] ++ go, target ++ ['\r'], stay] :=
      .indent [ann] [target ++ ['\r'], stay] go (by decide) (by decide) (by decide) (by decide)
    have hempty : Relayout {} [ann, [], ['\t'] ++ go, target ++ ['\r'], stay]
        [ann, ['\t'] ++ go, target ++ ['\r'], stay] :=
      .skip [ann] [['\t'] ++ go, target ++ ['\r'], stay] (by decide)
    have hcomment :
        Relayout {} [['#', ' ', 'A', 'n', 'n'], ann, [], ['\t'] ++ go, target ++ ['\r'], stay]
        [ann, [], ['\t'] ++ go, target ++ ['\r'], stay] :=
      .skip [] [ann, [], ['\t'] ++ go, target ++ ['\r'], stay] (by decide)
    rw [hplain, hspaced]
    exact .trans _ _ _ (.trans _ _ _ (.rel _ _ hpad) (.rel _ _ hindent))
      (.symm _ _ (.trans _ _ _ (.rel _ _ hcomment) (.rel _ _ hempty)))
  have hread : tree.read { names := ["a"] } = .ok (Utf8.encode text) := by decide +kernel
  have hpaired : Chars.ReturnsPaired text.toList := by decide +kernel
  obtain ⟨hsame, hrelaid, hfile⟩ := layout_irrelevant {}
  exact ⟨⟨houtline, hchanges, (hsame plain spaced houtline).1, (hrelaid plain spaced hchanges).2⟩,
    hread, hpaired, hfile text tree _ hread hpaired⟩

end Colloquy.Script
