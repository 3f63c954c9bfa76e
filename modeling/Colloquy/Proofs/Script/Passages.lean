import Mathlib.Data.List.Basic
import Mathlib.Data.List.DropRight
import Mathlib.Tactic.Common
import Colloquy.Proofs.Chars.LineEnds
import Colloquy.Script.Compiled

/-!
# Passages of a script

The lines of a script that are neither blank nor comments fall into passages, and every passage
with a speaker or a body stands for one node. This file reads a passage as a whole. What it says,
orders and offers is collected from all of its lines at once; no state is carried from line to
line.

* `passages` cuts lines into passages, from left to right.
* `Passage.node` is the node that a passage stands for, once its tag is known.
* `giveTags` gives the nodes their tags, from left to right.
* `nodesOf` puts these together.

The second half of the file says how each part of a passage changes when a line is added at its end.
These equations are all that other files need to know about the definitions.
-/

namespace Colloquy.Script

open Line (Kind)

/-! ## Lines -/

/-- The lines of a script: what stands between its line feeds, without the carriage returns at the
end. -/
def scriptLines (text : String) : List Line :=
  (text.toList.splitOn '\n').map (·.rdropWhile (· == '\r'))

theorem scriptLines_eq (text : String) :
    scriptLines text = (Chars.lines text.toList).map Chars.dropReturns :=
  (Chars.lines_dropReturns text.toList).symm

/-- The kind of a line under the indentation that the settings ask for. -/
def Settings.kind (settings : Settings) (line : Line) : Kind :=
  Line.kind settings.minIndent line

/-- Whether a line is neither blank nor a comment. -/
def Settings.counts (settings : Settings) (line : Line) : Bool :=
  settings.kind line != .blank && settings.kind line != .comment

/-- The lines of a script that are neither blank nor comments. -/
def countedLines (settings : Settings) (text : String) : List Line :=
  (scriptLines text).filter settings.counts

/-- The tag on a line. A line without one stands for its whole content. -/
def tagName (line : Line) : String :=
  (Line.tag? line).getD (String.ofList (Chars.trim line))

/-- The speaker on a line. A line without one stands for its whole content. -/
def speakerName (line : Line) : String :=
  (Line.speaker? line).getD (String.ofList (Chars.trim line))

/-- The command on a line. -/
def commandOf (line : Line) : Command :=
  ⟨(Line.command line).1, (Line.command line).2⟩

/-- The content of a line, clipped: no more is left of it than the first characters, as many as are
allowed. If that number is below zero, it says how many of the last characters are taken away. -/
def Settings.clip (settings : Settings) (line : Line) : String :=
  match settings.maxLineLength with
  | .ofNat allowed => String.ofList ((Chars.trim line).take allowed)
  | .negSucc less => String.ofList ((Chars.trim line).rdrop (less + 1))

/-! ## Rows of a choice list -/

/-- A row with the label of a choice. -/
def Settings.isLabel (settings : Settings) (line : Line) : Bool :=
  settings.kind line == .choice && Line.innerKind line != .tag && Line.innerKind line != .command

/-- A row with the target of a choice. -/
def Settings.isTarget (settings : Settings) (line : Line) : Bool :=
  settings.kind line == .choice && Line.innerKind line == .tag

/-- A row with a command, which has no place among choices. -/
def Settings.isStray (settings : Settings) (line : Line) : Bool :=
  settings.kind line == .choice && Line.innerKind line == .command

/-- The members of a list, each with the one that follows it. -/
def neighbours {α : Type} (l : List α) : List (α × α) :=
  l.zip l.tail

/-- The labels with the targets that follow them. Commands between the two rows count as absent. -/
def pairs (settings : Settings) (lines : List Line) : List (Line × Line) :=
  (neighbours (lines.filter (! settings.isStray ·))).filter fun (label, target) =>
    settings.isLabel label && settings.isTarget target

/-- The label that still waits for its target after some lines. -/
def openLabel? (settings : Settings) (lines : List Line) : Option Line :=
  (lines.filter (! settings.isStray ·)).getLast?.filter settings.isLabel

/-- The choice that a label and a target make. -/
def Settings.choiceOf (settings : Settings) (pair : Line × Line) : Choice :=
  ⟨settings.clip pair.1, tagName pair.2⟩

/-! ## Passages -/

/-- The lines between two cuts. -/
abbrev Passage := List Line

namespace Passage

/-- The lines of one kind. -/
def ofKind (settings : Settings) (kind : Kind) (passage : Passage) : List Line :=
  passage.filter (settings.kind · == kind)

/-- Who speaks. -/
def speaker (settings : Settings) (passage : Passage) : Option String :=
  (ofKind settings .speaker passage).head?.map speakerName

/-- The tag that the passage has of its own. The last tag line counts. -/
def tag (settings : Settings) (passage : Passage) : Option String :=
  (ofKind settings .tag passage).getLast?.map tagName

/-- The lines of speech. -/
def speech (settings : Settings) (passage : Passage) : List String :=
  (ofKind settings .speech passage).map settings.clip

/-- The commands that have a name. -/
def namedCommands (settings : Settings) (passage : Passage) : List Command :=
  ((ofKind settings .command passage).map commandOf).filter (! ·.name.isEmpty)

/-- The commands that are kept. -/
def commands (settings : Settings) (passage : Passage) : List Command :=
  (namedCommands settings passage).take settings.maxCommands.toNat

/-- The choices that are kept. -/
def choices (settings : Settings) (passage : Passage) : List Choice :=
  ((pairs settings passage).map settings.choiceOf).take settings.maxChoices.toNat

/-- Whether anything is said, ordered or offered. -/
def hasBody (settings : Settings) (passage : Passage) : Bool :=
  speech settings passage != [] || commands settings passage != [] || choices settings passage != []

/-- Whether the passage stands for a node. -/
def hasContent (settings : Settings) (passage : Passage) : Bool :=
  (speaker settings passage).isSome || hasBody settings passage

/-- The node that the passage stands for, once its tag is known. -/
def node (settings : Settings) (passage : Passage) (tag : String) : Node where
  tag := tag
  speaker := (speaker settings passage).getD ""
  text := " ".intercalate (speech settings passage)
  commands := commands settings passage
  choices := choices settings passage

/-- Whether a line begins the next passage. Until a speaker has been named, none does. After that,
the next speaker does, and so does a tag once the passage has a body. -/
def endsBefore (settings : Settings) (passage : Passage) (line : Line) : Bool :=
  (speaker settings passage).isSome &&
    (settings.kind line == .speaker || settings.kind line == .tag && hasBody settings passage)

end Passage

/-- The passages of some lines that follow `current`, which is the beginning of the first one. -/
def passagesFrom (settings : Settings) (current : Passage) : List Line → List Passage
  | [] => [current]
  | line :: lines =>
    if Passage.endsBefore settings current line then current :: passagesFrom settings [line] lines
    else passagesFrom settings (current ++ [line]) lines

/-- The passages of some lines. -/
def passages (settings : Settings) (lines : List Line) : List Passage :=
  passagesFrom settings [] lines

/-- The passages of a script that stand for nodes, before any are left out for their number. -/
def contents (settings : Settings) (text : String) : List Passage :=
  (passages settings (countedLines settings text)).filter (Passage.hasContent settings)

/-! ## Tags -/

/-- The tag that a node asks for. `earlier` holds the nodes before it, each with the tag that its
passage has of its own, if any. -/
def askedTag (earlier : List (Option String)) (own : Option String) : String :=
  match own with
  | some tag => tag
  | none => if earlier = [] then startTag else autoTag (earlier.tail.countP Option.isNone)

/-- One more node gets its tag, after some that have theirs. -/
def giveTag (given : List (Option String × String)) (own : Option String) :
    List (Option String × String) :=
  given ++ [(own, freshTag (given.map (·.2)) (askedTag (given.map (·.1)) own))]

/-- The tags of nodes whose passages have certain tags of their own. -/
def giveTags (owns : List (Option String)) : List String :=
  (owns.foldl giveTag []).map (·.2)

/-- The nodes that passages stand for. -/
def nodesOf (settings : Settings) (passages : List Passage) : List Node :=
  let kept := passages.take settings.maxNodes.toNat
  List.zipWith (Passage.node settings) kept (giveTags (kept.map (Passage.tag settings)))

/-! ## Adding a row -/

theorem neighbours_append_singleton {α : Type} (l : List α) (x : α) :
    neighbours (l ++ [x]) = neighbours l ++ (l.getLast?.map (·, x)).toList := by
  induction l with
  | nil => rfl
  | cons a l ih =>
    cases l with
    | nil => rfl
    | cons b l =>
      have htail : neighbours (a :: b :: (l ++ [x])) = (a, b) :: neighbours (b :: l ++ [x]) := rfl
      rw [List.cons_append, List.cons_append, htail, ih]
      simp [neighbours]

section Rows

variable {settings : Settings} {line : Line}

theorem not_isLabel_of_kind (h : settings.kind line ≠ .choice) : settings.isLabel line = false := by
  simp [Settings.isLabel, h]

theorem not_isTarget_of_kind (h : settings.kind line ≠ .choice) :
    settings.isTarget line = false := by
  simp [Settings.isTarget, h]

theorem not_isStray_of_kind (h : settings.kind line ≠ .choice) : settings.isStray line = false := by
  simp [Settings.isStray, h]

theorem not_isTarget_of_isLabel (h : settings.isLabel line) : settings.isTarget line = false := by
  simp only [Settings.isLabel, Bool.and_eq_true, beq_iff_eq, bne_iff_ne] at h
  simp [Settings.isTarget, h.1.2]

theorem not_isStray_of_isLabel (h : settings.isLabel line) : settings.isStray line = false := by
  simp only [Settings.isLabel, Bool.and_eq_true, beq_iff_eq, bne_iff_ne] at h
  simp [Settings.isStray, h.2]

theorem not_isLabel_of_isTarget (h : settings.isTarget line) : settings.isLabel line = false := by
  simp only [Settings.isTarget, Bool.and_eq_true, beq_iff_eq] at h
  simp [Settings.isLabel, h.2]

theorem not_isStray_of_isTarget (h : settings.isTarget line) : settings.isStray line = false := by
  simp only [Settings.isTarget, Bool.and_eq_true, beq_iff_eq] at h
  simp [Settings.isStray, h.2]

theorem openLabel?_append_singleton (settings : Settings) (lines : List Line) (line : Line) :
    openLabel? settings (lines ++ [line]) =
      if settings.isStray line then openLabel? settings lines
      else if settings.isLabel line then some line else none := by
  unfold openLabel?
  by_cases hstray : settings.isStray line
  · simp [List.filter_append, hstray]
  · by_cases hlabel : settings.isLabel line
    · simp [List.filter_append, hstray, hlabel]
    · simp [List.filter_append, hstray, hlabel]

theorem pairs_append_singleton (settings : Settings) (lines : List Line) (line : Line) :
    pairs settings (lines ++ [line]) =
      pairs settings lines ++
        if settings.isTarget line then ((openLabel? settings lines).map (·, line)).toList
        else [] := by
  unfold pairs openLabel?
  by_cases hstray : settings.isStray line
  · have htarget : settings.isTarget line = false := by
      by_contra h
      rw [not_isStray_of_isTarget (Bool.of_not_eq_false h)] at hstray
      exact absurd hstray (by simp)
    simp [List.filter_append, hstray, htarget]
  · have hrows : (lines ++ [line]).filter (! settings.isStray ·) =
        lines.filter (! settings.isStray ·) ++ [line] := by
      simp [List.filter_append, hstray]
    rw [hrows, neighbours_append_singleton, List.filter_append]
    congr 1
    cases (lines.filter (! settings.isStray ·)).getLast? with
    | none => simp
    | some last =>
      cases hlabel : settings.isLabel last with
      | false => simp [hlabel]
      | true => cases htarget : settings.isTarget line <;> simp [Option.filter, hlabel, htarget]

end Rows

/-! ## Adding a line to a passage -/

section Append

variable {settings : Settings} {passage : Passage} {line : Line}

/-- One more thing is taken into a list that is cut to a limit if the cut list is not full. -/
theorem take_append_singleton {α : Type} (l : List α) (x : α) (limit : Int) :
    (l ++ [x]).take limit.toNat =
      if isFull (l.take limit.toNat).length limit then l.take limit.toNat
      else l.take limit.toNat ++ [x] := by
  unfold isFull
  rw [List.length_take]
  by_cases hroom : l.length < limit.toNat
  · rw [if_neg (by simp; omega), List.take_of_length_le (by simp; omega),
      List.take_of_length_le (by omega)]
  · rw [if_pos (by simp; omega), List.take_append_of_le_length (by omega)]

theorem ofKind_append_of_eq {kind : Kind} (h : settings.kind line = kind) :
    Passage.ofKind settings kind (passage ++ [line]) =
      Passage.ofKind settings kind passage ++ [line] := by
  simp [Passage.ofKind, List.filter_append, h]

theorem ofKind_append_of_ne {kind : Kind} (h : settings.kind line ≠ kind) :
    Passage.ofKind settings kind (passage ++ [line]) = Passage.ofKind settings kind passage := by
  simp [Passage.ofKind, List.filter_append, h]

theorem speaker_append_of_ne (h : settings.kind line ≠ .speaker) :
    Passage.speaker settings (passage ++ [line]) = Passage.speaker settings passage := by
  rw [Passage.speaker, ofKind_append_of_ne h, Passage.speaker]

theorem tag_append_of_ne (h : settings.kind line ≠ .tag) :
    Passage.tag settings (passage ++ [line]) = Passage.tag settings passage := by
  rw [Passage.tag, ofKind_append_of_ne h, Passage.tag]

theorem speech_append_of_ne (h : settings.kind line ≠ .speech) :
    Passage.speech settings (passage ++ [line]) = Passage.speech settings passage := by
  rw [Passage.speech, ofKind_append_of_ne h, Passage.speech]

theorem commands_append_of_ne (h : settings.kind line ≠ .command) :
    Passage.commands settings (passage ++ [line]) = Passage.commands settings passage := by
  rw [Passage.commands, Passage.namedCommands, ofKind_append_of_ne h, Passage.commands,
    Passage.namedCommands]

theorem choices_append_of_not_isTarget (h : settings.isTarget line = false) :
    Passage.choices settings (passage ++ [line]) = Passage.choices settings passage := by
  rw [Passage.choices, pairs_append_singleton, h, Passage.choices]
  simp

theorem choices_append_of_ne (h : settings.kind line ≠ .choice) :
    Passage.choices settings (passage ++ [line]) = Passage.choices settings passage :=
  choices_append_of_not_isTarget (not_isTarget_of_kind h)

theorem openLabel?_append_of_ne (h : settings.kind line ≠ .choice) :
    openLabel? settings (passage ++ [line]) = none := by
  rw [openLabel?_append_singleton, not_isStray_of_kind h, not_isLabel_of_kind h]
  rfl

theorem speaker_append (hkind : settings.kind line = .speaker)
    (hnone : Passage.speaker settings passage = none) :
    Passage.speaker settings (passage ++ [line]) = some (speakerName line) := by
  rw [Passage.speaker, Option.map_eq_none_iff, List.head?_eq_none_iff] at hnone
  rw [Passage.speaker, ofKind_append_of_eq hkind, hnone]
  rfl

theorem tag_append (hkind : settings.kind line = .tag) :
    Passage.tag settings (passage ++ [line]) = some (tagName line) := by
  rw [Passage.tag, ofKind_append_of_eq hkind, List.getLast?_append]
  rfl

theorem speech_append (hkind : settings.kind line = .speech) :
    Passage.speech settings (passage ++ [line]) =
      Passage.speech settings passage ++ [settings.clip line] := by
  rw [Passage.speech, ofKind_append_of_eq hkind, List.map_append, Passage.speech]
  rfl

theorem commands_append (hkind : settings.kind line = .command) :
    Passage.commands settings (passage ++ [line]) =
      if (commandOf line).name.isEmpty ||
          isFull (Passage.commands settings passage).length settings.maxCommands then
        Passage.commands settings passage
      else Passage.commands settings passage ++ [commandOf line] := by
  have hnamed : Passage.namedCommands settings (passage ++ [line]) =
      Passage.namedCommands settings passage ++
        if (commandOf line).name.isEmpty then [] else [commandOf line] := by
    rw [Passage.namedCommands, ofKind_append_of_eq hkind, List.map_append, List.filter_append,
      Passage.namedCommands]
    by_cases hname : (commandOf line).name.isEmpty <;> simp [hname]
  by_cases hname : (commandOf line).name.isEmpty
  · simp [Passage.commands, hnamed, hname]
  · rw [Passage.commands, hnamed, if_neg hname, take_append_singleton, Passage.commands]
    simp [hname]

theorem choices_append_target (htarget : settings.isTarget line) :
    Passage.choices settings (passage ++ [line]) =
      match openLabel? settings passage with
      | none => Passage.choices settings passage
      | some label =>
        if isFull (Passage.choices settings passage).length settings.maxChoices then
          Passage.choices settings passage
        else Passage.choices settings passage ++ [settings.choiceOf (label, line)] := by
  rw [Passage.choices, pairs_append_singleton, if_pos htarget, Passage.choices]
  cases openLabel? settings passage with
  | none => simp
  | some label => simp [take_append_singleton]

theorem endsBefore_of_choice (hchoice : settings.kind line = .choice) :
    Passage.endsBefore settings passage line = false := by
  simp [Passage.endsBefore, hchoice]

@[simp] theorem endsBefore_nil : Passage.endsBefore settings [] line = false := by
  simp [Passage.endsBefore, Passage.speaker, Passage.ofKind]

end Append

end Colloquy.Script
