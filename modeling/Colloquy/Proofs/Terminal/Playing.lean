import Colloquy.Proofs.Terminal.Answers
import Colloquy.Proofs.Terminal.Screen
import Colloquy.Terminal.Run

/-!
# Playing to the end

A player at a prompt leaves, takes the choice whose number is typed, is told to pick one, or goes
on (`Reacts`); the program stops at the end of the graph, at the end of the input, or when the
player leaves (`Plays`). There is one more way: an answer at a choice that is made of digits and
spells no number breaks the program off. So every input is played to a stop (`played_to_stop`),
and the exit code is zero unless the input has such an answer.
-/

namespace Colloquy.Terminal

/-! ## The course of the program -/

/-- Why the program stops. -/
inductive Stop where
  | completed
  | endOfInput
  | left
  | broken (bad : BadAnswer)

/-- What comes of playing until the program stops. -/
def Stop.result : Stop → Except (Fault BadAnswer) Unit
  | .broken bad => .error (.host bad)
  | _ => .ok ()

/-- How the program ends when it stops. -/
def Stop.ending : Stop → Ending
  | .broken bad => .failure (.playing (.host bad))
  | _ => .exit 0

/-- The exit code of a program, unless it is broken off. -/
def Ending.code? : Ending → Option Nat
  | .exit code => some code
  | .failure _ => none

/-- More is written on the screen. -/
def showing (world : World Screen) (text : String) : World Screen :=
  { world with rest := { world.rest with host := world.rest.host.write text } }

/-- The prompt is shown. -/
def asked (world : World Screen) : World Screen :=
  showing world (prompt world.rest.session)

/-- A node is on screen, and the end has not been shown. -/
structure Waits (world : World Screen) (placed : Placed) : Prop where
  current : world.rest.session.current = some placed
  ended : world.rest.host.ended = false

/-- An answer is made of digits and spells no number. -/
def Spurious (answer : List Char) : Prop :=
  LooksTyped answer ∧ typed? answer = none

instance (answer : List Char) : Decidable (Spurious answer) :=
  inferInstanceAs (Decidable (_ ∧ _))

/-- An answer spells the number of one of some choices. -/
def Counts (count : Nat) (answer : List Char) (number : Nat) : Prop :=
  typed? answer = some number ∧ 1 ≤ number ∧ number ≤ count

/-- What comes of a line at a prompt, where a node is on screen and the player does not leave. -/
inductive Reacts (world : World Screen) (placed : Placed) (line : List Char) :
    World Screen → Prop where
  /-- The player types the number of a choice, and takes it. -/
  | picked {next : World Screen} {number : Nat} :
    placed.node.hasChoices = true → Counts placed.node.choices.length (Chars.trim line) number →
    (Move.select (number - 1 : Nat)).perform host (asked world) = (.ok (), next) →
    Reacts world placed line next
  /-- The player types something else than digits, or a number that no choice has, and is told so.
  Nothing changes but the screen. -/
  | turnedDown :
    placed.node.hasChoices = true → ¬ Spurious (Chars.trim line) →
    (∀ number, ¬ Counts placed.node.choices.length (Chars.trim line) number) →
    Reacts world placed line (showing (asked world) s!"Pick 1-{placed.node.choices.length}.\n")
  /-- There is no choice, and the player goes on. -/
  | advanced {next : World Screen} :
    placed.node.hasChoices = false → (Move.next false).perform host (asked world) = (.ok (), next) →
    Reacts world placed line next

/-- The program plays the lines of an input until it stops. -/
inductive Plays : World Screen → List (List Char) → Stop → World Screen → Prop where
  /-- The session has come to its end, and the screen has shown it. -/
  | completed {world : World Screen} {lines : List (List Char)} :
    world.rest.session.current = none → world.rest.host.ended = true →
    Plays world lines .completed world
  /-- There is a prompt, and no line. -/
  | endOfInput {world : World Screen} {placed : Placed} :
    Waits world placed → Plays world [] .endOfInput (asked world)
  /-- The player leaves. -/
  | left {world : World Screen} {placed : Placed} {line : List Char} {lines : List (List Char)} :
    Waits world placed → leaves (Chars.trim line) = true →
    Plays world (line :: lines) .left (asked world)
  /-- The line is taken in, and the program goes on with the others. -/
  | line {world next last : World Screen} {placed : Placed} {line : List Char}
      {lines : List (List Char)} {stop : Stop} :
    Waits world placed → leaves (Chars.trim line) = false → Reacts world placed line next →
    Plays next lines stop last → Plays world (line :: lines) stop last
  /-- The player types digits that spell no number. -/
  | broken {world : World Screen} {placed : Placed} {line : List Char} {lines : List (List Char)} :
    Waits world placed → leaves (Chars.trim line) = false → placed.node.hasChoices = true →
    Spurious (Chars.trim line) →
    Plays world (line :: lines) (.broken ⟨Chars.trim line, misspelling (Chars.trim line)⟩)
      (asked world)

/-- Only an answer that is made of digits and spells no number breaks the program off. -/
theorem Plays.spurious_of_broken {world last : World Screen} {lines : List (List Char)}
    {stop : Stop} {bad : BadAnswer}
    (h : Plays world lines stop last) (hstop : stop = .broken bad) :
    ∃ line ∈ lines, Chars.trim line = bad.answer ∧ Spurious bad.answer := by
  induction h with
  | completed => cases hstop
  | endOfInput => cases hstop
  | left => cases hstop
  | line _ _ _ _ ih =>
    obtain ⟨line, hline, hbad⟩ := ih hstop
    exact ⟨line, List.mem_cons_of_mem _ hline, hbad⟩
  | broken hwaits hstays hchoices hspurious =>
    cases hstop
    exact ⟨_, List.mem_cons_self, rfl, hspurious⟩

/-! ## The program, step by step -/

section Steps

variable {world next : World Screen} {graph : Graph} {placed : Placed} {line : List Char}

theorem on_of_played {act : Playing Unit} (h : Move.played act world = (.ok (), next)) :
    act.on world = (.ok (), next) := by
  unfold Move.played at h
  cases hon : act.on world with
  | mk result world' =>
    rw [hon] at h
    cases result with
    | error fault => cases h
    | ok done =>
      cases h
      rfl

theorem ask_on (world : World Screen) :
    ask.on world =
      if world.rest.host.ended then (.ok false, world) else (.ok true, asked world) := by
  have hon : ask.on world =
      if world.rest.host.ended then (pure false : Playing Bool).on world
      else (do put (prompt (← Act.session)); return true : Playing Bool).on world := by
    rw [ask, Act.on_bind]
    show (if world.rest.host.ended then pure false else _ : Playing Bool).on world = _
    split <;> rfl
  rw [hon]
  rfl

/-- Where there are no choices, any answer goes on. -/
theorem react_of_no_choices (hcurrent : world.rest.session.current = some placed)
    (hchoices : placed.node.hasChoices = false) (answer : List Char) :
    (react answer).on world = (Session.next host).on world := by
  have hnone : (openChoices world.rest.session).isEmpty = true := by
    simpa [openChoices, hcurrent, Node.hasChoices] using hchoices
  rw [react, Act.on_bind, Act.on_session]
  dsimp only
  rw [if_pos hnone]

theorem react_of_choices (hcurrent : world.rest.session.current = some placed)
    (hchoices : placed.node.hasChoices = true) (answer : List Char) :
    (react answer).on world =
      match pick placed.node.choices.length answer with
      | .error bad => (.error (.host bad), world)
      | .ok (some index) => (Session.select host index).on world
      | .ok none => (.ok (), showing world s!"Pick 1-{placed.node.choices.length}.\n") := by
  have hopen : openChoices world.rest.session = placed.node.choices := by
    rw [openChoices, hcurrent]
    rfl
  have hsome : ¬ placed.node.choices.isEmpty = true := by
    simpa [Node.hasChoices] using hchoices
  rw [react, Act.on_bind, Act.on_session]
  dsimp only
  rw [hopen, if_neg hsome]
  cases pick placed.node.choices.length answer with
  | error bad => rfl
  | ok index => cases index <;> rfl

theorem Waits.asked (h : Waits world placed) : Waits (asked world) placed :=
  ⟨h.current, h.ended⟩

theorem ask_of_waits (h : Waits world placed) : ask.on world = (.ok true, asked world) := by
  rw [ask_on, h.ended, if_neg Bool.false_ne_true]

/-- At a prompt, a line is taken in, and the program goes on with the others unless the player
leaves. -/
theorem playOn_cons (h : Waits world placed) (line : List Char) (lines : List (List Char)) :
    (playOn (line :: lines)).on world =
      if leaves (Chars.trim line) then (.ok (), asked world)
      else
        match (react (Chars.trim line)).on (asked world) with
        | (.ok (), world) => (playOn lines).on world
        | (.error fault, world) => (.error fault, world) := by
  rw [playOn, Act.on_bind, ask_of_waits h]
  dsimp only
  rw [if_pos rfl, Act.on_bind]
  unfold takeLine
  dsimp only
  cases leaves (Chars.trim line) with
  | true => rfl
  | false =>
    rw [if_neg Bool.false_ne_true, if_neg Bool.false_ne_true, Act.on_bind]
    rcases (react (Chars.trim line)).on (asked world) with ⟨fault | done, world'⟩ <;> rfl

/-- After the end, no line is read any more. -/
theorem playOn_of_ended (h : world.rest.host.ended = true) (lines : List (List Char)) :
    (playOn lines).on world = (.ok (), world) := by
  cases lines with
  | nil =>
    rw [playOn, Act.on_bind, ask_on, if_pos h]
    rfl
  | cons line lines =>
    rw [playOn, Act.on_bind, ask_on, if_pos h]
    rfl

end Steps

/-! ## Playing -/

section Playing

variable {world : World Screen} {graph : Graph}

theorem InStep.waits (h : InStep graph world) {placed : Placed}
    (hcurrent : world.rest.session.current = some placed) :
    Waits world placed := by
  refine ⟨hcurrent, ?_⟩
  rw [Bool.eq_false_iff, ne_eq, h.ended, hcurrent]
  simp

theorem InStep.showing (h : InStep graph world) (text : String) :
    InStep graph (showing world text) :=
  ⟨h.settled, h.bound, h.silent, h.ended⟩

/-- An answer at a choice takes one, or is turned down, or breaks the program off. -/
theorem reacts_of_choices (h : InStep graph world) {placed : Placed} (hwaits : Waits world placed)
    (hchoices : placed.node.hasChoices = true) (line : List Char) :
    (∃ next, Reacts world placed line next ∧ InStep graph next ∧
        (react (Chars.trim line)).on (asked world) = (.ok (), next)) ∨
      Spurious (Chars.trim line) ∧ (react (Chars.trim line)).on (asked world) =
        (.error (.host ⟨Chars.trim line, misspelling (Chars.trim line)⟩), asked world) := by
  have hasked : InStep graph (asked world) := h.showing _
  rw [react_of_choices hwaits.asked.current hchoices]
  cases htyped : typed? (Chars.trim line) with
  | some number =>
    left
    rw [pick_of_typed _ htyped]
    by_cases hrange : 1 ≤ number ∧ number ≤ placed.node.choices.length
    · have hindex : number - 1 < placed.node.choices.length := by omega
      obtain ⟨next, hnext, hstep⟩ := hasked.select hwaits.asked.current hwaits.asked.ended hindex
      refine ⟨next, .picked hchoices ⟨htyped, hrange⟩ hnext, hstep, ?_⟩
      rw [if_pos hrange]
      exact on_of_played hnext
    · refine ⟨_, .turnedDown hchoices ?_ ?_, hasked.showing _, by rw [if_neg hrange]⟩
      · rintro ⟨-, hnone⟩
        cases htyped.symm.trans hnone
      · rintro other ⟨hother, hcounts⟩
        obtain rfl := Option.some.inj (htyped.symm.trans hother)
        exact hrange hcounts
  | none =>
    by_cases hlooks : LooksTyped (Chars.trim line)
    · right
      exact ⟨⟨hlooks, htyped⟩, by rw [pick_of_spurious _ hlooks htyped]⟩
    · left
      refine ⟨_, .turnedDown hchoices (fun hspurious => hlooks hspurious.1) ?_, hasked.showing _,
        by rw [pick_of_not_digits _ hlooks]⟩
      rintro number ⟨hnumber, -⟩
      cases htyped.symm.trans hnumber

/-- A line at a prompt is taken in, unless it breaks the program off. -/
theorem reacts_of_waits (h : InStep graph world) {placed : Placed} (hwaits : Waits world placed)
    (line : List Char) :
    (∃ next, Reacts world placed line next ∧ InStep graph next ∧
        (react (Chars.trim line)).on (asked world) = (.ok (), next)) ∨
      placed.node.hasChoices = true ∧ Spurious (Chars.trim line) ∧
        (react (Chars.trim line)).on (asked world) =
          (.error (.host ⟨Chars.trim line, misspelling (Chars.trim line)⟩), asked world) := by
  cases hchoices : placed.node.hasChoices with
  | true => exact (reacts_of_choices h hwaits hchoices line).imp id fun hbroken => ⟨rfl, hbroken⟩
  | false =>
    have hasked : InStep graph (asked world) := h.showing _
    obtain ⟨next, hnext, hstep⟩ := hasked.next hwaits.asked.current hwaits.asked.ended
    refine .inl ⟨next, .advanced hchoices hnext, hstep, ?_⟩
    rw [react_of_no_choices hwaits.asked.current hchoices, on_of_played hnext]

/-- The program plays any lines to a stop. -/
theorem plays_of_inStep (h : InStep graph world) (lines : List (List Char)) :
    ∃ stop last, Plays world lines stop last ∧ (playOn lines).on world = (stop.result, last) := by
  induction lines generalizing world with
  | nil =>
    cases hcurrent : world.rest.session.current with
    | none =>
      have hended := h.ended.2 hcurrent
      exact ⟨_, _, .completed hcurrent hended, playOn_of_ended hended []⟩
    | some placed =>
      have hwaits := h.waits hcurrent
      refine ⟨_, _, .endOfInput hwaits, ?_⟩
      rw [playOn, Act.on_bind, ask_of_waits hwaits]
      rfl
  | cons line lines ih =>
    cases hcurrent : world.rest.session.current with
    | none =>
      have hended := h.ended.2 hcurrent
      exact ⟨_, _, .completed hcurrent hended, playOn_of_ended hended (line :: lines)⟩
    | some placed =>
      have hwaits := h.waits hcurrent
      rw [playOn_cons hwaits]
      cases hleaves : leaves (Chars.trim line) with
      | true => exact ⟨_, _, .left hwaits hleaves, rfl⟩
      | false =>
        rw [if_neg Bool.false_ne_true]
        obtain ⟨next, hreacts, hstep, hon⟩ | ⟨hchoices, hspurious, hon⟩ :=
          reacts_of_waits h hwaits line
        · obtain ⟨stop, last, hplays, hrest⟩ := ih hstep
          refine ⟨stop, last, .line hwaits hleaves hreacts hplays, ?_⟩
          rw [hon]
          exact hrest
        · refine ⟨_, _, .broken hwaits hleaves hchoices hspurious, ?_⟩
          rw [hon]
          rfl

/-- Where there is something to play, it is played from the first node to a stop. -/
theorem runPlay_of_nodes {settings : Script.Settings} {tree : Files.Tree} {script : Files.Path}
    {log : List LogEntry} (h : openGraph settings tree script = .ok (graph, log))
    (hgraph : graph.nodes ≠ []) (input : String) :
    ∃ started stop last, Move.start.perform host (initial graph log) = (.ok (), started) ∧
      Plays started (inputLines input) stop last ∧
      runPlay settings tree input script =
        ⟨last.rest.host.text, last.rest.log, tree, stop.ending⟩ := by
  have hempty : ¬ graph.nodes.isEmpty = true := by simpa using hgraph
  obtain ⟨started, hstart, hstep⟩ := InStep.start hgraph log
  obtain ⟨stop, last, hplays, hon⟩ := plays_of_inStep hstep (inputLines input)
  have hall : (playAll (inputLines input)).on (initial graph log) = (stop.result, last) := by
    rw [playAll, Act.on_bind, on_of_played hstart]
    exact hon
  refine ⟨started, stop, last, hstart, hplays, ?_⟩
  have hopen : openPlay settings tree script = .ok (initial graph log) := by
    unfold openPlay
    rw [h]
    exact if_neg hempty
  unfold runPlay
  rw [hopen]
  dsimp only
  rw [show (playAll (inputLines input)).run.run (initial graph log) = (stop.result, last) from hall]
  cases stop <;> rfl

/-- A script is opened by compiling it. -/
theorem openGraph_of_script {settings : Script.Settings} {tree : Files.Tree} {script : Files.Path}
    {text : String} (hsuffix : script.suffix ≠ ".json")
    (htext : (tree.readText script).toOption = some text) :
    openGraph settings tree script =
      .ok ((Script.compile settings text).graph, (Script.compile settings text).log) := by
  unfold openGraph
  rw [if_neg hsuffix, Script.compileFile_eq]
  cases hread : tree.readText script with
  | error problem =>
    rw [hread] at htext
    cases htext
  | ok read =>
    rw [hread] at htext
    cases htext
    rfl

theorem runPlay_of_empty {settings : Script.Settings} {tree : Files.Tree} {script : Files.Path}
    {log : List LogEntry} (h : openGraph settings tree script = .ok (graph, log))
    (hgraph : graph.nodes = []) (input : String) :
    runPlay settings tree input script = ⟨"Script has no dialogue.\n", log, tree, .exit 1⟩ := by
  have hopen : openPlay settings tree script =
      .error { output := "Script has no dialogue.\n", log, tree, ending := .exit 1 } := by
    unfold openPlay
    rw [h]
    exact if_pos (by simp [hgraph])
  unfold runPlay
  rw [hopen]

end Playing

/-- Every input is played to a stop, on every graph that can be opened. If there is nothing to
play, the exit code is one. Otherwise it is zero, unless the program is broken off, which takes a
line that is made of digits and spells no number. -/
theorem played_to_stop {settings : Script.Settings} {tree : Files.Tree} {script : Files.Path}
    {graph : Graph} {log : List LogEntry} (h : openGraph settings tree script = .ok (graph, log))
    (input : String) :
    (graph.nodes = [] →
        runPlay settings tree input script = ⟨"Script has no dialogue.\n", log, tree, .exit 1⟩) ∧
      (graph.nodes ≠ [] → ∃ started stop last,
        Move.start.perform host (initial graph log) = (.ok (), started) ∧
        Plays started (inputLines input) stop last ∧
        runPlay settings tree input script =
          ⟨last.rest.host.text, last.rest.log, tree, stop.ending⟩) ∧
      ((∀ line ∈ inputLines input, ¬ Spurious (Chars.trim line)) →
        ∃ code ∈ [0, 1], (runPlay settings tree input script).ending = .exit code) := by
  refine ⟨fun hgraph => runPlay_of_empty h hgraph input, fun hgraph =>
    runPlay_of_nodes h hgraph input, fun hlines => ?_⟩
  by_cases hgraph : graph.nodes = []
  · exact ⟨1, by decide, by rw [runPlay_of_empty h hgraph]⟩
  · obtain ⟨started, stop, last, -, hplays, hrun⟩ := runPlay_of_nodes h hgraph input
    refine ⟨0, by decide, ?_⟩
    rw [hrun]
    cases stop with
    | broken bad =>
      obtain ⟨line, hline, hanswer, hspurious⟩ := hplays.spurious_of_broken rfl
      exact absurd (hanswer ▸ hspurious) (hlines line hline)
    | completed => rfl
    | endOfInput => rfl
    | left => rfl

/-- A player types a word, a number that is too great, the number of the choice, and leaves. -/
theorem played_to_stop_choice :
    let text : String := "Ann:\nHi.\n\tGo\n\t[start]\n"
    let tree : Files.Tree :=
      (Files.Tree.bare .top).put (Files.Place.top.child "a.dialogue") (.file (Utf8.encode text))
    let script : Files.Path := { names := ["a.dialogue"] }
    let input : String := "go\n2\n1\nq\n"
    let compiled := Script.compile {} text
    openGraph {} tree script = .ok (compiled.graph, compiled.log) ∧
      (∃ started stop last,
        Move.start.perform host (initial compiled.graph compiled.log) = (.ok (), started) ∧
        Plays started (inputLines input) stop last ∧
        runPlay {} tree input script = ⟨last.rest.host.text, last.rest.log, tree, stop.ending⟩) ∧
      ∃ code ∈ [0, 1], (runPlay {} tree input script).ending = .exit code := by
  intro text tree script input compiled
  have hopen : openGraph {} tree script = .ok (compiled.graph, compiled.log) :=
    openGraph_of_script (by decide) (by decide +kernel)
  obtain ⟨-, hplays, hcode⟩ := played_to_stop hopen input
  exact ⟨hopen, hplays (by decide +kernel), hcode (by decide +kernel)⟩

/-- A superscript two is a digit, and is not read as a number: the program is broken off. -/
theorem broken_off_by_superscript :
    let text : String := "Ann:\nHi.\n\tGo\n\t[start]\n"
    let tree : Files.Tree :=
      (Files.Tree.bare .top).put (Files.Place.top.child "a.dialogue") (.file (Utf8.encode text))
    ∀ code, (runPlay {} tree "²\n" { names := ["a.dialogue"] }).ending ≠ .exit code := by
  intro text tree code hcode
  have hnone : (runPlay {} tree "²\n" { names := ["a.dialogue"] }).ending.code? = none := by
    decide +kernel
  rw [hcode] at hnone
  cases hnone

end Colloquy.Terminal
