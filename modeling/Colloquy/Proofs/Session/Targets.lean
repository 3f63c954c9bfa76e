import Colloquy.Proofs.Session.Journal
import Colloquy.Proofs.Session.Refusals
import Colloquy.Proofs.Session.Signals
import Colloquy.Terminal.Run

/-!
# Targets

`Graph.unresolved` looks at every node of a graph and lists the tags that a choice or a jump of it
names and that no node has. Playing finds the targets of choices and of commands on its own, with
the variables of the moment. If the list is empty, no choice and no command ever asks for a node
that there is not (`targets_found`), whatever is played, and however often the host fails.

What a command may ask for is said by `Command.jumpTarget?` without regard to the variables
(`Command.jumpTarget?_of_work`). From there on, it is about the beats of a move: all of them are
`Found`.
-/

namespace Colloquy

/-! ## What nodes point at -/

/-- A tag that a node points at is the tag of a node, if all tags are. -/
theorem Graph.exists_indexOf? {graph : Graph} (hnone : graph.unresolved = []) {node : Node}
    (hnode : node ∈ graph.nodes) {target : String} (htarget : target ∈ node.targets) :
    ∃ index, graph.indexOf? target = some index := by
  rw [Graph.unresolved, List.flatMap_eq_nil_iff] at hnone
  have hfound := List.filter_eq_nil_iff.1 (List.map_eq_nil_iff.1 (hnone node hnode)) target htarget
  rw [Option.isNone_iff_eq_none] at hfound
  exact Option.ne_none_iff_exists'.1 hfound

/-- A command only jumps to the tag that it names, whatever the variables are. -/
theorem Command.jumpTarget?_of_work {command : Command} {store : Store} {tag : String}
    (hwork : command.work store = .jump tag) : command.jumpTarget? = some tag := by
  unfold work at hwork
  split at hwork
  case h_5 hname harguments =>
    cases hwork
    simp [jumpTarget?, hname, harguments]
  case h_6 hname harguments =>
    split at hwork
    · cases hwork
      simp [jumpTarget?, hname, harguments]
    · cases hwork
  case h_3 => split at hwork <;> cases hwork
  all_goals cases hwork

theorem Node.mem_targets_of_command {node : Node} {command : Command} {tag : String}
    (hcommand : command ∈ node.commands) (htarget : command.jumpTarget? = some tag) :
    tag ∈ node.targets :=
  List.mem_append_right _ (List.mem_filterMap.2 ⟨command, hcommand, htarget⟩)

theorem Node.mem_targets_of_choice {node : Node} {choice : Choice}
    (hchoice : choice ∈ node.choices) :
    choice.target ∈ node.targets :=
  List.mem_append_left _ (List.mem_map_of_mem hchoice)

/-- A command of a node never misses its target, if all tags are those of nodes. -/
theorem Command.turn_ne_misses {graph : Graph} (hnone : graph.unresolved = []) {node : Node}
    (hnode : node ∈ graph.nodes) {command : Command} (hcommand : command ∈ node.commands)
    (store : Store) (tag : String) : command.turn graph store ≠ .misses tag := by
  unfold turn
  split
  · simp
  · simp
  · next target hwork =>
    obtain ⟨index, hindex⟩ := graph.exists_indexOf? hnone hnode
      (Node.mem_targets_of_command hcommand (jumpTarget?_of_work hwork))
    rw [hindex]
    simp

theorem Staging.mem_nodes_of_at? {staging : Staging} {index : Nat} {placed : Placed}
    (h : staging.at? index = some placed) : placed.node ∈ staging.graph.nodes :=
  List.mem_of_getElem? (Staging.at?_eq_some_iff.1 h).1

/-- A check that reports no problem has found no tag without a node. -/
theorem Terminal.unresolved_of_runCheck {settings : Script.Settings} {tree : Files.Tree}
    {script : Files.Path} {compiled : Script.Compiled}
    (hcompiled : Script.compileFile settings tree script = .ok compiled)
    (hexit : (runCheck settings tree script).ending = .exit 0) :
    compiled.graph.unresolved = [] := by
  rw [runCheck, hcompiled] at hexit
  dsimp only at hexit
  split at hexit
  · next hempty =>
    rw [List.isEmpty_iff, complaints, List.append_eq_nil_iff, List.map_eq_nil_iff,
      List.map_eq_nil_iff] at hempty
    exact hempty.2
  · cases hexit

/-! ## Beats that miss nothing -/

/-- A beat in which no target is missing. -/
def Beat.Found : Beat → Prop
  | .missed _ => False
  | _ => True

namespace Course

variable {staging : Staging} {session : Session}

theorem found_asides (hnone : staging.graph.unresolved = []) {node : Node}
    (hnode : node ∈ staging.graph.nodes) {list : List Command}
    (hlist : ∀ command ∈ list, command ∈ node.commands) (store : Store) :
    ∀ beat ∈ asides staging.graph list store, beat.Found := by
  induction list generalizing store with
  | nil => simp [asides]
  | cons command rest ih =>
    obtain ⟨hcommand, hrest⟩ := List.forall_mem_cons.1 hlist
    rw [asides]
    cases hturn : command.turn staging.graph store with
    | stays => exact List.forall_mem_cons.2 ⟨trivial, ih hrest _⟩
    | misses tag => exact (Command.turn_ne_misses hnone hnode hcommand store tag hturn).elim
    | departs exit => exact List.forall_mem_singleton.2 trivial

/-- In jumps, no target is missing. -/
def LeapsFound (leap : String → Nat → Session → List Beat) : Prop :=
  ∀ tag index session, ∀ beat ∈ leap tag index session, beat.Found

variable {leap : String → Nat → Session → List Beat}

theorem found_entering (hnone : staging.graph.unresolved = []) (hleap : LeapsFound leap)
    (index : Nat) (again : Bool) :
    ∀ beat ∈ entering staging leap index again session, beat.Found := by
  cases hplace : staging.at? index with
  | none => simp [entering, hplace]
  | some placed =>
    cases hruns : placed.node.hasChoices && ! (again && session.hasRun) with
    | false =>
      rw [entering_of_not_runs hplace hruns]
      simp [Beat.Found]
    | true =>
      have hasides :=
        found_asides hnone (Staging.mem_nodes_of_at? hplace) (fun _ h => h) session.store
      rw [entering_of_runs hplace hruns]
      refine List.forall_mem_cons.2 ⟨trivial, List.forall_mem_append.2 ⟨hasides, ?_⟩⟩
      cases (Sweep.of staging.graph placed.node.commands session.store).exit? with
      | none => exact List.forall_mem_singleton.2 trivial
      | some exit =>
        cases exit with
        | close => exact List.forall_mem_singleton.2 trivial
        | toward tag next => exact hleap tag next _

theorem found_leaping (hnone : staging.graph.unresolved = []) (left : Nat) :
    LeapsFound (leaping staging left) := by
  induction left with
  | zero =>
    intro tag index session
    simp [leaping, Beat.Found]
  | succ left ih =>
    intro tag index session
    rw [leaping, List.cons_append]
    exact List.forall_mem_cons.2 ⟨trivial,
      List.forall_mem_append.2
        ⟨found_entering hnone ih index false, List.forall_mem_singleton.2 trivial⟩⟩

theorem found_enter (hnone : staging.graph.unresolved = []) (index : Nat) (again : Bool) :
    ∀ beat ∈ enter staging index again session, beat.Found := by
  rw [enter_eq]
  exact found_entering hnone (found_leaping hnone _) index again

end Course

/-! ## Moves -/

/-- All tags that the bound graph names are those of its nodes. -/
def Session.Checked (session : Session) : Prop :=
  ∀ staging, session.staging = some staging → staging.graph.unresolved = []

/-- A move that neither names a tag itself nor binds a graph that has not been checked. -/
def Move.Checked : Move → Prop
  | .bind staging _ => staging.graph.unresolved = []
  | .jump _ => False
  | _ => True

section Moves

variable {session : Session} {move : Move}

theorem Move.checked_opening (hsession : session.Checked) (hmove : move.Checked) :
    (move.opening session).Checked := by
  cases move with
  | bind staging forget =>
    intro other hother
    cases forget <;> cases hother <;> exact hmove
  | reset forget => cases forget <;> exact hsession
  | setVariable name offer =>
    rw [opening]
    split
    · exact hsession
    · exact hsession
  | restore data palette =>
    rw [opening, Session.restore]
    cases Session.variablesOf data palette with
    | error defect => exact hsession
    | ok store => exact hsession
  | _ => exact hsession

/-- A departure misses nothing unless it sets out for a tag that no node has. -/
theorem Departure.found {departure : Departure} (hsession : session.Checked)
    (hsound : session.Sound) (hmisses : ∀ tag, departure ≠ .misses tag) :
    ∀ beat ∈ departure.beats session, beat.Found := by
  cases departure with
  | misses tag => exact (hmisses tag rfl).elim
  | rests => simp [beats]
  | unasked => simp [beats, Beat.Found]
  | ends => simp [beats, Beat.Found]
  | enters index =>
    rw [beats, Course.inGraph]
    split
    · simp
    · next staging hbound => exact Course.found_enter (hsession staging hbound) index false
  | leaps tag index =>
    rw [beats, Course.inGraph]
    split
    · simp
    · next staging hbound =>
        exact Course.found_leaping (hsession staging hbound) _ tag index session
  | reshows =>
    rw [beats, Course.reloading_eq hsound]
    cases session.current with
    | none => simp
    | some placed => simp [Beat.Found]

/-- The choices on screen lead to nodes that there are. -/
theorem Move.departure_ne_misses (hsession : session.Checked) (hsound : session.Sound)
    (hmove : move.Checked) (tag : String) : move.departure session ≠ .misses tag := by
  cases move with
  | jump other => exact hmove.elim
  | select index =>
    rw [departure]
    split
    · simp
    · next placed hopen =>
      obtain ⟨staging, hactive⟩ := hsound.exists_active (Option.filter_eq_some_iff.1 hopen).1
      split
      · simp
      · next choice hchoice =>
        have hmem : choice ∈ placed.node.choices := by
          split at hchoice
          · exact List.mem_of_getElem? hchoice
          · cases hchoice
        obtain ⟨place, hplace⟩ := staging.graph.exists_indexOf? (hsession staging hactive.bound)
          (Staging.mem_nodes_of_at? hactive.place) (Node.mem_targets_of_choice hmem)
        simp [Departure.seeking, hactive.bound, hplace]
  | next wrap =>
    rw [departure]
    split
    · simp
    · split <;> simp
    · next staging placed _ _ =>
      cases ((Move.next wrap).sweep? session).bind Sweep.exit? with
      | none =>
        rw [Option.elim_none, Departure.advancing]
        split
        · simp
        · cases Course.following? staging placed wrap session <;> simp
      | some exit => cases exit <;> simp [Departure.leaving]
  | start =>
    rw [departure]
    split
    · simp
    · split <;> simp
  | jumpTo index =>
    rw [departure]
    split
    · simp
    · split <;> simp
  | setVariable name offer =>
    rw [departure]
    split <;> simp
  | _ => simp [departure]

theorem Move.found_prelude (hsession : session.Checked) (hsound : session.Sound) (move : Move) :
    ∀ beat ∈ move.prelude session, beat.Found := by
  rw [prelude]
  cases hstarts : move.starts? session with
  | none => simp
  | some start =>
    obtain ⟨staging, placed⟩ := start
    obtain ⟨hbound, hcurrent, -⟩ := starts?_eq_some hstarts
    obtain ⟨other, hactive⟩ := hsound.exists_active hcurrent
    obtain rfl : other = staging := Option.some.inj (hactive.bound.symm.trans hbound)
    exact List.forall_mem_cons.2 ⟨trivial, Course.found_asides (hsession other hbound)
      (Staging.mem_nodes_of_at? hactive.place) (fun _ h => h) session.store⟩

/-- In a checked session, a checked move misses nothing. -/
theorem Move.found_beats (hsession : session.Checked) (hsound : session.Sound)
    (hmove : move.Checked) : ∀ beat ∈ move.beats session, beat.Found := by
  let opened := move.opening session
  have hopened : opened.Checked := Move.checked_opening hsession hmove
  have hsound' : opened.Sound := move.sound_opening hsound
  have horderly := Orderly.prelude opened move
  rw [beats, sequel_eq]
  refine List.forall_mem_cons.2 ⟨trivial, List.forall_mem_append.2
    ⟨move.found_prelude hopened hsound', Departure.found ?_ (horderly.fit.sound_replay hsound')
      (Move.departure_ne_misses hopened hsound' hmove)⟩⟩
  intro staging hbound
  exact hopened staging (horderly.staging.symm.trans hbound)

theorem Beat.Fit.staging_replay {beats : List Beat} (hfit : Beat.Fit session beats) :
    (Beat.replay session beats).staging = session.staging := by
  induction beats generalizing session with
  | nil => rfl
  | cons beat beats ih => exact (ih hfit.2).trans hfit.1.staging_apply

/-- Wherever a checked move is cut short, it leaves a checked session. -/
theorem Move.checked_of_prefix (hsession : session.Checked) (hmove : move.Checked)
    {done : List Beat} (hdone : done <+: move.beats session) :
    (Beat.replay session done).Checked := by
  rcases List.prefix_cons_iff.1 hdone with rfl | ⟨inside, rfl, hinside⟩
  · exact hsession
  · have hfit := (Orderly.sequel (move.opening session) move).fit.of_prefix hinside
    intro staging hbound
    exact Move.checked_opening hsession hmove staging (hfit.staging_replay.symm.trans hbound)

end Moves

/-! ## Runs -/

section Runs

variable {σ ε : Type} {host : Host σ ε} {world : World σ}

theorem Session.checked_perform (hhost : host.Aloof) {move : Move}
    (hsettled : world.rest.session.Settled) (hsession : world.rest.session.Checked)
    (hmove : move.Checked) : (move.perform host world).2.rest.session.Checked := by
  obtain ⟨done, hdone, hafter⟩ := Session.perform_prefix hhost move hsettled
  rw [hafter]
  exact Move.checked_of_prefix hsession hmove hdone

/-- Checked moves lead from checked sessions to checked sessions, also if the host fails. -/
theorem Session.checked_performAll (hhost : host.Aloof) {moves : List Move}
    (hsettled : world.rest.session.Settled) (hsession : world.rest.session.Checked)
    (hmoves : ∀ move ∈ moves, move.Checked) :
    (Move.performAll host moves world).rest.session.Settled ∧
      (Move.performAll host moves world).rest.session.Checked := by
  induction moves generalizing world with
  | nil => exact ⟨hsettled, hsession⟩
  | cons move moves ih =>
    obtain ⟨hmove, hrest⟩ := List.forall_mem_cons.1 hmoves
    exact ih (Session.settled_perform hhost move hsettled)
      (Session.checked_perform hhost hsettled hsession hmove) hrest

end Runs

/-! ## Warnings -/

theorem LogEntry.missingTarget_ne_unasked (tag : String) : missingTarget tag ≠ unasked := by
  intro h
  have hmessage : "Dialogue jump target not found: [" ++ tag ++ "]" = unasked.message :=
    congrArg LogEntry.message h
  have hfirst := congrArg (fun message => message.toList.head?) hmessage
  simp [unasked, String.toList_append] at hfirst

/-- A command warns of nothing. -/
theorem Command.level_of_work {command : Command} {store store' : Store} {signals : List Signal}
    (hwork : command.work store = .plain signals store') :
    ∀ signal ∈ signals, ∀ entry, signal.entry? = some entry → entry.level ≠ .warning := by
  rcases signals_of_work hwork with rfl | ⟨level, message, hlevel, rfl⟩ | ⟨message, text, rfl⟩ | rfl
  · simp
  · simpa [Signal.entry?] using hlevel
  · simp [Signal.entry?]
  · simp [Signal.entry?]

theorem Session.entry?_of_mem_presenting {store : Store} {node : Node} {signal : Signal}
    (h : signal ∈ presenting store node) : signal.entry? = none := by
  have hnone : ∀ signal ∈ presenting store node, signal.entry? = none := by
    rw [presenting]
    split <;> simp [Signal.entry?]
  exact hnone signal h

/-- Only a beat that misses its target warns of that. -/
theorem Beat.Found.entry_ne {beat : Beat} (hfound : beat.Found) {session : Session}
    {signal : Signal} (hsignal : signal ∈ beat.signals session) (tag : String) :
    signal.entry? ≠ some (.missingTarget tag) := by
  intro hentry
  cases beat with
  | missed other => exact hfound.elim
  | unasked =>
    rw [List.mem_singleton.1 hsignal] at hentry
    exact LogEntry.missingTarget_ne_unasked tag (Option.some.inj hentry).symm
  | ran command =>
    rw [signals] at hsignal
    split at hsignal
    · next hwork => exact Command.level_of_work hwork signal hsignal _ hentry rfl
    · cases hsignal
  | tripped other =>
    rw [List.mem_singleton.1 hsignal] at hentry
    cases hentry
  | shown node =>
    rw [Session.entry?_of_mem_presenting hsignal] at hentry
    cases hentry
  | finished =>
    rw [signals, List.mem_cons, List.mem_singleton] at hsignal
    rcases hsignal with rfl | rfl <;> cases hentry
  | _ => cases hsignal

/-! ## The check and what is played -/

section Logs

variable {σ ε : Type} {host : Host σ ε} {world : World σ}

/-- Of the playback, a move writes nothing into the log but entries of its beats. -/
theorem Session.mem_log_perform (hhost : host.Aloof) (hlog : host.Discreet) {move : Move}
    (hsettled : world.rest.session.Settled) {entry : LogEntry} (hentry : entry.OfPlayback)
    (h : entry ∈ (move.perform host world).2.rest.log) :
    entry ∈ world.rest.log ∨
      ∃ signal ∈ Beat.signalsIn world.rest.session (move.beats world.rest.session),
        signal.entry? = some entry := by
  rw [performs hhost move hsettled.sound] at h
  cases hrefusal : (move.refusal? world.rest.session : Option (Setback ε)) with
  | some setback =>
    rw [hrefusal] at h
    exact .inl h
  | none =>
    rw [hrefusal] at h
    apply mem_log_performBeats hhost hlog hentry
    rw [performCourse] at h
    rcases hon : (performBeats host (move.beats world.rest.session)).on world with
      ⟨fault | done, world'⟩
    · rw [hon] at h
      exact h
    · rw [hon] at h
      exact h

/-- In a checked session, checked moves never warn of a missing target. -/
theorem Session.missingTarget_mem_log_performAll (hhost : host.Aloof) (hlog : host.Discreet)
    {moves : List Move} (hsettled : world.rest.session.Settled)
    (hsession : world.rest.session.Checked) (hmoves : ∀ move ∈ moves, move.Checked) {tag : String}
    (h : LogEntry.missingTarget tag ∈ (Move.performAll host moves world).rest.log) :
    LogEntry.missingTarget tag ∈ world.rest.log := by
  induction moves generalizing world with
  | nil => exact h
  | cons move moves ih =>
    obtain ⟨hmove, hrest⟩ := List.forall_mem_cons.1 hmoves
    have hafter := ih (settled_perform hhost move hsettled)
      (checked_perform hhost hsettled hsession hmove) hrest h
    have hplayback : (LogEntry.missingTarget tag).OfPlayback := rfl
    rcases mem_log_perform hhost hlog hsettled hplayback hafter with hold
      | ⟨signal, hsignal, hentry⟩
    · exact hold
    · obtain ⟨beat, hbeat, now, hmem⟩ := Beat.exists_of_mem_signalsIn hsignal
      have hfound := Move.found_beats hsession hsettled.sound hmove beat hbeat
      exact (hfound.entry_ne hmem tag hentry).elim

/-- All tags that a graph names are those of its nodes, or it comes from a script that the check
of scripts reports no problem on. -/
def Graph.PassesCheck (graph : Graph) : Prop :=
  graph.unresolved = [] ∨
    ∃ settings tree script compiled, Script.compileFile settings tree script = .ok compiled ∧
      compiled.graph = graph ∧ (Terminal.runCheck settings tree script).ending = .exit 0

theorem Graph.PassesCheck.unresolved {graph : Graph} (h : graph.PassesCheck) :
    graph.unresolved = [] := by
  rcases h with hnone | ⟨settings, tree, script, compiled, hcompiled, rfl, hexit⟩
  · exact hnone
  · exact Terminal.unresolved_of_runCheck hcompiled hexit

/-- A graph that passes the check is bound, and moves are made that do not name tags themselves.
Then no move on the way asks for a node that there is not, by a choice or by a command, and the
log does not say so either. -/
theorem targets_found (hhost : host.Aloof) (hfresh : world.rest.session.Fresh) {staging : Staging}
    (hbound : world.rest.session.staging = some staging) (hpasses : staging.graph.PassesCheck)
    {moves : List Move} (hmoves : ∀ move ∈ moves, move.Checked) :
    (∀ first move rest, moves = first ++ move :: rest →
      let now := Move.performAll host first world
      Session.Performs host move now ∧ ∀ tag, Beat.missed tag ∉ move.beats now.rest.session) ∧
    (host.Discreet → ∀ tag,
      LogEntry.missingTarget tag ∈ (Move.performAll host moves world).rest.log →
        LogEntry.missingTarget tag ∈ world.rest.log) := by
  have hsession : world.rest.session.Checked := by
    intro other hother
    obtain rfl : staging = other := Option.some.inj (hbound.symm.trans hother)
    exact hpasses.unresolved
  refine ⟨?_, fun hlog tag =>
    Session.missingTarget_mem_log_performAll hhost hlog hfresh.settled hsession hmoves⟩
  rintro first move rest rfl now
  obtain ⟨hfirst, hlater⟩ := List.forall_mem_append.1 hmoves
  obtain ⟨hsettled, hchecked⟩ := Session.checked_performAll hhost hfresh.settled hsession hfirst
  refine ⟨Session.performs hhost move hsettled.sound, fun tag hmissed => ?_⟩
  exact Move.found_beats hchecked hsettled.sound (hlater move List.mem_cons_self) _ hmissed

/-- A choice and two commands name nodes that there are, and one of the commands depends on a
variable. -/
theorem targets_found_flag :
    let graph : Graph := ⟨[
      { tag := "hall", commands := [⟨"jumpif", some "cellar lit"⟩], choices := [⟨"Up", "attic"⟩] },
      { tag := "attic", commands := [⟨"jump", some "hall"⟩] }, { tag := "cellar" }], by decide⟩
    let world : World (List (Notice × Store)) :=
      { bus := {}, rest := { session := { staging := some (.ofGraph graph) }, host := [] } }
    let moves : List Move :=
      [.start, .select 0, .setVariable "lit" (.value (.bool true)), .next false]
    (∀ move ∈ moves, move.Checked) ∧ graph.unresolved = [] ∧
      (Move.performAll Host.recorder moves world).rest.session.index = 2 ∧
      ∀ tag, LogEntry.missingTarget tag ∉ (Move.performAll Host.recorder moves world).rest.log := by
  intro graph world moves
  have hmoves : ∀ move ∈ moves, move.Checked := by simp [moves, Move.Checked]
  have hnone : graph.unresolved = [] := by decide
  have hdiscreet : Host.recorder.Discreet := ⟨fun _ _ => rfl, fun _ _ _ => rfl⟩
  refine ⟨hmoves, hnone, by decide +kernel, fun tag htag => ?_⟩
  have hfresh : world.rest.session.Fresh := ⟨_, _, rfl⟩
  have hbound : world.rest.session.staging = some (.ofGraph graph) := rfl
  have hpasses : (Staging.ofGraph graph).graph.PassesCheck := Or.inl hnone
  obtain ⟨-, hlog⟩ := targets_found Host.quiet_recorder.toAloof hfresh hbound hpasses hmoves
  have hold : LogEntry.missingTarget tag ∈ world.rest.log := hlog hdiscreet tag htag
  exact List.not_mem_nil hold

end Logs

end Colloquy
