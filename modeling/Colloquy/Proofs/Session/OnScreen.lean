import Colloquy.Proofs.Session.Journal

/-!
# What is on screen

In front of a quiet host, whenever a session shows a node, the last thing that the handler was
told is the presentation of that node (`onScreen`). And a node is shown only by its own entry,
when none of the commands that ran in it has taken the session away (`Beat.Introduced`).

`Screens` says both of beats: if they leave a node on screen, they end with its presentation, and
every node that they show has been introduced. Beats that show nothing may come before.
-/

namespace Colloquy

namespace Beat

/-- A command runs that takes the session away from its node. -/
def Departs (session : Session) : Beat → Prop
  | .ran command => ∃ staging exit, session.staging = some staging ∧
    command.turn staging.graph session.store = .departs exit
  | _ => False

/-- Commands run, and none of them takes the session away from its node. -/
def Stay (session : Session) : List Beat → Prop
  | [] => True
  | beat :: beats => beat.Aside ∧ ¬ beat.Departs session ∧ Stay (beat.apply session) beats

/-- The last that has happened is the entry of a node, with commands that left the session at it. -/
def Introduced (session : Session) (before : List Beat) (node : Node) : Prop :=
  ∃ earlier index placed again since,
    before = earlier ++ .entered index placed again :: since ∧ placed.node = node ∧
      Stay (replay session (earlier ++ [.entered index placed again])) since

/-- A beat that shows no node. -/
def Blind : Beat → Prop
  | .shown _ => False
  | _ => True

variable {session : Session}

theorem Aside.blind {beat : Beat} (h : beat.Aside) : beat.Blind := by
  cases beat <;> trivial

theorem Introduced.after {before : List Beat} {node : Node} (first : List Beat)
    (h : Introduced (replay session first) before node) :
    Introduced session (first ++ before) node := by
  obtain ⟨earlier, index, placed, again, since, rfl, hnode, hstay⟩ := h
  refine ⟨first ++ earlier, index, placed, again, since, by simp, hnode, ?_⟩
  rw [List.append_assoc, replay_append]
  exact hstay

/-- Commands that leave the session at its node do so one by one. -/
theorem stay_asides {staging : Staging} {list : List Command}
    (hbound : session.staging = some staging)
    (hstays : (Sweep.of staging.graph list session.store).exit? = none) :
    Stay session (Course.asides staging.graph list session.store) := by
  induction list generalizing session with
  | nil => trivial
  | cons command rest ih =>
    have hdeparts : ∀ turn, command.turn staging.graph session.store = turn →
        (∀ exit, turn ≠ .departs exit) → ¬ (Beat.ran command).Departs session := by
      rintro turn hturn hother ⟨other, exit, hother', hexit⟩
      rw [hbound, Option.some.injEq] at hother'
      subst hother'
      exact hother exit (hturn.symm.trans hexit)
    rw [Sweep.of] at hstays
    rw [Course.asides]
    cases hturn : command.turn staging.graph session.store with
    | stays =>
      rw [hturn] at hstays
      have hkept : ((Beat.ran command).apply session).staging = some staging := hbound
      exact ⟨trivial, hdeparts _ hturn (by simp), ih hkept hstays⟩
    | misses tag =>
      rw [hturn] at hstays
      dsimp only at hstays
      have hleaves : command.leaves session.store = session.store :=
        Command.leaves_of_turn staging.graph (by simp [hturn])
      rw [hleaves] at hstays
      have hran : (Beat.ran command).apply session = session := by
        rw [Beat.apply, hleaves]
        rfl
      refine ⟨trivial, hdeparts _ hturn (by simp), trivial, id, ?_⟩
      rw [hran]
      exact ih hbound hstays
    | departs exit =>
      rw [hturn] at hstays
      cases hstays

end Beat

/-! ## Beats that show nodes -/

/-- What was heard ends with a presentation of the node on screen, if there is one. -/
def Session.Showing (session : Session) (heard : List (Notice × Store)) : Prop :=
  ∀ placed, session.current = some placed →
    ∃ before store, heard = before ++ (presentation store placed.node).map (·, store)

/-- If beats leave a node on screen, they end with its presentation. Every node that they show has
been introduced. -/
structure Screens (session : Session) (beats : List Beat) : Prop where
  showing : (Beat.replay session beats).Showing (Beat.heardIn session beats)
  introduced : ∀ before node rest, beats = before ++ .shown node :: rest →
    Beat.Introduced session before node

namespace Screens

open Course

variable {session : Session} {staging : Staging} {first second : List Beat}

/-- Beats that show no node may come before. -/
theorem after (hfirst : ∀ beat ∈ first, beat.Blind)
    (hsecond : Screens (Beat.replay session first) second) : Screens session (first ++ second) := by
  refine ⟨fun placed hcurrent => ?_, fun before node rest hsplit => ?_⟩
  · rw [Beat.replay_append] at hcurrent
    obtain ⟨before, store, hheard⟩ := hsecond.showing placed hcurrent
    refine ⟨Beat.heardIn session first ++ before, store, ?_⟩
    rw [Beat.heardIn_append, hheard, List.append_assoc]
  · rcases Journal.split_append hsplit with ⟨tail, rfl, -⟩ | ⟨init, rfl, hinit⟩
    · exact (hfirst (.shown node) (by simp)).elim
    · exact (hsecond.introduced init node rest hinit).after first

/-- A jump may end afterwards. -/
theorem landed (h : Screens session first) : Screens session (first ++ [.landed]) := by
  refine ⟨fun placed hcurrent => ?_, fun before node rest hsplit => ?_⟩
  · rw [Beat.replay_append] at hcurrent
    obtain ⟨before, store, hheard⟩ := h.showing placed hcurrent
    refine ⟨before, store, ?_⟩
    rw [Beat.heardIn_append, hheard]
    simp [Beat.heardIn, Beat.told, Beat.signals]
  · rcases Journal.split_append hsplit with ⟨tail, hfirst, -⟩ | ⟨init, rfl, hinit⟩
    · exact h.introduced before node tail hfirst
    · cases init <;> simp at hinit

/-- Nothing is on screen after the end. -/
theorem finished : Screens session [.finished] := by
  refine ⟨fun placed hcurrent => ?_, fun before node rest hsplit => ?_⟩
  · cases hcurrent
  · cases before <;> simp at hsplit

theorem nothing (hcurrent : session.current = none) : Screens session [] := by
  refine ⟨fun placed hsome => ?_, fun before node rest hsplit => ?_⟩
  · rw [Beat.replay_nil, hcurrent] at hsome
    cases hsome
  · simp at hsplit

/-- A node that has been introduced may be shown. -/
theorem shown {placed : Placed} (hfirst : ∀ beat ∈ first, beat.Blind)
    (hcurrent : (Beat.replay session first).current = some placed)
    (hintroduced : Beat.Introduced session first placed.node) :
    Screens session (first ++ [.shown placed.node]) := by
  refine ⟨fun other hother => ?_, fun before node rest hsplit => ?_⟩
  · rw [Beat.replay_append] at hother
    have hsame : other = placed := Option.some.inj (hother.symm.trans hcurrent)
    refine ⟨Beat.heardIn session first, (Beat.replay session first).store, ?_⟩
    rw [Beat.heardIn_append, hsame, Beat.heardIn, Beat.told, Beat.signals,
      Beat.filterMap_told_presenting, Beat.heardIn, List.append_nil]
  · rcases Journal.split_append hsplit with ⟨tail, rfl, -⟩ | ⟨init, rfl, hinit⟩
    · exact (hfirst (.shown node) (by simp)).elim
    · rcases List.cons_eq_append_iff.1 hinit with ⟨rfl, hnode⟩ | ⟨_, _, hnil⟩
      · cases hnode
        rw [List.append_nil]
        exact hintroduced
      · simp at hnil

/-- Jumps to nodes that there are, from sessions that the graph is bound to. -/
def Leaps (staging : Staging) (leap : String → Nat → Session → List Beat) : Prop :=
  ∀ tag index session, session.staging = some staging → staging.graph.indexOf? tag = some index →
    Screens session (leap tag index session)

theorem entering {leap : String → Nat → Session → List Beat} (hleap : Leaps staging leap)
    (hbound : session.staging = some staging) {index : Nat} (hindex : index < staging.graph.size)
    (again : Bool) : Screens session (entering staging leap index again session) := by
  obtain ⟨placed, hplace⟩ := Staging.exists_at? hindex
  cases hruns : placed.node.hasChoices && ! (again && session.hasRun) with
  | false =>
    rw [entering_of_not_runs hplace hruns]
    have hblind : ∀ beat ∈ [Beat.entered index placed again], beat.Blind := by simp [Beat.Blind]
    exact shown hblind rfl ⟨[], index, placed, again, [], rfl, rfl, trivial⟩
  | true =>
    let entered := (Beat.entered index placed again).apply session
    let list := placed.node.commands
    have hreplay := replay_asides staging.graph list entered
    have hasides : ∀ beat ∈ asides staging.graph list session.store, beat.Blind :=
      fun beat hbeat => (aside_of_mem_asides staging.graph list session.store beat hbeat).blind
    have hblind : ∀ beat ∈ .entered index placed again :: asides staging.graph list session.store,
        beat.Blind := List.forall_mem_cons.2 ⟨trivial, hasides⟩
    rw [entering_of_runs hplace hruns, ← List.cons_append]
    cases hexit : (Sweep.of staging.graph list session.store).exit? with
    | none =>
      have hentered : entered.staging = some staging := hbound
      refine shown hblind ?_ ⟨[], index, placed, again, _, rfl, rfl, ?_⟩
      · exact congrArg Session.current hreplay
      · exact Beat.stay_asides hentered hexit
    | some exit =>
      refine after hblind ?_
      have hswept : Beat.replay session
          (.entered index placed again :: asides staging.graph list session.store) =
            Session.keepStore (Sweep.of staging.graph list session.store).store entered := hreplay
      rw [hswept]
      cases exit with
      | close => exact finished
      | toward tag index => exact hleap tag index _ hbound (Sweep.indexOf?_of_exit? hexit)

theorem leaping (staging : Staging) (left : Nat) : Leaps staging (leaping staging left) := by
  induction left with
  | zero =>
    intro tag index session hbound hindex
    have hblind : ∀ beat ∈ [Beat.tripped tag], beat.Blind := by simp [Beat.Blind]
    exact after hblind finished
  | succ left ih =>
    intro tag index session hbound hindex
    have hbegun : (Beat.leapt.apply session).staging = some staging := hbound
    have hblind : ∀ beat ∈ [Beat.leapt], beat.Blind := by simp [Beat.Blind]
    exact (after hblind
      (entering ih hbegun (Graph.lt_size_of_indexOf? hindex) false)).landed

theorem enter (hbound : session.staging = some staging) {index : Nat}
    (hindex : index < staging.graph.size) (again : Bool) :
    Screens session (enter staging index again session) := by
  rw [enter_eq]
  exact entering (leaping staging _) hbound hindex again

end Screens

/-! ## Moves -/

section Moves

variable {session : Session}

/-- Beats that show no node introduce none. -/
theorem Beat.introduced_of_blind {beats : List Beat} (hblind : ∀ beat ∈ beats, beat.Blind)
    (before : List Beat) (node : Node) (rest : List Beat)
    (hsplit : beats = before ++ .shown node :: rest) :
    Beat.Introduced session before node :=
  (hblind (.shown node) (by simp [hsplit])).elim

theorem Move.blind_prelude (move : Move) (session : Session) :
    ∀ beat ∈ move.prelude session, beat.Blind :=
  move.forall_mem_prelude trivial (fun _ haside => haside.blind) session

theorem Screens.inGraph {beats : Staging → List Beat} (hsound : session.Sound)
    (hbeats : ∀ staging, session.staging = some staging → Screens session (beats staging)) :
    Screens session (Course.inGraph session beats) := by
  rw [Course.inGraph]
  cases hbound : session.staging with
  | some staging => exact hbeats staging hbound
  | none =>
    rcases hsound with hidle | ⟨staging, placed, hactive⟩
    · exact nothing hidle.current
    · rw [hactive.bound] at hbound
      cases hbound

/-- A departure that does not leave the session as it is puts something on screen, or ends. -/
theorem Departure.screens {departure : Departure} (hsound : session.Sound)
    (hinside : ∀ staging, session.staging = some staging → departure.Inside staging.graph)
    (hrests : ¬ departure.Rests) : Screens session (departure.beats session) := by
  cases departure with
  | rests => exact (hrests trivial).elim
  | misses tag => exact (hrests trivial).elim
  | unasked => exact (hrests trivial).elim
  | ends => exact Screens.finished
  | enters index =>
    exact Screens.inGraph hsound fun staging hbound =>
      Screens.enter hbound (hinside staging hbound) false
  | leaps tag index =>
    exact Screens.inGraph hsound fun staging hbound =>
      Screens.leaping staging _ tag index session hbound (hinside staging hbound)
  | reshows =>
    refine Screens.inGraph hsound fun staging hbound => ?_
    rcases hsound with hidle | ⟨other, placed, hactive⟩
    · rw [hidle.current]
      exact Screens.nothing hidle.current
    · have hsame : other = staging := Option.some.inj (hactive.bound.symm.trans hbound)
      rw [hactive.current]
      exact Screens.enter hbound (hsame ▸ Staging.lt_size_of_at? hactive.place) true

/-- What a move does after its own change, as far as it does not leave the session as it is. -/
theorem Move.screens_sequel {move : Move} (hsound : session.Sound)
    (hrests : ¬ (move.departure session).Rests) : Screens session (move.sequel session) := by
  rw [sequel_eq]
  have horderly := Orderly.prelude session move
  refine Screens.after (move.blind_prelude session) (Departure.screens ?_ ?_ hrests)
  · exact horderly.fit.sound_replay hsound
  · intro staging hbound
    exact move.inside_departure (horderly.staging.symm.trans hbound)

/-- Nothing is heard of a move that leaves the session as it is, and its node stays on screen. -/
theorem Move.sequel_of_rests {move : Move} (hsound : session.Sound)
    (hrests : (move.departure session).Rests) :
    Beat.replay session (move.sequel session) = session ∧
      Beat.heardIn session (move.sequel session) = [] ∧ ∀ beat ∈ move.sequel session,
      beat.Blind := by
  rw [sequel_eq, prelude, starts?_eq_none_of_not_goes hsound hrests.not_goes, Option.elim_none,
    List.nil_append, Beat.replay_nil]
  cases hdeparture : move.departure session with
  | rests => exact ⟨rfl, rfl, by simp [Departure.beats]⟩
  | misses tag => exact ⟨rfl, rfl, by simp [Departure.beats, Beat.Blind]⟩
  | unasked => exact ⟨rfl, rfl, by simp [Departure.beats, Beat.Blind]⟩
  | ends => exact (hdeparture ▸ hrests).elim
  | enters index => exact (hdeparture ▸ hrests).elim
  | leaps tag index => exact (hdeparture ▸ hrests).elim
  | reshows => exact (hdeparture ▸ hrests).elim

/-- The change that a move makes directly leaves the node on screen or takes it away. -/
theorem Move.current_opening (move : Move) (session : Session) :
    (move.opening session).current = session.current ∨ (move.opening session).current = none := by
  cases move with
  | bind staging forget => cases forget <;> exact .inr rfl
  | reset forget => cases forget <;> exact .inr rfl
  | setVariable name offer =>
    rw [opening]
    split <;> exact .inl rfl
  | restore data palette =>
    rw [opening, Session.restore]
    cases Session.variablesOf data palette with
    | error defect => exact .inl rfl
    | ok store => exact .inr rfl
  | _ => exact .inl rfl

/-- After a move, the last thing heard is the presentation of the node on screen, if it was so
before. -/
theorem Move.showing_beats (move : Move) (hsound : session.Sound) {heard : List (Notice × Store)}
    (h : session.Showing heard) :
    (Beat.replay session (move.beats session)).Showing
      (heard ++ Beat.heardIn session (move.beats session)) := by
  let opened := move.opening session
  have hopened : opened.Sound := move.sound_opening hsound
  intro placed hcurrent
  change (Beat.replay opened (move.sequel opened)).current = some placed at hcurrent
  change ∃ before store, heard ++ Beat.heardIn opened (move.sequel opened) = _
  by_cases hrests : (move.departure opened).Rests
  · obtain ⟨hreplay, hheard, -⟩ := Move.sequel_of_rests hopened hrests
    rw [hreplay] at hcurrent
    rw [hheard, List.append_nil]
    rcases move.current_opening session with hkept | hgone
    · exact h placed (hkept.symm.trans hcurrent)
    · rw [hgone] at hcurrent
      cases hcurrent
  · obtain ⟨before, store, hheard⟩ := (Move.screens_sequel hopened hrests).showing placed hcurrent
    exact ⟨heard ++ before, store, by rw [hheard, List.append_assoc]⟩

/-- A move only shows nodes that have been introduced. -/
theorem Move.introduced_beats (move : Move) (hsound : session.Sound) {before rest : List Beat}
    {node : Node} (hsplit : move.beats session = before ++ .shown node :: rest) :
    Beat.Introduced session before node := by
  let opened := move.opening session
  have hopened : opened.Sound := move.sound_opening hsound
  cases before with
  | nil => cases hsplit
  | cons first before =>
    rw [beats, List.cons_append, List.cons.injEq] at hsplit
    obtain ⟨rfl, hsplit⟩ := hsplit
    refine Beat.Introduced.after [.called move] ?_
    by_cases hrests : (move.departure opened).Rests
    · exact Beat.introduced_of_blind (Move.sequel_of_rests hopened hrests).2.2 before
        node rest hsplit
    · exact (Move.screens_sequel hopened hrests).introduced before node rest hsplit

theorem Journal.showing (moves : List Move) (hsettled : session.Settled)
    {heard : List (Notice × Store)} (h : session.Showing heard) :
    (Beat.replay session (Journal.of moves session)).Showing
      (heard ++ Beat.heardIn session (Journal.of moves session)) := by
  induction moves generalizing session heard with
  | nil =>
    rw [Journal.of, Beat.heardIn, List.append_nil]
    exact h
  | cons move moves ih =>
    have hrest := ih (move.settled_beats hsettled) (move.showing_beats hsettled.sound h)
    rw [Journal.of, Beat.replay_append, Beat.heardIn_append, ← List.append_assoc]
    exact hrest

theorem Journal.introduced {moves : List Move} (hsettled : session.Settled)
    {before rest : List Beat} {node : Node}
    (hsplit : Journal.of moves session = before ++ .shown node :: rest) :
    Beat.Introduced session before node := by
  induction moves generalizing session before with
  | nil => simp [Journal.of] at hsplit
  | cons move moves ih =>
    rcases Journal.split_append hsplit with ⟨tail, hfirst, -⟩ | ⟨init, rfl, hrest⟩
    · exact move.introduced_beats hsettled.sound hfirst
    · exact (ih (move.settled_beats hsettled) hrest).after _

end Moves

/-! ## Runs -/

/-- In front of a quiet host, a session that moves have left at a node has told the handler of
that node last: its speaker and its speech, and its choices if it has any, each with the variables
of that moment. Every node that it has shown had been entered right before, and no command of that
entry had closed the session or jumped. -/
theorem onScreen {σ ε : Type} {host : Host σ ε} {calm : Bus Notice.Kind String Notice → σ → Prop}
    {heard : σ → List (Notice × Store)} (hhost : host.Quiet calm) (hheard : host.Records heard)
    {world : World σ} (hfresh : world.rest.session.Fresh) (hcalm : calm world.bus world.rest.host)
    (moves : List Move) :
    let session := world.rest.session
    let journal := Journal.of moves session
    let after := Move.performAll host moves world
    after.rest.session = Beat.replay session journal ∧
      heard after.rest.host = heard world.rest.host ++ Beat.heardIn session journal ∧
      (∀ placed, after.rest.session.current = some placed → ∃ before store,
        heard after.rest.host =
          before ++ (Session.presentation store placed.node).map (·, store)) ∧
      ∀ before node rest, journal = before ++ .shown node :: rest →
        Beat.Introduced session before node := by
  intro session journal after
  have hsettled : session.Settled := hfresh.settled
  have hperformed := Session.performAll_journal hhost hheard moves hsettled hcalm
  have hshowing : session.Showing (heard world.rest.host) := by
    obtain ⟨staging, store, hsession⟩ := hfresh
    intro placed hcurrent
    simp [session, hsession] at hcurrent
  refine ⟨hperformed.session, hperformed.heard, ?_, fun before node rest hsplit => ?_⟩
  · rw [hperformed.session, hperformed.heard]
    exact Journal.showing moves hsettled hshowing
  · exact Journal.introduced hsettled hsplit

/-- The first node offers choices and runs a command that jumps to the second one, which is shown
alone. -/
theorem onScreen_of_jump :
    let graph : Graph := ⟨[
      { tag := "a", text := "First.", commands := [⟨"jump", some "b"⟩], choices := [⟨"On", "b"⟩] },
      { tag := "b", text := "Second.", choices := [⟨"Back", "a"⟩] }], by decide⟩
    let world : World (List (Notice × Store)) :=
      { bus := {}, rest := { session := { staging := some (.ofGraph graph) }, host := [] } }
    let after := Move.performAll Host.recorder [.start] world
    ∃ placed before store, after.rest.session.current = some placed ∧ placed.node.tag = "b" ∧
      after.rest.host = before ++ (Session.presentation store placed.node).map (·, store) := by
  intro graph world after
  have hfresh : world.rest.session.Fresh := ⟨_, _, rfl⟩
  obtain ⟨-, -, hshown, -⟩ :=
    onScreen Host.quiet_recorder Host.records_recorder hfresh ⟨rfl, rfl, rfl⟩ [.start]
  have hcurrent : after.rest.session.current.map (·.node.tag) = some "b" := by decide +kernel
  obtain ⟨placed, hplaced, htag⟩ := Option.map_eq_some_iff.1 hcurrent
  obtain ⟨before, store, hheard⟩ := hshown placed hplaced
  exact ⟨placed, before, store, hplaced, htag, hheard⟩

end Colloquy
