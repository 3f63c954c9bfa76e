import Colloquy.Proofs.Session.Signals
import Colloquy.Proofs.Session.Visits

/-!
# Completion

A session ends in five places of a move: after the last node, by a command that closes it, in a
jump that is one too many, and when a player stops it. Each of them lies within the actions that
led to it, such as the jumps under way, and all of these must come to an end without doing more.
`EndsOnce` says so of beats: if the session ends in them, it does so once, and after that they
only end jumps.

For hosts that do not call back, this says when the end is told and published
(`completion_terminal`).
-/

namespace Colloquy

/-! ## Beats that end the session -/

/-- Beats in which the session does not end, or in which it ends once and nothing follows but the
ends of jumps. -/
inductive EndsOnce : List Beat → Prop
  | never {beats : List Beat} : (∀ beat ∈ beats, beat ≠ .finished) → EndsOnce beats
  | once {done : List Beat} (landings : Nat) : (∀ beat ∈ done, beat ≠ .finished) →
      EndsOnce (done ++ .finished :: List.replicate landings .landed)

namespace EndsOnce

open Course

variable {session : Session} {staging : Staging} {first second : List Beat}

theorem after (hfirst : ∀ beat ∈ first, beat ≠ .finished) (hsecond : EndsOnce second) :
    EndsOnce (first ++ second) := by
  cases hsecond with
  | never hnever => exact never (List.forall_mem_append.2 ⟨hfirst, hnever⟩)
  | once landings hdone =>
    rw [← List.append_assoc]
    exact once landings (List.forall_mem_append.2 ⟨hfirst, hdone⟩)

theorem landed (h : EndsOnce first) : EndsOnce (first ++ [.landed]) := by
  cases h with
  | never hnever => exact never (List.forall_mem_append.2 ⟨hnever, by simp⟩)
  | once landings hdone =>
    rw [List.append_assoc, List.cons_append, ← List.replicate_succ']
    exact once (landings + 1) hdone

theorem finished : EndsOnce [.finished] :=
  once 0 (List.forall_mem_nil _)

theorem not_finished_of_mem_asides {graph : Graph} {list : List Command} {store : Store} :
    ∀ beat ∈ asides graph list store, beat ≠ .finished := by
  rintro beat hbeat rfl
  exact aside_of_mem_asides graph list store _ hbeat

/-- Jumps that end the session at most once. -/
def Leaps (leap : String → Nat → Session → List Beat) : Prop :=
  ∀ tag index session, EndsOnce (leap tag index session)

theorem entering {leap : String → Nat → Session → List Beat} (hleap : Leaps leap) (index : Nat)
    (again : Bool) : EndsOnce (entering staging leap index again session) := by
  cases hplace : staging.at? index with
  | none =>
    rw [Course.entering, hplace]
    exact never (List.forall_mem_nil _)
  | some placed =>
    cases hruns : placed.node.hasChoices && ! (again && session.hasRun) with
    | false =>
      rw [entering_of_not_runs hplace hruns]
      exact never (by simp)
    | true =>
      rw [entering_of_runs hplace hruns, ← List.cons_append]
      refine after (List.forall_mem_cons.2 ⟨by simp, not_finished_of_mem_asides⟩) ?_
      cases (Sweep.of staging.graph placed.node.commands session.store).exit? with
      | none => exact never (by simp)
      | some exit =>
        cases exit with
        | close => exact finished
        | toward tag next => exact hleap tag next _

theorem leaping (staging : Staging) (left : Nat) : Leaps (leaping staging left) := by
  induction left with
  | zero =>
    intro tag index session
    have htripped : ∀ beat ∈ [Beat.tripped tag], beat ≠ .finished := by simp
    exact after htripped finished
  | succ left ih =>
    intro tag index session
    have hleapt : ∀ beat ∈ [Beat.leapt], beat ≠ .finished := by simp
    exact (after hleapt (entering ih index false)).landed

theorem enter (index : Nat) (again : Bool) : EndsOnce (enter staging index again session) := by
  rw [enter_eq]
  exact entering (leaping staging _) index again

theorem inGraph {beats : Staging → List Beat} (hbeats : ∀ staging, EndsOnce (beats staging)) :
    EndsOnce (inGraph session beats) := by
  rw [Course.inGraph]
  split
  · exact never (List.forall_mem_nil _)
  · exact hbeats _

theorem departure (departure : Departure) (session : Session) :
    EndsOnce (departure.beats session) := by
  cases departure with
  | rests => exact never (List.forall_mem_nil _)
  | misses tag => exact never (by simp [Departure.beats])
  | unasked => exact never (by simp [Departure.beats])
  | ends => exact finished
  | enters index => exact inGraph fun staging => enter index false
  | leaps tag index => exact inGraph fun staging => leaping staging _ tag index session
  | reshows =>
    refine inGraph fun staging => ?_
    split
    · exact enter session.index true
    · exact never (List.forall_mem_nil _)

theorem beats (move : Move) (session : Session) : EndsOnce (move.beats session) := by
  have hprelude : ∀ beat ∈ move.prelude (move.opening session), beat ≠ .finished := by
    refine move.forall_mem_prelude (by simp) ?_ _
    rintro beat haside rfl
    exact haside
  have hcalled : ∀ beat ∈ [Beat.called move], beat ≠ .finished := by simp
  rw [Move.beats, Move.sequel_eq]
  exact after hcalled (after hprelude (departure _ _))

end EndsOnce

/-! ## What the end lets out -/

/-- A signal that the session has ended. -/
def Signal.Closing (signal : Signal) : Prop :=
  signal.notice? = some .completed

theorem Session.not_closing_of_mem_presenting {store : Store} {node : Node} :
    ∀ signal ∈ presenting store node, ¬ signal.Closing := by
  rw [presenting]
  split <;> simp [Signal.Closing, Signal.notice?]

/-- Nothing but the end says that the session has ended. -/
theorem Beat.not_closing {beat : Beat} (hbeat : beat ≠ .finished) (session : Session) :
    ∀ signal ∈ beat.signals session, ¬ signal.Closing := by
  cases beat with
  | finished => exact (hbeat rfl).elim
  | ran command =>
    rw [signals]
    split
    · next hwork =>
      rcases Command.signals_of_work hwork with rfl | ⟨level, message, -, rfl⟩
        | ⟨message, text, rfl⟩ |
        rfl
      all_goals simp [Signal.Closing, Signal.notice?]
    · exact List.forall_mem_nil _
  | shown node => exact Session.not_closing_of_mem_presenting
  | _ => simp [signals, Signal.Closing, Signal.notice?]

theorem Beat.not_closing_emittedIn {session : Session} {beats : List Beat}
    (h : ∀ beat ∈ beats, beat ≠ .finished) :
    ∀ signal ∈ emittedIn session beats, ¬ signal.Closing := by
  intro signal hsignal
  obtain ⟨beat, hbeat, now, hmem⟩ := exists_of_mem_signalsIn (List.mem_filter.1 hsignal).1
  exact beat.not_closing (h beat hbeat) now signal hmem

theorem Beat.emittedIn_landings (session : Session) (landings : Nat) :
    emittedIn session (List.replicate landings .landed) = [] := by
  induction landings generalizing session with
  | zero => rfl
  | succ landings ih => exact ih (Beat.landed.apply session)

/-- A node stays on screen until the session ends. -/
theorem Beat.Fit.isSome_current {session : Session} {beats : List Beat} (hfit : Fit session beats)
    (hbeats : ∀ beat ∈ beats, beat ≠ .finished) (hcurrent : session.current.isSome) :
    (replay session beats).current.isSome := by
  induction beats generalizing session with
  | nil => exact hcurrent
  | cons beat beats ih =>
    obtain ⟨hbeat, hrest⟩ := List.forall_mem_cons.1 hbeats
    refine ih hfit.2 hrest ?_
    cases beat with
    | called move => exact hfit.1.elim
    | finished => exact (hbeat rfl).elim
    | entered index placed again => rfl
    | _ => exact hcurrent

/-- A move that does not rewind leaves a node on screen unless the session ends in it. -/
theorem Move.isSome_current_beats {move : Move} {session : Session}
    (hrewinds : move.rewinds = false) (hbeats : ∀ beat ∈ move.beats session, beat ≠ .finished)
    (hcurrent : session.current.isSome) :
    (Beat.replay session (move.beats session)).current.isSome := by
  obtain ⟨store, hopening⟩ := move.exists_keepStore_opening hrewinds session
  have hopened : (move.opening session).current.isSome := by
    rw [hopening]
    exact hcurrent
  exact (Orderly.sequel _ move).fit.isSome_current (List.forall_mem_cons.1 hbeats).2 hopened

/-- Beats in which the session ends. Before that nothing says so, then it is told and published,
and after that nothing is told, published or run. The session is left at its first node, with the
variables it had. -/
structure Completes (session : Session) (beats done : List Beat) : Prop where
  course : ∃ landings, beats = done ++ .finished :: List.replicate landings .landed
  before : ∀ beat ∈ done, beat ≠ .finished
  silent : ∀ signal ∈ Beat.emittedIn session done, ¬ signal.Closing
  emitted : Beat.emittedIn session beats =
    Beat.emittedIn session done ++ [.tell .completed, .publish .completed]
  idle : (Beat.replay session beats).Idle
  store : (Beat.replay session beats).store = (Beat.replay session done).store

/-- Beats either never say that the session has ended, or they complete it. -/
theorem EndsOnce.completes {beats : List Beat} (h : EndsOnce beats) (session : Session) :
    (∀ beat ∈ beats, beat ≠ .finished) ∨ ∃ done, Completes session beats done := by
  cases h with
  | never hnever => exact .inl hnever
  | @once done landings hdone =>
    let rewound := Session.rewound (Beat.replay session done)
    obtain ⟨pending, hlandings⟩ := Beat.replay_landings rewound landings
    have hreplay : Beat.replay session (done ++ .finished :: List.replicate landings .landed) =
        { rewound with pending } := by
      rw [Beat.replay_append, Beat.replay_cons]
      exact hlandings
    have hemitted : Beat.emittedIn (Beat.replay session done)
        (.finished :: List.replicate landings .landed) =
          [.tell .completed, .publish .completed] := by
      rw [← List.singleton_append, Beat.emittedIn_append]
      exact congrArg (_ ++ ·) (Beat.emittedIn_landings _ landings)
    refine .inr ⟨done, ⟨landings, rfl⟩, hdone, Beat.not_closing_emittedIn hdone, ?_, ?_, ?_⟩
    · rw [Beat.emittedIn_append, hemitted]
    · rw [hreplay]
      exact ⟨rfl, rfl, rfl⟩
    · rw [hreplay]
      rfl

/-! ## Moves -/

/-- A move that sets the session up anew, without playing it. -/
def Move.SetsUp : Move → Prop
  | .bind _ _ => True
  | .reset _ => True
  | .restore _ _ => True
  | _ => False

theorem Move.emittedIn_of_setsUp {move : Move} (h : move.SetsUp) (session : Session) :
    Beat.emittedIn session (move.beats session) = [] := by
  cases move with
  | bind staging forget => rfl
  | reset forget => rfl
  | restore data palette => rfl
  | _ => exact h.elim

theorem Move.rewinds_of_not_setsUp {move : Move} (h : ¬ move.SetsUp) : move.rewinds = false := by
  cases move with
  | bind staging forget => exact (h trivial).elim
  | reset forget => exact (h trivial).elim
  | restore data palette => exact (h trivial).elim
  | _ => rfl

section Worlds

variable {σ ε : Type} {host : Host σ ε} {world : World σ}

/-- The end leaves the variables alone, whether the host fails or not. -/
theorem Session.store_complete (hhost : host.Aloof) (world : World σ) :
    ((complete host).on world).2.rest.session.store = world.rest.session.store := by
  rw [← performBeat_finished]
  rcases hon : (performBeat host .finished).on world with ⟨fault | done, world'⟩
  · rw [performBeat_error hhost hon]
  · rw [performBeat_ok hhost hon]
    rfl

/-- In front of a quiet host, the beats of a move are performed one after the other, be it refused
or not. -/
theorem Session.performBeats_perform {calm : Bus Notice.Kind String Notice → σ → Prop}
    (hhost : host.Quiet calm) (move : Move) (hsettled : world.rest.session.Settled)
    (hcalm : calm world.bus world.rest.host) :
    (performBeats host (move.beats world.rest.session)).on world =
      (.ok (), (move.perform host world).2) := by
  rw [performs hhost.toAloof move hsettled.sound]
  cases hrefusal : (move.refusal? world.rest.session : Option (Setback ε)) with
  | some setback =>
    rw [Move.beats, Move.opening_of_refused hrefusal, Move.sequel_of_refused hrefusal, performBeats,
      Act.on_bind, performBeat_silent hhost.toAloof rfl, Beat.apply,
      Move.opening_of_refused hrefusal,
      World.setSession_self]
    rfl
  | none =>
    obtain ⟨world', hon, -⟩ := performBeats_calm hhost (move.beats world.rest.session) hcalm
    dsimp only
    rw [performCourse, hon]
    rfl

/-- In front of a quiet host, a move ends the session at most once and does nothing after that. If
it takes a node off the screen, it ends the session, unless it sets the session up anew; such
moves let nothing out. And the end leaves the variables alone.

What a move lets out is what its beats emit. A host with a transcript finds it there. -/
theorem completion_terminal {calm : Bus Notice.Kind String Notice → σ → Prop}
    (hhost : host.Quiet calm) (hreached : Reached ε world) (hcalm : calm world.bus world.rest.host)
    (move : Move) :
    let session := world.rest.session
    let beats := move.beats session
    let emitted := Beat.emittedIn session beats
    let after := (move.perform host world).2
    (Session.performBeats host beats).on world = (.ok (), after) ∧
      after.rest.session = Beat.replay session beats ∧
      (∀ seen, host.Transcribes calm seen →
        seen after.rest.host = seen world.rest.host ++ emitted) ∧
      ((∀ beat ∈ beats, beat ≠ .finished) ∧ (∀ signal ∈ emitted, ¬ signal.Closing) ∧
          (session.current.isSome → after.rest.session.current = none → move.SetsUp) ∨
        ∃ done, Completes session beats done ∧ ¬ move.SetsUp) ∧
      (move.SetsUp → emitted = []) ∧
      ∀ other : World σ,
        ((Session.complete host).on other).2.rest.session.store = other.rest.session.store := by
  intro session beats emitted after
  have hsettled := hreached.settled
  have hon := Session.performBeats_perform hhost move hsettled hcalm
  have hafter : after.rest.session = Beat.replay session beats :=
    Session.performBeats_ok hhost.toAloof hon
  refine ⟨hon, hafter, fun seen hseen => ?_, ?_, fun hsets =>
    move.emittedIn_of_setsUp hsets session,
    Session.store_complete hhost.toAloof⟩
  · have htranscript := Session.performBeats_transcript hhost hseen beats hcalm
    rw [hon] at htranscript
    exact htranscript
  · by_cases hsets : move.SetsUp
    · have hnothing := move.emittedIn_of_setsUp hsets session
      rcases (EndsOnce.beats move session).completes session with hnever | ⟨done, hcompletes⟩
      · exact .inl ⟨hnever, Beat.not_closing_emittedIn hnever, fun _ _ => hsets⟩
      · rw [hcompletes.emitted] at hnothing
        simp at hnothing
    · rcases (EndsOnce.beats move session).completes session with hnever | ⟨done, hcompletes⟩
      · refine .inl ⟨hnever, Beat.not_closing_emittedIn hnever, fun hcurrent hnone => ?_⟩
        have hstays := Move.isSome_current_beats (Move.rewinds_of_not_setsUp hsets) hnever hcurrent
        rw [← hafter, hnone] at hstays
        cases hstays
      · exact .inr ⟨done, hcompletes, hsets⟩

/-- A player goes on. A command jumps to a node with choices; the first command of that node prints
something, the second one closes the session, and the last one does not run. -/
theorem completion_terminal_jump :
    let graph : Graph := ⟨[
      { tag := "hall", commands := [⟨"jump", some "attic"⟩] },
      { tag := "attic", choices := [⟨"Down", "hall"⟩]
        commands := [⟨"print", some "dark"⟩, ⟨"close", none⟩, ⟨"flag", some "seen"⟩] }], by decide⟩
    let subscriptions : List (Subscription String) := [{ listener := "ear", weak := false }]
    let bus : Bus Notice.Kind String Notice :=
      { lists := ⟨[(.speaker, subscriptions), (.speech, subscriptions), (.choices, subscriptions),
          (.command, subscriptions), (.completed, subscriptions), (.print, subscriptions)],
          by decide⟩ }
    let fresh : World (List Signal) :=
      { bus, rest := { session := { staging := some (.ofGraph graph) }, host := [] } }
    let started := (Move.start.perform Host.scribe fresh).2
    started.rest.session.current.isSome ∧
      ((Move.next false).perform Host.scribe started).2.rest.session.current = none ∧
      ((Move.next false).perform Host.scribe started).2.rest.host = started.rest.host ++
        [.tell (.print "dark"), .publish (.print "dark"), .tell .completed, .publish .completed] ∧
      ∃ done,
        Completes started.rest.session ((Move.next false).beats started.rest.session) done := by
  intro graph subscriptions bus fresh started
  have hattended : Live.Attended "ear" fresh.bus := by
    refine ⟨fun kind => ?_, rfl, rfl⟩
    cases kind <;> rfl
  have hfresh : fresh.rest.session.Fresh := ⟨_, _, rfl⟩
  have hquiet := Host.quiet_scribe "ear"
  have hreached : Reached Unit started := .move .start hquiet.toAloof (.fresh hfresh)
  have hstart : (Move.start.refusal? fresh.rest.session : Option (Setback Unit)) = none := rfl
  have hcalm : Live.Attended "ear" started.bus :=
    (Session.perform_quiet hquiet hfresh.settled hattended hstart).2
  obtain ⟨-, -, htranscript, hends, -⟩ :=
    completion_terminal hquiet hreached hcalm (.next false)
  have hcurrent : started.rest.session.current.isSome := by decide +kernel
  have hnone : ((Move.next false).perform Host.scribe started).2.rest.session.current = none := by
    decide +kernel
  have hemitted :
      Beat.emittedIn started.rest.session ((Move.next false).beats started.rest.session) =
      [.tell (.print "dark"), .publish (.print "dark"), .tell .completed, .publish .completed] := by
    decide +kernel
  have hwritten := htranscript id (Host.transcribes_scribe "ear")
  rw [hemitted] at hwritten
  refine ⟨hcurrent, hnone, hwritten, ?_⟩
  rcases hends with ⟨-, -, hstays⟩ | ⟨done, hcompletes, -⟩
  · exact (hstays hcurrent hnone).elim
  · exact ⟨done, hcompletes⟩

end Worlds

end Colloquy
