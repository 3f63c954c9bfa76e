import Colloquy.Proofs.Session.Completion
import Colloquy.Proofs.Session.Refusals
import Colloquy.Terminal.Player

/-!
# The screen is in step with the session

The terminal is a quiet host: it writes down what it is told and does nothing else. So the screen
after a move is what the notices of the move make of it (`performBeats_shows`). It has shown the
end exactly if no node is on screen any more (`InStep`), which a move of the player keeps up
(`InStep.next`, `InStep.select`).
-/

namespace Colloquy

/-! ## Hosts that show what they are told -/

section Shows

variable {σ ε : Type}

/-- The handler changes the state of the host by each notice, and listeners leave it alone. -/
structure Host.Shows (host : Host σ ε) (tell : σ → Notice → σ) : Prop where
  handle : ∀ notice world, ((host.handle notice).on world).2.rest.host = tell world.rest.host notice
  listen : ∀ name event world, (host.listen name event world).state.rest.host = world.rest.host

namespace Session

variable {host : Host σ ε} {tell : σ → Notice → σ} {world world' : World σ}

theorem send_shows (hshows : host.Shows tell) (signal : Signal) (world : World σ) :
    ((send host signal).on world).2.rest.host = signal.told?.toList.foldl tell world.rest.host := by
  cases signal with
  | tell notice => exact hshows.handle notice world
  | publish notice =>
    exact publish_keeps (P := fun scene => scene.host = world.rest.host)
      (fun name event world' h => (hshows.listen name event world').trans h) (fun _ _ h => h) rfl
  | log level message => rfl

theorem sendAll_shows (hshows : host.Shows tell) {signals : List Signal}
    (hon : (sendAll host signals).on world = (.ok (), world')) :
    world'.rest.host = (signals.filterMap Signal.told?).foldl tell world.rest.host := by
  induction signals generalizing world with
  | nil =>
    cases hon
    rfl
  | cons signal signals ih =>
    have hsent := send_shows hshows signal world
    rw [sendAll, Act.on_bind] at hon
    split at hon
    · next hfirst =>
      rw [hfirst] at hsent
      rw [ih hon, hsent, List.filterMap_cons]
      cases signal.told? <;> rfl
    · cases hon

/-- After beats, the host shows what it has been told in them. -/
theorem performBeats_shows (hhost : host.Aloof) (hshows : host.Shows tell) {beats : List Beat}
    (hon : (performBeats host beats).on world = (.ok (), world')) :
    world'.rest.host =
      ((Beat.signalsIn world.rest.session beats).filterMap Signal.told?).foldl tell
        world.rest.host := by
  induction beats generalizing world with
  | nil =>
    cases hon
    rfl
  | cons beat beats ih =>
    rw [performBeats, Act.on_bind] at hon
    split at hon
    · next world₁ hfirst =>
      have hsession := performBeat_ok hhost hfirst
      rw [performBeat_on hhost] at hfirst
      split at hfirst
      · next hsent =>
        have hbeat := sendAll_shows hshows hsent
        cases hfirst
        rw [ih hon, Beat.signalsIn, List.filterMap_append, List.foldl_append, hsession]
        exact congrArg (List.foldl tell · _) hbeat
      · cases hfirst
    · cases hon

end Session

end Shows

namespace Terminal

variable {world : World Screen} {graph : Graph}

theorem quiet_host : host.Quiet fun bus _ => Live.Silent bus where
  handle _ _ := rfl
  listen _ _ _ := rfl
  handle_calm _ _ hcalm := ⟨rfl, hcalm⟩
  publish_calm notice world hcalm := by
    have hpublish := Live.publish_of_silent hcalm ⟨host.listen, Session.reportFailure⟩
      host.patience ⟨notice.kind, notice, false⟩ world.rest
    have hon : (Session.publish host notice).on world =
        (.ok (), { world with bus := { world.bus with hands := [] } }) := by
      rw [Session.publish, Act.on_bind, Act.on_get]
      dsimp only
      rw [hpublish]
      rfl
    rw [hon]
    exact ⟨rfl, hcalm.lists, hcalm.queue, hcalm.walk⟩

theorem shows_host : host.Shows Screen.tell where
  handle _ _ := rfl
  listen _ _ _ := rfl

/-! ## The end on the screen -/

theorem ended_tell_iff (screen : Screen) (notice : Notice) :
    (screen.tell notice).ended = true ↔ screen.ended = true ∨ notice = .completed := by
  cases notice with
  | speech text =>
    rw [Screen.tell]
    split <;> simp [Screen.write]
  | _ => simp [Screen.tell, Screen.write]

/-- The end has been shown once it has been told. -/
theorem ended_foldl_tell_iff (notices : List Notice) (screen : Screen) :
    (notices.foldl Screen.tell screen).ended = true ↔ screen.ended = true ∨
    .completed ∈ notices := by
  induction notices generalizing screen with
  | nil => simp
  | cons notice notices ih =>
    rw [List.foldl_cons, ih, ended_tell_iff, List.mem_cons, or_assoc, @eq_comm _ notice]

theorem completed_mem_told_iff {session : Session} {beats : List Beat} :
    Notice.completed ∈ (Beat.signalsIn session beats).filterMap Signal.told? ↔
      Signal.tell .completed ∈ Beat.emittedIn session beats := by
  unfold Beat.emittedIn
  rw [List.mem_filterMap, List.mem_filter]
  constructor
  · rintro ⟨signal, hsignal, htold⟩
    cases signal with
    | tell notice =>
      cases htold
      exact ⟨hsignal, rfl⟩
    | publish notice => cases htold
    | log level message => cases htold
  · rintro ⟨hsignal, -⟩
    exact ⟨_, hsignal, rfl⟩

/-- A graph is played on the terminal. The end has been shown exactly if no node is on screen. -/
structure InStep (graph : Graph) (world : World Screen) : Prop where
  settled : world.rest.session.Settled
  bound : world.rest.session.staging = some (.ofGraph graph)
  silent : Live.Silent world.bus
  ended : world.rest.host.ended = true ↔ world.rest.session.current = none

/-- A move before the end that is not refused succeeds. It shows the end exactly if it takes the
node off the screen, provided that it leaves a node there otherwise. -/
theorem perform_inStep {move : Move} (hsettled : world.rest.session.Settled)
    (hbound : world.rest.session.staging = some (.ofGraph graph)) (hsilent : Live.Silent world.bus)
    (hended : world.rest.host.ended = false)
    (hopening : move.opening world.rest.session = world.rest.session)
    (hrefusal : (move.refusal? world.rest.session : Option (Setback BadAnswer)) = none)
    (hstays : (∀ beat ∈ move.beats world.rest.session, beat ≠ .finished) →
      (Beat.replay world.rest.session (move.beats world.rest.session)).current.isSome) :
    ∃ next, move.perform host world = (.ok (), next) ∧ InStep graph next := by
  obtain ⟨hok, hcalm⟩ := Session.perform_quiet quiet_host hsettled hsilent hrefusal
  have hon := Session.performBeats_perform quiet_host move hsettled hsilent
  have hsession := Session.performBeats_ok quiet_host.toAloof hon
  have hscreen := Session.performBeats_shows quiet_host.toAloof shows_host hon
  refine ⟨(move.perform host world).2, Prod.ext hok rfl, ?_⟩
  constructor
  case settled => exact Session.settled_perform quiet_host.toAloof move hsettled
  case bound =>
    have hstaging := (Orderly.sequel (move.opening world.rest.session) move).staging
    rw [hopening, hbound] at hstaging
    rw [hsession, Move.beats, Beat.replay_cons, Beat.apply, hopening]
    exact hstaging
  case silent => exact hcalm
  case ended =>
    rw [hscreen, ended_foldl_tell_iff, completed_mem_told_iff, hended, hsession]
    rcases (EndsOnce.beats move world.rest.session).completes world.rest.session with
      hnever | ⟨done, hdone⟩
    · obtain ⟨placed, hplaced⟩ := Option.isSome_iff_exists.1 (hstays hnever)
      have hsilence :
          ∀ signal ∈ Beat.emittedIn world.rest.session (move.beats world.rest.session),
            ¬ signal.Closing :=
        Beat.not_closing_emittedIn hnever
      rw [hplaced]
      refine iff_of_false ?_ (by simp)
      rintro (hfalse | htold)
      · cases hfalse
      · exact hsilence _ htold rfl
    · refine iff_of_true (.inr ?_) hdone.idle.current
      rw [hdone.emitted]
      simp

/-! ## The moves of the player -/

namespace InStep

/-- Before the end, going on succeeds. -/
theorem next (h : InStep graph world) {placed : Placed}
    (hcurrent : world.rest.session.current = some placed)
    (hended : world.rest.host.ended = false) :
    ∃ next, (Move.next false).perform host world = (.ok (), next) ∧ InStep graph next := by
  refine perform_inStep h.settled h.bound h.silent hended rfl ?_ fun hnever => ?_
  · simp [Move.refusal?, h.bound, hcurrent]
  · exact Move.isSome_current_beats rfl hnever (Option.isSome_of_mem hcurrent)

/-- Before the end, a choice that is on screen can be taken. -/
theorem select (h : InStep graph world) {placed : Placed}
    (hcurrent : world.rest.session.current = some placed) (hended : world.rest.host.ended = false)
    {index : Nat} (hindex : index < placed.node.choices.length) :
    ∃ next, (Move.select index).perform host world = (.ok (), next) ∧ InStep graph next := by
  refine perform_inStep h.settled h.bound h.silent hended rfl ?_ fun hnever => ?_
  · have hchoices : placed.node.hasChoices = true :=
      Node.hasChoices_iff.2 (List.ne_nil_of_length_pos (Nat.zero_lt_of_lt hindex))
    simp [Move.refusal?, hcurrent, Option.filter_some, hchoices, hindex]
  · exact Move.isSome_current_beats rfl hnever (Option.isSome_of_mem hcurrent)

/-- Entering the first node puts it on screen, unless its commands end the session. -/
theorem start (hgraph : graph.nodes ≠ []) (log : List LogEntry) :
    ∃ next, Move.start.perform host (initial graph log) = (.ok (), next) ∧ InStep graph next := by
  have hsettled : (initial graph log).rest.session.Settled := Session.Fresh.settled ⟨_, _, rfl⟩
  have hempty : ¬ graph.nodes.isEmpty = true := by simpa using hgraph
  refine perform_inStep hsettled rfl ⟨rfl, rfl, rfl⟩ rfl rfl ?_ fun hnever => ?_
  · exact if_neg hempty
  · let staging : Staging := .ofGraph graph
    let session := (initial graph log).rest.session
    obtain ⟨placed, hplace⟩ : ∃ placed, staging.at? 0 = some placed :=
      Staging.exists_at? (Graph.size_pos hempty)
    obtain ⟨rest, hsequel⟩ :
        ∃ rest, Move.sequel session .start = .entered 0 placed false :: rest := by
      have hstart : Move.sequel session .start = Course.enter staging 0 false session :=
        if_neg hempty
      exact ⟨_, hstart.trans (Course.entering_eq hplace false session)⟩
    have hfit := (Orderly.sequel session .start).fit
    rw [hsequel] at hfit
    have hrest : ∀ beat ∈ rest, beat ≠ .finished := by
      rw [Move.beats, show Move.opening session .start = session from rfl, hsequel] at hnever
      exact fun beat hbeat => hnever beat (List.mem_cons_of_mem _ (List.mem_cons_of_mem _ hbeat))
    rw [Move.beats, Beat.replay_cons, show Move.opening session .start = session from rfl, hsequel]
    exact hfit.2.isSome_current hrest rfl

end InStep

end Terminal

end Colloquy
