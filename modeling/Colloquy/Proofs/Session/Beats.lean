import Colloquy.Proofs.Session.Commands
import Colloquy.Proofs.Session.Moves

/-!
# Beats

What a session does comes in beats: a node is entered, a command runs, a jump begins or ends, a
node is shown. A beat lets some signals out and then changes the session, and both depend on the
session alone (`Beat.signals`, `Beat.apply`). Performing beats in front of an aloof host therefore
changes the session as `replay` says (`performBeats_ok`), and if the host fails, the session is
left as the beats before the failure have made it (`performBeats_error`). In front of a quiet
host, all beats are performed (`performBeats_calm`).
-/

namespace Colloquy

/-- One thing that a session does. -/
inductive Beat where
  /-- A player or a host makes a move. -/
  | called (move : Move)
  /-- The node at a place comes on screen. `again` says that it is only to be shown again. -/
  | entered (index : Nat) (placed : Placed) (again : Bool)
  /-- The commands of the node on screen are started, because the player goes on. -/
  | begun
  /-- A command runs. If it closes the session or jumps, that is left to the next beats. -/
  | ran (command : Command)
  /-- No node has the tag that was asked for. -/
  | missed (tag : String)
  /-- Too many jumps are under way for the jump that was asked for. -/
  | tripped (tag : String)
  /-- A jump by a command begins. -/
  | leapt
  /-- A jump by a command is over. -/
  | landed
  /-- A node is shown. -/
  | shown (node : Node)
  /-- A choice was made where none was offered. -/
  | unasked
  /-- The session ends. -/
  | finished

namespace Session

/-- What a node shows of itself. -/
def presentation (store : Store) (node : Node) : List Notice :=
  [.speaker (Reference.resolve store.display node.speaker),
    .speech (Reference.resolve store.display node.text)] ++
  if node.hasChoices then
    [.choices (node.choices.map fun choice =>
      { choice with text := Reference.resolve store.display choice.text })]
  else []

/-- The signals by which a node is shown. The handler hears of speaker and speech before the bus
does. -/
def presenting (store : Store) (node : Node) : List Signal :=
  let speaker := Reference.resolve store.display node.speaker
  let speech := Reference.resolve store.display node.text
  [.tell (.speaker speaker), .tell (.speech speech),
    .publish (.speaker speaker), .publish (.speech speech)] ++
  if node.hasChoices then
    let choices := node.choices.map fun choice =>
      { choice with text := Reference.resolve store.display choice.text }
    [.tell (.choices choices), .publish (.choices choices)]
  else []

end Session

namespace Beat

/-- The signals of a beat. -/
def signals (session : Session) : Beat → List Signal
  | .ran command =>
    match command.work session.store with
    | .plain signals _ => signals
    | _ => []
  | .missed tag => [.log .warning s!"Dialogue jump target not found: [{tag}]"]
  | .tripped tag =>
    [.log .error s!"Dialogue jump loop detected at [{tag}]; stopping playback"]
  | .shown node => Session.presenting session.store node
  | .unasked => [.log .warning "select_choice() called while no choice is open"]
  | .finished => [.tell .completed, .publish .completed]
  | _ => []

/-- The session after a beat. -/
def apply (session : Session) : Beat → Session
  | .called move => move.opening session
  | .entered index placed again =>
    { session with
      index, current := some placed
      hasRun := again && session.hasRun || placed.node.hasChoices }
  | .begun => { session with hasRun := true }
  | .ran command => Session.keepStore (command.leaves session.store) session
  | .leapt => { session with pending := session.pending + 1 }
  | .landed => { session with pending := session.pending - 1 }
  | .finished => Session.rewound session
  | _ => session

/-- What the handler is told in a beat. -/
def told (session : Session) (beat : Beat) : List Notice :=
  (beat.signals session).filterMap Signal.told?

/-- The session after beats. -/
def replay (session : Session) (beats : List Beat) : Session :=
  beats.foldl apply session

/-- What the handler is told in beats, each with the variables of that moment. -/
def heardIn (session : Session) : List Beat → List (Notice × Store)
  | [] => []
  | beat :: beats =>
    (beat.told session).map (·, session.store) ++ heardIn (beat.apply session) beats

@[simp] theorem replay_nil (session : Session) : replay session [] = session := rfl

@[simp] theorem replay_cons (session : Session) (beat : Beat) (beats : List Beat) :
    replay session (beat :: beats) = replay (beat.apply session) beats := rfl

@[simp] theorem replay_append (session : Session) (first second : List Beat) :
    replay session (first ++ second) = replay (replay session first) second :=
  List.foldl_append

/-- The ends of jumps change nothing but the number of jumps under way. -/
theorem replay_landings (session : Session) (landings : Nat) :
    ∃ pending, replay session (List.replicate landings .landed) = { session with pending } := by
  induction landings generalizing session with
  | zero => exact ⟨session.pending, rfl⟩
  | succ landings ih => exact ih (landed.apply session)

theorem heardIn_append (session : Session) (first second : List Beat) :
    heardIn session (first ++ second) =
      heardIn session first ++ heardIn (replay session first) second := by
  induction first generalizing session with
  | nil => rfl
  | cons beat first ih => simp [heardIn, ih]

theorem filterMap_told_presenting (store : Store) (node : Node) :
    (Session.presenting store node).filterMap Signal.told? = Session.presentation store node := by
  unfold Session.presenting Session.presentation
  split
  · rfl
  · rfl

end Beat

/-! ## Performing beats -/

namespace Session

variable {σ ε : Type} {host : Host σ ε}

/-- Performs a beat. -/
def performBeat (host : Host σ ε) (beat : Beat) : Act σ ε Unit := do
  let session ← Act.session
  sendThen host (beat.signals session) beat.apply

/-- Performs beats in order. -/
def performBeats (host : Host σ ε) : List Beat → Act σ ε Unit
  | [] => pure ()
  | beat :: beats => do
    performBeat host beat
    performBeats host beats

theorem performBeats_append (first second : List Beat) :
    performBeats host (first ++ second) =
      (performBeats host first >>= fun _ => performBeats host second) := by
  induction first with
  | nil => simp [performBeats]
  | cons beat first ih => simp [performBeats, ih, bind_assoc]

section Aloof

variable {world world' : World σ}

/-- What signals do to the session and to the record of the handler. -/
theorem sendAll_heard {heard : σ → List (Notice × Store)} (hhost : host.Aloof)
    (hheard : host.Records heard) {signals : List Signal}
    (hon : (sendAll host signals).on world = (.ok (), world')) :
    heard world'.rest.host = heard world.rest.host ++
      (signals.filterMap Signal.told?).map (·, world.rest.session.store) := by
  induction signals generalizing world with
  | nil =>
    cases hon
    simp
  | cons signal signals ih =>
    have hsession := send_session hhost signal world
    have hsent := send_heard hheard signal world
    rw [sendAll, Act.on_bind] at hon
    split at hon
    · next hfirst =>
      rw [hfirst] at hsession hsent
      rw [ih hon, hsent, hsession, List.filterMap_cons]
      cases htold : signal.told? <;> simp
    · cases hon

theorem sendAll_calm {calm : Bus Notice.Kind String Notice → σ → Prop} (hhost : host.Quiet calm)
    (signals : List Signal) (hcalm : calm world.bus world.rest.host) :
    ∃ world', (sendAll host signals).on world = (.ok (), world') ∧
      calm world'.bus world'.rest.host := by
  induction signals generalizing world with
  | nil => exact ⟨world, rfl, hcalm⟩
  | cons signal signals ih =>
    obtain ⟨hok, hkept⟩ := send_calm hhost signal hcalm
    rcases hsent : (send host signal).on world with ⟨result, world₁⟩
    rw [hsent] at hok hkept
    cases hok
    rw [sendAll, Act.on_bind, hsent]
    exact ih hkept

theorem performBeat_on (hhost : host.Aloof) (beat : Beat) (world : World σ) :
    (performBeat host beat).on world =
      match (sendAll host (beat.signals world.rest.session)).on world with
      | (.ok (), world') => (.ok (), World.setSession world' (beat.apply world.rest.session))
      | (.error fault, world') => (.error fault, world') := by
  have hsession := sendAll_session hhost (beat.signals world.rest.session) world
  rw [performBeat, Act.on_bind, Act.on_session]
  dsimp only
  rw [sendThen, Act.on_bind]
  split
  · next hon =>
    rw [hon] at hsession ⊢
    rw [Act.on_modifySession, hsession]
  · next hon => rw [hon]

/-- A beat that succeeds changes the session as it should. -/
theorem performBeat_ok (hhost : host.Aloof) {beat : Beat}
    (hon : (performBeat host beat).on world = (.ok (), world')) :
    world'.rest.session = beat.apply world.rest.session := by
  rw [performBeat_on hhost] at hon
  split at hon
  · cases hon
    rfl
  · cases hon

/-- A beat that fails leaves the session alone. -/
theorem performBeat_error (hhost : host.Aloof) {beat : Beat} {fault : Fault ε}
    (hon : (performBeat host beat).on world = (.error fault, world')) :
    world'.rest.session = world.rest.session := by
  have hsession := sendAll_session hhost (beat.signals world.rest.session) world
  rw [performBeat_on hhost] at hon
  split at hon
  · cases hon
  · next hsent =>
    cases hon
    rw [hsent] at hsession
    exact hsession

/-- Beats that succeed change the session as `replay` says. -/
theorem performBeats_ok (hhost : host.Aloof) {beats : List Beat}
    (hon : (performBeats host beats).on world = (.ok (), world')) :
    world'.rest.session = Beat.replay world.rest.session beats := by
  induction beats generalizing world with
  | nil =>
    cases hon
    rfl
  | cons beat beats ih =>
    rw [performBeats, Act.on_bind] at hon
    split at hon
    · next hfirst => rw [ih hon, performBeat_ok hhost hfirst, Beat.replay_cons]
    · cases hon

/-- Beats that fail leave the session as the beats before the failure have made it. -/
theorem performBeats_error (hhost : host.Aloof) {beats : List Beat} {fault : Fault ε}
    (hon : (performBeats host beats).on world = (.error fault, world')) :
    ∃ done, done <+: beats ∧ world'.rest.session = Beat.replay world.rest.session done := by
  induction beats generalizing world with
  | nil => cases hon
  | cons beat beats ih =>
    rw [performBeats, Act.on_bind] at hon
    split at hon
    · next hfirst =>
      obtain ⟨done, hdone, hsession⟩ := ih hon
      refine ⟨beat :: done, by simpa using hdone, ?_⟩
      rw [hsession, performBeat_ok hhost hfirst, Beat.replay_cons]
    · next hfirst =>
      cases hon
      exact ⟨[], List.nil_prefix, performBeat_error hhost hfirst⟩

/-- The record of the handler after beats. -/
theorem performBeats_heard {heard : σ → List (Notice × Store)} (hhost : host.Aloof)
    (hheard : host.Records heard) {beats : List Beat}
    (hon : (performBeats host beats).on world = (.ok (), world')) :
    heard world'.rest.host =
      heard world.rest.host ++ Beat.heardIn world.rest.session beats := by
  induction beats generalizing world with
  | nil =>
    cases hon
    simp [Beat.heardIn]
  | cons beat beats ih =>
    rw [performBeats, Act.on_bind] at hon
    split at hon
    · next world₁ hfirst =>
      have hsession := performBeat_ok hhost hfirst
      have hbeat : heard world₁.rest.host = heard world.rest.host ++
          (beat.told world.rest.session).map (·, world.rest.session.store) := by
        rw [performBeat_on hhost] at hfirst
        split at hfirst
        · next hsent =>
          have hsignals := sendAll_heard hhost hheard hsent
          cases hfirst
          exact hsignals
        · cases hfirst
      rw [ih hon, hbeat, hsession, Beat.heardIn, List.append_assoc]
    · cases hon

/-- In front of a quiet host, all beats are performed. -/
theorem performBeats_calm {calm : Bus Notice.Kind String Notice → σ → Prop}
    (hhost : host.Quiet calm) (beats : List Beat) (hcalm : calm world.bus world.rest.host) :
    ∃ world', (performBeats host beats).on world = (.ok (), world') ∧
      calm world'.bus world'.rest.host := by
  induction beats generalizing world with
  | nil => exact ⟨world, rfl, hcalm⟩
  | cons beat beats ih =>
    obtain ⟨world₁, hsent, hkept⟩ := sendAll_calm hhost (beat.signals world.rest.session) hcalm
    have hfirst := performBeat_on hhost.toAloof beat world
    rw [hsent] at hfirst
    rw [performBeats, Act.on_bind, hfirst]
    exact ih hkept

end Aloof

end Session

end Colloquy
