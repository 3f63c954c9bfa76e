import Colloquy.Proofs.Session.Refusals
import Colloquy.Proofs.Session.Visits

/-!
# Waiting for a choice

A node with choices stays on screen until it is left on purpose. Going on runs the commands of the
node on screen before it looks at its choices, so it does nothing only because no state that moves
lead to has an open choice whose commands have not been started (`Session.Active.hasRun`). From
there on, going on does nothing in front of any host at all (`Session.next_waiting`).

`Beat.Holds` says of one beat that it leaves a node on screen. A move that may leave a node with
choices is one that `Releases` it; every other move consists of beats that hold it
(`Move.holds_beats`), so it stays wherever the host cuts the move short (`choice_holds`).
-/

namespace Colloquy

/-- A move that may take a node with choices off the screen. -/
inductive Move.Releases : Move → Prop
  | select (index : Int) : Releases (.select index)
  | jump (tag : String) : Releases (.jump tag)
  | jumpTo (index : Int) : Releases (.jumpTo index)
  | start : Releases .start
  | stop : Releases .stop
  | reset (forget : Bool) : Releases (.reset forget)
  | bind (staging : Staging) (forget : Bool) : Releases (.bind staging forget)
  | restore (data : Json) (palette : Value.Palette) : Releases (.restore data palette)

/-! ## Beats that hold a node -/

namespace Beat

variable {session : Session} {placed : Placed}

/-- A beat leaves the node on screen, or shows it again. -/
def Holds (placed : Placed) : Beat → Prop
  | .called move => move.rewinds = false
  | .entered _ other _ => other = placed
  | .finished => False
  | _ => True

theorem Holds.current_apply {beat : Beat} (h : beat.Holds placed)
    (hcurrent : session.current = some placed) : (beat.apply session).current = some placed := by
  cases beat with
  | called move =>
    obtain ⟨store, hopening⟩ := move.exists_keepStore_opening h session
    show (move.opening session).current = some placed
    rw [hopening]
    exact hcurrent
  | entered index other again => exact congrArg some h
  | finished => exact h.elim
  | _ => exact hcurrent

theorem current_replay_of_holds {beats : List Beat} (h : ∀ beat ∈ beats, beat.Holds placed)
    (hcurrent : session.current = some placed) : (replay session beats).current = some placed := by
  induction beats generalizing session with
  | nil => exact hcurrent
  | cons beat beats ih =>
    obtain ⟨hbeat, hbeats⟩ := List.forall_mem_cons.1 h
    exact ih hbeats (hbeat.current_apply hcurrent)

end Beat

section Moves

variable {session : Session} {staging : Staging} {placed : Placed}

theorem Course.holds_reloading (hactive : session.Active staging placed) :
    ∀ beat ∈ reloading session, beat.Holds placed := by
  rw [reloading_eq (.inr ⟨staging, placed, hactive⟩), hactive.current, Option.elim_some]
  exact List.forall_mem_cons.2 ⟨rfl, List.forall_mem_singleton.2 trivial⟩

/-- While a choice is open, going on comes to nothing. -/
theorem Course.going_eq_nil (hactive : session.Active staging placed)
    (hchoices : placed.node.hasChoices = true) (wrap : Bool) : going staging wrap session = [] := by
  have hpending : pending staging placed session = ([], false) := by
    rw [pending, if_pos (hactive.hasRun hchoices)]
  simp only [going, hactive.current, hpending, hchoices, Bool.or_true, if_true, List.append_nil]

/-- While a choice is open, moves that do not release it hold it. -/
theorem Move.holds_beats {move : Move} (hactive : session.Active staging placed)
    (hchoices : placed.node.hasChoices = true) (hmove : ¬ move.Releases) :
    ∀ beat ∈ move.beats session, beat.Holds placed := by
  rw [beats]
  cases move with
  | next wrap =>
    refine List.forall_mem_cons.2 ⟨rfl, ?_⟩
    show ∀ beat ∈ Course.inGraph session fun staging => Course.going staging wrap session, _
    rw [Course.inGraph, hactive.bound]
    dsimp only
    rw [Course.going_eq_nil hactive hchoices wrap]
    exact List.forall_mem_nil _
  | reload => exact List.forall_mem_cons.2 ⟨rfl, Course.holds_reloading hactive⟩
  | setVariable name offer =>
    refine List.forall_mem_cons.2 ⟨rfl, ?_⟩
    rw [sequel, opening]
    cases offer.take with
    | error refusal => exact List.forall_mem_nil _
    | ok value => exact Course.holds_reloading (hactive.keepStore _)
  | removeVariable name => exact List.forall_mem_cons.2 ⟨rfl, List.forall_mem_nil _⟩
  | select index => exact (hmove (.select index)).elim
  | jump tag => exact (hmove (.jump tag)).elim
  | jumpTo index => exact (hmove (.jumpTo index)).elim
  | start => exact (hmove .start).elim
  | stop => exact (hmove .stop).elim
  | reset forget => exact (hmove (.reset forget)).elim
  | bind staging forget => exact (hmove (.bind staging forget)).elim
  | restore data palette => exact (hmove (.restore data palette)).elim

end Moves

/-! ## Actions -/

namespace Session

variable {σ ε : Type} {world : World σ} {placed : Placed}

/-- Commands that have been started do not run again. This holds of every host. -/
theorem runPending_started (host : Host σ ε) (jump : String → Act σ ε Bool)
    (hcurrent : world.rest.session.current = some placed)
    (hrun : world.rest.session.hasRun = true) :
    (runPending host jump).on world = (.ok false, world) := by
  rw [runPending, Act.on_bind, Act.on_session]
  dsimp only
  rw [hcurrent]
  dsimp only
  rw [hrun, if_pos rfl, Act.on_pure]

/-- While a choice is open, going on does nothing. This holds of every host. -/
theorem next_waiting (host : Host σ ε) {staging : Staging}
    (hactive : world.rest.session.Active staging placed) (hchoices : placed.node.hasChoices = true)
    (wrap : Bool) : (Move.next wrap).perform host world = (.ok (), world) := by
  have hpending : (runPending host (jumpNow host)).on world = (.ok false, world) :=
    runPending_started host _ hactive.current (hactive.hasRun hchoices)
  have hnext : (next host wrap).on world = (.ok (), world) := by
    rw [next, Act.on_bind, on_bound hactive.bound]
    dsimp only
    rw [Act.on_bind, Act.on_session]
    dsimp only
    rw [hactive.current]
    dsimp only
    rw [Act.on_bind, hpending]
    dsimp only
    rw [if_neg Bool.false_ne_true, Act.on_bind, Act.on_session]
    dsimp only
    rw [hactive.current]
    dsimp only
    rw [hchoices, if_pos rfl, Act.on_pure]
  rw [Move.perform, Move.played, hnext]
  rfl

/-- However often the player goes on. -/
theorem performAll_waiting (host : Host σ ε) {staging : Staging}
    (hactive : world.rest.session.Active staging placed) (hchoices : placed.node.hasChoices = true)
    (wraps : List Bool) : Move.performAll host (wraps.map Move.next) world = world := by
  induction wraps with
  | nil => rfl
  | cons wrap wraps ih =>
    rw [List.map_cons, Move.performAll, List.foldl_cons, next_waiting host hactive hchoices]
    exact ih

/-- A move that does not release a node with choices leaves it on screen, whether the host fails
or not. -/
theorem current_perform {host : Host σ ε} (hhost : host.Aloof)
    (hsettled : world.rest.session.Settled) (hcurrent : world.rest.session.current = some placed)
    (hchoices : placed.node.hasChoices = true) {move : Move} (hmove : ¬ move.Releases) :
    (move.perform host world).2.rest.session.current = some placed := by
  obtain ⟨staging, hactive⟩ := hsettled.sound.exists_active hcurrent
  obtain ⟨done, hdone, hsession⟩ := perform_prefix hhost move hsettled
  have hholds : ∀ beat ∈ done, beat.Holds placed := by
    intro beat hbeat
    exact Move.holds_beats hactive hchoices hmove beat (hdone.subset hbeat)
  rw [hsession]
  exact Beat.current_replay_of_holds hholds hcurrent

end Session

/-- In every state that moves lead to, a node with choices holds the session. Going on succeeds
and leaves the whole state as it is, the log and the host's own state included, however often it
is tried and whatever the host would do if it were told of anything. And a move after which the
node is not on screen is one that releases it, whether the host has failed on the way or not. -/
theorem choice_holds {σ ε : Type} {world : World σ} (hreached : Reached ε world) {placed : Placed}
    (hcurrent : world.rest.session.current = some placed) (hchoices : placed.node.choices ≠ []) :
    (∀ (host : Host σ ε) (wrap : Bool), (Move.next wrap).perform host world = (.ok (), world)) ∧
      (∀ (host : Host σ ε) (wraps : List Bool),
        Move.performAll host (wraps.map Move.next) world = world) ∧
      ∀ (host : Host σ ε) (move : Move), host.Aloof →
        (move.perform host world).2.rest.session.current ≠ some placed → move.Releases := by
  have hsettled := hreached.settled
  obtain ⟨staging, hactive⟩ := hsettled.sound.exists_active hcurrent
  have hopen := Node.hasChoices_iff.2 hchoices
  refine ⟨fun host wrap => Session.next_waiting host hactive hopen wrap,
    fun host wraps => Session.performAll_waiting host hactive hopen wraps, ?_⟩
  intro host move hhost hgone
  by_cases hmove : move.Releases
  · exact hmove
  · exact (hgone (Session.current_perform hhost hsettled hcurrent hopen hmove)).elim

/-- The host fails whenever choices are offered. The node that a command has jumped to stays on
screen, though it has a command of its own and its choices were never shown. -/
theorem choice_holds_failing :
    let graph : Graph := ⟨[
      { tag := "a", commands := [⟨"jump", some "b"⟩], choices := [⟨"On", "b"⟩] },
      { tag := "b", commands := [⟨"flag", some "seen"⟩], choices := [⟨"Back", "a"⟩] }], by decide⟩
    let host : Host Unit Unit :=
      { handle := fun notice => if notice.kind = .choices then throw (.host ()) else pure ()
        listen := fun _ _ world => ⟨world, false, false⟩ }
    let fresh : World Unit :=
      { bus := {}, rest := { session := { staging := some (.ofGraph graph) }, host := () } }
    let world := (Move.start.perform host fresh).2
    (Move.start.perform host fresh).1.isOk = false ∧
      (Move.next true).perform host world = (.ok (), world) ∧
      Move.performAll host [.next false, .next true, .next false] world = world ∧
      (Move.reload.perform host world).1.isOk = false ∧
      (Move.reload.perform host world).2.rest.session.current = world.rest.session.current := by
  intro graph host fresh world
  have haloof : host.Aloof := by
    refine ⟨fun notice world => ?_, fun _ _ _ => rfl⟩
    cases notice <;> rfl
  have hreached : Reached Unit world := .move .start haloof (.fresh ⟨_, _, rfl⟩)
  have hcurrent : world.rest.session.current = some ⟨graph.nodes[1], 1⟩ := by decide +kernel
  obtain ⟨hnext, hagain, hreleases⟩ := choice_holds hreached hcurrent (by decide)
  refine ⟨by decide +kernel, hnext host true, hagain host [false, true, false],
    by decide +kernel, ?_⟩
  rw [hcurrent]
  refine Classical.byContradiction fun hgone => ?_
  cases hreleases host .reload haloof hgone

end Colloquy
