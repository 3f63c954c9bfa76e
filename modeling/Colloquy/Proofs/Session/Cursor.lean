import Colloquy.Proofs.Session.Departure
import Colloquy.Proofs.Session.Performance

/-!
# The cursor

Between two moves, a session is either idle at its first node, or it shows the node at its place
in the bound graph; if that node offers choices, its commands have been started. No jump is under
way. This holds in every state that moves lead to, also when the host has failed in the middle of
a move (`cursor_of_reached`).

A host can fail at any signal, so the invariant must survive every single beat
(`Fits.sound_apply`). Beats of a move all fit the session that they meet, and they end as many
jumps as they begin (`Orderly`).
-/

namespace Colloquy

/-- A beat that may come next in a session during a move. -/
def Beat.Fits (session : Session) : Beat → Prop
  | .called _ => False
  | .begun => session.current.isSome
  | .entered index placed _ => session.staging.bind (·.at? index) = some placed
  | _ => True

/-- Beats that may come next, one after the other. -/
def Beat.Fit (session : Session) : List Beat → Prop
  | [] => True
  | beat :: beats => beat.Fits session ∧ Fit (beat.apply session) beats

namespace Session

variable {session : Session}

theorem Fresh.settled (h : session.Fresh) : session.Settled := by
  obtain ⟨staging, store, rfl⟩ := h
  exact ⟨.inl ⟨rfl, rfl, rfl⟩, rfl⟩

theorem Idle.rewound (session : Session) : (rewound session).Idle :=
  ⟨rfl, rfl, rfl⟩

theorem Sound.withPending (h : session.Sound) (pending : Nat) :
    Session.Sound { session with pending } := by
  rcases h with hidle | ⟨staging, placed, hactive⟩
  · exact .inl ⟨hidle.current, hidle.index, hidle.hasRun⟩
  · exact .inr ⟨staging, placed, hactive.bound, hactive.current, hactive.place, hactive.hasRun⟩

end Session

namespace Beat

variable {session : Session}

theorem Fits.staging_apply {beat : Beat} (hfits : beat.Fits session) :
    (beat.apply session).staging = session.staging := by
  cases beat with
  | called move => exact hfits.elim
  | _ => rfl

/-- What a beat within a move does, a session that is idle or shows a node survives. -/
theorem Fits.sound_apply {beat : Beat} (hfits : beat.Fits session) (hsound : session.Sound) :
    (beat.apply session).Sound := by
  cases beat with
  | called move => exact hfits.elim
  | begun =>
    rcases hsound with hidle | ⟨staging, placed, hactive⟩
    · simp [Fits, hidle.current] at hfits
    · exact .inr ⟨staging, placed, hactive.bound, hactive.current, hactive.place, fun _ => rfl⟩
  | entered index placed again =>
    obtain ⟨staging, hbound, hplace⟩ := Option.bind_eq_some_iff.1 hfits
    refine .inr ⟨staging, placed, hbound, rfl, hplace, fun hchoices => ?_⟩
    simp [Beat.apply, hchoices]
  | ran command => exact hsound.keepStore _
  | leapt => exact hsound.withPending _
  | landed => exact hsound.withPending _
  | finished => exact .inl (Session.Idle.rewound session)
  | missed tag => exact hsound
  | tripped tag => exact hsound
  | shown node => exact hsound
  | unasked => exact hsound

theorem Fit.append {first second : List Beat} (hfirst : Fit session first)
    (hsecond : Fit (replay session first) second) : Fit session (first ++ second) := by
  induction first generalizing session with
  | nil => exact hsecond
  | cons beat first ih => exact ⟨hfirst.1, ih hfirst.2 hsecond⟩

theorem Fit.of_prefix {done beats : List Beat} (hfit : Fit session beats) (hdone : done <+: beats) :
    Fit session done := by
  induction done generalizing session beats with
  | nil => trivial
  | cons beat done ih =>
    obtain ⟨rest, rfl⟩ := hdone
    exact ⟨hfit.1, ih hfit.2 (List.prefix_append done rest)⟩

theorem Fit.sound_replay {beats : List Beat} (hfit : Fit session beats) (hsound : session.Sound) :
    (replay session beats).Sound := by
  induction beats generalizing session with
  | nil => exact hsound
  | cons beat beats ih => exact ih hfit.2 (hfit.1.sound_apply hsound)

theorem fit_of_asides {beats : List Beat} (h : ∀ beat ∈ beats, beat.Aside) : Fit session beats := by
  induction beats generalizing session with
  | nil => trivial
  | cons beat beats ih =>
    refine ⟨?_, ih fun other hother => h other (List.mem_cons_of_mem _ hother)⟩
    have hbeat := h beat List.mem_cons_self
    cases beat <;> trivial

end Beat

/-! ## Orderly courses -/

/-- Beats that may come next, that leave the graph bound, and that end as many jumps as they
begin. -/
structure Orderly (session : Session) (beats : List Beat) : Prop where
  fit : Beat.Fit session beats
  staging : (Beat.replay session beats).staging = session.staging
  pending : (Beat.replay session beats).pending = session.pending

namespace Orderly

open Course

variable {session : Session} {staging : Staging} {first second : List Beat}

theorem nil : Orderly session [] := ⟨trivial, rfl, rfl⟩

/-- A beat that neither begins nor ends a jump. -/
theorem single {beat : Beat} (hfits : beat.Fits session)
    (hpending : (beat.apply session).pending = session.pending) : Orderly session [beat] :=
  ⟨⟨hfits, trivial⟩, hfits.staging_apply, hpending⟩

theorem append (hfirst : Orderly session first)
    (hsecond : Orderly (Beat.replay session first) second) : Orderly session (first ++ second) := by
  refine ⟨hfirst.fit.append hsecond.fit, ?_, ?_⟩
  · rw [Beat.replay_append, hsecond.staging, hfirst.staging]
  · rw [Beat.replay_append, hsecond.pending, hfirst.pending]

/-- Asides come before anything that may come next in the session that they leave. -/
theorem asides_append (graph : Graph) (list : List Command) (session : Session) {rest : List Beat}
    (hrest : Orderly (Session.keepStore (Sweep.of graph list session.store).store session) rest) :
    Orderly session (asides graph list session.store ++ rest) := by
  have hreplay := replay_asides graph list session
  refine append ⟨Beat.fit_of_asides (aside_of_mem_asides graph list session.store), ?_, ?_⟩ ?_
  · rw [hreplay]
    rfl
  · rw [hreplay]
    rfl
  · rw [hreplay]
    exact hrest

/-- Jumps are orderly in sessions that the graph is bound to. -/
def Leaps (staging : Staging) (leap : String → Nat → Session → List Beat) : Prop :=
  ∀ tag index session, session.staging = some staging → Orderly session (leap tag index session)

variable {leap : String → Nat → Session → List Beat}

theorem leaving (hleap : Leaps staging leap) (hbound : session.staging = some staging)
    (exit : Exit) :
    Orderly session (leaving leap session exit) := by
  cases exit with
  | close => exact single trivial rfl
  | toward tag index => exact hleap tag index session hbound

theorem entering (hleap : Leaps staging leap) (hbound : session.staging = some staging)
    (index : Nat) (again : Bool) : Orderly session (entering staging leap index again session) := by
  cases hplace : staging.at? index with
  | none =>
    rw [Course.entering, hplace]
    exact nil
  | some placed =>
    have hentered : Orderly session [.entered index placed again] :=
      single (by rw [Beat.Fits, hbound]; exact hplace) rfl
    cases hruns : placed.node.hasChoices && ! (again && session.hasRun) with
    | false =>
      rw [entering_of_not_runs hplace hruns]
      exact hentered.append (single trivial rfl)
    | true =>
      rw [entering_of_runs hplace hruns]
      refine hentered.append (asides_append staging.graph placed.node.commands _ ?_)
      cases (Sweep.of staging.graph placed.node.commands session.store).exit? with
      | none => exact single trivial rfl
      | some exit => exact leaving hleap (by exact hbound) exit

theorem leaping (staging : Staging) (left : Nat) : Leaps staging (leaping staging left) := by
  induction left with
  | zero =>
    intro tag index session hbound
    have htripped : Orderly session [.tripped tag] := single trivial rfl
    exact htripped.append (single trivial rfl)
  | succ left ih =>
    intro tag index session hbound
    have hbegun : (Beat.leapt.apply session).staging = some staging := hbound
    have henter := entering ih hbegun index false
    refine ⟨?_, ?_, ?_⟩
    · exact ⟨trivial, henter.fit.append ⟨trivial, trivial⟩⟩
    · rw [Course.leaping, List.cons_append, Beat.replay_cons, Beat.replay_append]
      exact henter.staging
    · rw [Course.leaping, List.cons_append, Beat.replay_cons, Beat.replay_append]
      exact congrArg (· - 1) henter.pending

theorem enter (hbound : session.staging = some staging) (index : Nat) (again : Bool) :
    Orderly session (enter staging index again session) := by
  rw [enter_eq]
  exact entering (leaping staging _) hbound index again

theorem inGraph {beats : Staging → List Beat}
    (hbeats : ∀ staging, session.staging = some staging → Orderly session (beats staging)) :
    Orderly session (inGraph session beats) := by
  rw [Course.inGraph]
  split
  · exact nil
  · next staging hbound => exact hbeats staging hbound

theorem departure (session : Session) (departure : Departure) :
    Orderly session (departure.beats session) := by
  cases departure with
  | rests => exact nil
  | misses tag => exact single trivial rfl
  | unasked => exact single trivial rfl
  | ends => exact single trivial rfl
  | enters index => exact inGraph fun staging hbound => enter hbound index false
  | reshows =>
    refine inGraph fun staging hbound => ?_
    split
    · exact enter hbound session.index true
    · exact nil
  | leaps tag index =>
    exact inGraph fun staging hbound => leaping staging _ tag index session hbound

theorem prelude (session : Session) (move : Move) : Orderly session (move.prelude session) := by
  rw [Move.prelude]
  cases hstarts : move.starts? session with
  | none => exact nil
  | some start =>
    obtain ⟨staging, placed⟩ := start
    have hcurrent := (Move.starts?_eq_some hstarts).2.1
    have hbegun : Orderly session [.begun] :=
      single (Option.isSome_of_mem hcurrent) rfl
    have hasides := asides_append staging.graph placed.node.commands (Beat.begun.apply session) nil
    rw [List.append_nil] at hasides
    exact hbegun.append hasides

theorem sequel (session : Session) (move : Move) : Orderly session (move.sequel session) := by
  rw [Move.sequel_eq]
  exact (prelude session move).append (departure _ _)

end Orderly

/-! ## Moves -/

namespace Move

variable {session : Session}

theorem sound_opening (move : Move) (hsound : session.Sound) : (move.opening session).Sound := by
  cases move with
  | bind staging forget => cases forget <;> exact .inl ⟨rfl, rfl, rfl⟩
  | reset forget => cases forget <;> exact .inl ⟨rfl, rfl, rfl⟩
  | setVariable name offer =>
    rw [opening]
    split
    · exact hsound.keepStore _
    · exact hsound
  | removeVariable name => exact hsound.keepStore _
  | restore data palette =>
    rw [opening, Session.restore]
    cases Session.variablesOf data palette with
    | error defect => exact hsound
    | ok store => exact .inl ⟨rfl, rfl, rfl⟩
  | _ => exact hsound

theorem pending_opening (move : Move) (session : Session) :
    (move.opening session).pending = session.pending := by
  cases move with
  | bind staging forget => cases forget <;> rfl
  | reset forget => cases forget <;> rfl
  | setVariable name offer =>
    rw [opening]
    split <;> rfl
  | restore data palette =>
    rw [opening, Session.restore]
    cases Session.variablesOf data palette <;> rfl
  | _ => rfl

/-- Wherever a move is cut short, the session is idle or shows the node at its place. -/
theorem sound_of_prefix (move : Move) (hsound : session.Sound) {done : List Beat}
    (hdone : done <+: move.beats session) : (Beat.replay session done).Sound := by
  rcases List.prefix_cons_iff.1 hdone with rfl | ⟨inside, rfl, hinside⟩
  · exact hsound
  · have horderly := Orderly.sequel (move.opening session) move
    exact (horderly.fit.of_prefix hinside).sound_replay (move.sound_opening hsound)

/-- A whole move ends as many jumps as it begins. -/
theorem pending_beats (move : Move) (session : Session) :
    (Beat.replay session (move.beats session)).pending = session.pending :=
  (Orderly.sequel (move.opening session) move).pending.trans (move.pending_opening session)

theorem settled_beats (move : Move) (h : session.Settled) :
    (Beat.replay session (move.beats session)).Settled :=
  ⟨move.sound_of_prefix h.sound List.prefix_rfl, (move.pending_beats session).trans h.pending⟩

end Move

namespace Session

variable {σ ε : Type} {host : Host σ ε}

theorem Settled.withPending_zero {session : Session} (h : session.Settled) :
    { session with pending := 0 } = session := by
  rw [← h.pending]

/-- A move performs some of its first beats, and all jumps that it has begun are ended. -/
theorem perform_prefix (hhost : host.Aloof) (move : Move) {world : World σ}
    (h : world.rest.session.Settled) :
    ∃ done, done <+: move.beats world.rest.session ∧ (move.perform host world).2.rest.session =
      { Beat.replay world.rest.session done with pending := 0 } := by
  rw [performs hhost move h.sound]
  cases (move.refusal? world.rest.session : Option (Setback ε)) with
  | some setback => exact ⟨[], List.nil_prefix, h.withPending_zero.symm⟩
  | none =>
    rw [performCourse]
    rcases hon : (performBeats host (move.beats world.rest.session)).on world with
      ⟨fault | done, world'⟩
    · obtain ⟨done, hdone, hsession⟩ := performBeats_error hhost hon
      refine ⟨done, hdone, ?_⟩
      rw [← hsession, ← h.pending]
      rfl
    · refine ⟨_, List.prefix_rfl, ?_⟩
      rw [(move.settled_beats h).withPending_zero]
      exact performBeats_ok hhost hon

/-- Between two moves, a session is idle or shows the node at its place, whether the last move
failed or not. -/
theorem settled_perform (hhost : host.Aloof) (move : Move) {world : World σ}
    (h : world.rest.session.Settled) : (move.perform host world).2.rest.session.Settled := by
  obtain ⟨done, hdone, hsession⟩ := perform_prefix hhost move h
  rw [hsession]
  exact ⟨(move.sound_of_prefix h.sound hdone).withPending 0, rfl⟩

end Session

theorem Reached.settled {σ ε : Type} {world : World σ} (h : Reached ε world) :
    world.rest.session.Settled := by
  induction h with
  | fresh hfresh => exact hfresh.settled
  | move move hhost _ ih => exact Session.settled_perform hhost move ih
  | elsewhere hsame _ ih =>
    rw [hsame]
    exact ih

/-- In every state that moves lead to, no jump is under way. Either nothing is on screen and the
session is at its first node, or the node on screen is the one at its place in the bound graph. -/
theorem cursor_of_reached {σ ε : Type} {world : World σ} (h : Reached ε world) :
    let session := world.rest.session
    session.pending = 0 ∧
      (session.current = none ∧ session.index = 0 ∧ session.hasRun = false ∨
        ∃ staging placed, session.staging = some staging ∧ session.index < staging.graph.size ∧
          session.current = some placed ∧ staging.at? session.index = some placed ∧
          (placed.node.hasChoices = true → session.hasRun = true)) := by
  obtain ⟨hsound, hpending⟩ := h.settled
  refine ⟨hpending, ?_⟩
  rcases hsound with hidle | ⟨staging, placed, hactive⟩
  · exact .inl ⟨hidle.current, hidle.index, hidle.hasRun⟩
  · exact .inr ⟨staging, placed, hactive.bound, Staging.lt_size_of_at? hactive.place,
      hactive.current, hactive.place, hactive.hasRun⟩

/-- The host fails when the second node offers its choices, to which the first one has jumped. -/
theorem cursor_of_reached_failing :
    let graph : Graph := ⟨[
      { tag := "a", commands := [⟨"jump", some "b"⟩], choices := [⟨"On", "b"⟩] },
      { tag := "b", choices := [⟨"Back", "a"⟩] }], by decide⟩
    let host : Host Unit Unit :=
      { handle := fun notice => if notice.kind = .choices then throw (.host ()) else pure ()
        listen := fun _ _ world => ⟨world, false, false⟩ }
    let world : World Unit :=
      { bus := {}, rest := { session := { staging := some (.ofGraph graph) }, host := () } }
    let outcome := Move.start.perform host world
    let session := outcome.2.rest.session
    outcome.1.isOk = false ∧ session.index = 1 ∧ session.pending = 0 ∧
      ∃ staging placed, session.staging = some staging ∧ session.current = some placed ∧
        staging.at? session.index = some placed := by
  intro graph host world outcome session
  have haloof : host.Aloof := by
    refine ⟨fun notice world => ?_, fun _ _ _ => rfl⟩
    cases notice <;> rfl
  have hreached : Reached Unit outcome.2 := .move .start haloof (.fresh ⟨_, _, rfl⟩)
  have hindex : session.index = 1 := by decide +kernel
  obtain ⟨hpending, hcursor⟩ := cursor_of_reached hreached
  refine ⟨by decide +kernel, hindex, hpending, ?_⟩
  rcases hcursor with ⟨_, hzero, _⟩ | ⟨staging, placed, hbound, _, hcurrent, hplace, _⟩
  · exact absurd (hindex.symm.trans hzero) (by decide)
  · exact ⟨staging, placed, hbound, hcurrent, hplace⟩

end Colloquy
