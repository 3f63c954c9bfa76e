import Colloquy.Proofs.Session.Journal

/-!
# Hosts that answer a command

A host may answer when it is told to carry out a command, and its answer may do anything with the
session. Such a host is not aloof. But as long as it is not told of that command, it is like the
host without the answer: `commandJump_answering` says so of jumps, `enter_answering` of entering a
node and `runList_answering` of running commands. What matters is not which commands a node has,
but which ones have their turn, so that all of this is about the beats (`Beat.Without`).
-/

namespace Colloquy

variable {σ ε : Type}

/-- The host that also answers when it is told to carry out a command. -/
def Host.answering (host : Host σ ε) (trigger : Command) (answer : Act σ ε Unit) : Host σ ε where
  handle notice := do
    host.handle notice
    if notice = .command trigger then answer
  listen := host.listen
  patience := host.patience

/-- A command that means nothing to a session, which hands it on to the host. -/
def Command.Foreign (command : Command) : Prop :=
  ∀ store, command.work store = .plain [.tell (.command command), .publish (.command command)] store

theorem Command.Foreign.turn {command : Command} (h : command.Foreign) (graph : Graph)
    (store : Store) :
    command.turn graph store = .stays := by
  rw [Command.turn, h store]

/-- Beats in which a command does not run. -/
def Beat.Without (command : Command) (beats : List Beat) : Prop :=
  .ran command ∉ beats

namespace Session

variable {host : Host σ ε} {trigger : Command} {answer : Act σ ε Unit}

/-! ## What such hosts do not answer -/

theorem tell_answering {notice : Notice} (h : notice ≠ .command trigger) :
    tell (host.answering trigger answer) notice = tell host notice := by
  simp [tell, Host.answering, h]

theorem publish_answering (notice : Notice) :
    publish (host.answering trigger answer) notice = publish host notice := rfl

theorem complete_answering : complete (host.answering trigger answer) = complete host := by
  rw [complete, tell_answering (by simp), publish_answering]
  rfl

theorem present_answering (node : Node) :
    present (host.answering trigger answer) node = present host node := by
  simp only [present, publish_answering, tell_answering, ne_eq, reduceCtorEq, not_false_eq_true]

theorem runCommand_answering {command : Command} (h : command ≠ trigger)
    (jump : String → Act σ ε Bool) :
    runCommand (host.answering trigger answer) jump command = runCommand host jump command := by
  have hnotice : Notice.command command ≠ .command trigger := fun hsame => h (by cases hsame; rfl)
  unfold runCommand
  simp only [complete_answering, publish_answering, tell_answering hnotice, tell_answering, ne_eq,
    reduceCtorEq, not_false_eq_true]

/-- The answer comes after the handler has been told and before the bus has it. -/
theorem runCommand_trigger (hforeign : trigger.Foreign) (jump : String → Act σ ε Bool) :
    runCommand (host.answering trigger answer) jump trigger =
      (tell host (.command trigger) >>= fun _ => answer >>= fun _ =>
        publish host (.command trigger) >>= fun _ => pure false) := by
  have hwork := hforeign .empty
  have htell : tell (host.answering trigger answer) (.command trigger) =
      (tell host (.command trigger) >>= fun _ => answer) := by
    simp [tell, Host.answering]
  unfold runCommand
  split
  case h_15 => rw [htell, publish_answering, bind_assoc]
  -- All other names are those of commands that a session carries out itself.
  case h_3 | h_6 =>
    simp only [Command.work, *] at hwork
    split at hwork <;> cases hwork
  all_goals
    simp only [Command.work, *] at hwork
    cases hwork

/-! ## Running commands -/

theorem runList_append (jump : String → Act σ ε Bool) (first second : List Command) :
    runList host jump (first ++ second) =
      (runList host jump first >>= fun moved =>
        if moved then pure true else runList host jump second) := by
  induction first with
  | nil => simp [runList]
  | cons command first ih =>
    rw [List.cons_append, runList, runList, ih, bind_assoc]
    refine congrArg _ (funext fun moved => ?_)
    cases moved <;> simp

/-- Leaves a node as a command says. -/
def leave (host : Host σ ε) (jump : String → Act σ ε Bool) : Option Exit → Act σ ε Bool
  | none => pure false
  | some .close => complete host >>= fun _ => pure true
  | some (.toward tag _) => jump tag

section Aloof

open Course

variable {staging : Staging} {world : World σ}

/-- A jump that says so and goes nowhere if no node has the tag, and that has gone there
otherwise. -/
structure Tries (staging : Staging) (jump : String → Act σ ε Bool) : Prop where
  miss : ∀ {tag} {world : World σ}, world.rest.session.staging = some staging →
    staging.graph.indexOf? tag = none →
    (jump tag).on world = (missingTarget tag >>= fun _ => pure false).on world
  goes : ∀ {tag index} {world world' : World σ} {moved},
    world.rest.session.staging = some staging → staging.graph.indexOf? tag = some index →
    (jump tag).on world = (.ok moved, world') → moved = true

theorem eq_of_on_bind_pure {α β : Type} {act : Act σ ε β} {world world' : World σ} {a b : α}
    (h : (act >>= fun _ => pure a).on world = (.ok b, world')) : b = a := by
  rw [Act.on_bind] at h
  split at h
  · cases h
    rfl
  · cases h

/-- The jumps of every host are such. -/
theorem commandJump_tries (host : Host σ ε) (staging : Staging) (left : Nat) :
    Tries staging (commandJump host left) := by
  refine ⟨fun {tag world} hbound hindex => ?_,
    fun {tag index world world' moved} hbound hindex hon => ?_⟩
  · cases left with
    | zero => rw [commandJump, Act.on_bind, on_placeOf? hbound, hindex]
    | succ left => rw [commandJump, Act.on_bind, on_placeOf? hbound, hindex]
  · cases left with
    | zero =>
      rw [commandJump, Act.on_bind, on_placeOf? hbound, hindex] at hon
      dsimp only at hon
      rw [← bind_assoc] at hon
      exact eq_of_on_bind_pure hon
    | succ left =>
      rw [commandJump, Act.on_bind, on_placeOf? hbound, hindex] at hon
      dsimp only at hon
      rw [← bind_assoc] at hon
      exact eq_of_on_bind_pure hon

theorem jumpNow_tries (host : Host σ ε) (staging : Staging) : Tries staging (jumpNow host) := by
  refine ⟨fun {tag world} hbound hindex => ?_,
    fun {tag index world world' moved} hbound hindex hon => ?_⟩
  · rw [jumpNow, Act.on_bind, Act.on_session]
    exact (commandJump_tries host staging _).miss hbound hindex
  · rw [jumpNow, Act.on_bind, Act.on_session] at hon
    exact (commandJump_tries host staging _).goes hbound hindex hon

/-- Running commands performs their asides and then leaves the node, if a command does. It is
enough if the commands that have their turn do what they do for an aloof host. -/
theorem runList_sweeps (hhost : host.Aloof) {other : Host σ ε} {jump : String → Act σ ε Bool}
    (htries : Tries staging jump) {list : List Command}
    (hbound : world.rest.session.staging = some staging)
    (hsame : ∀ command ∈ (Sweep.of staging.graph list world.rest.session.store).ran,
      runCommand other jump command = runCommand host jump command) :
    (runList other jump list).on world =
      (performBeats host (asides staging.graph list world.rest.session.store) >>= fun _ =>
        leave host jump (Sweep.of staging.graph list world.rest.session.store).exit?).on world := by
  induction list generalizing world with
  | nil => rfl
  | cons command rest ih =>
    have hfirst : runCommand other jump command = runCommand host jump command := by
      refine hsame command ?_
      rw [Sweep.of]
      split <;> exact List.mem_cons_self
    rw [Sweep.of] at hsame
    rw [runList, Act.on_bind, hfirst, runCommand_on hhost, asides, Sweep.of]
    cases hwork : command.work world.rest.session.store with
    | plain signals store =>
      have hturn : command.turn staging.graph world.rest.session.store = .stays := by
        simp [Command.turn, hwork]
      simp only [hturn, performBeats, bind_assoc] at hsame ⊢
      rw [Act.on_bind, Act.on_bind, performBeat_ran hhost hwork]
      rcases hon : (sendThen host signals (keepStore store)).on world with ⟨fault | done, world'⟩
      · rfl
      · have hsession : world'.rest.session = (Beat.ran command).apply world.rest.session :=
          performBeat_ok hhost ((performBeat_ran hhost hwork).trans hon)
        have hrest := @ih world' (by rw [hsession]; exact hbound)
        rw [hsession] at hrest
        exact hrest fun next hnext => hsame next (List.mem_cons_of_mem _ hnext)
    | close =>
      have hturn : command.turn staging.graph world.rest.session.store = .departs .close := by
        simp [Command.turn, hwork]
      have hplain : ∀ signals store,
          command.work world.rest.session.store = .plain signals store → False := by simp [hwork]
      simp only [hturn, performBeats, bind_assoc, pure_bind, leave]
      rw [Act.on_bind (performBeat _ _), performBeat_ran_silent hhost hplain]
      dsimp only
      rw [Act.on_bind]
      rcases (complete host).on world with ⟨fault | done, world'⟩
      · rfl
      · rfl
    | jump tag =>
      have hplain : ∀ signals store,
          command.work world.rest.session.store = .plain signals store → False := by simp [hwork]
      have hran := performBeat_ran_silent hhost hplain
      cases hindex : staging.graph.indexOf? tag with
      | none =>
        have hturn : command.turn staging.graph world.rest.session.store = .misses tag := by
          simp [Command.turn, hwork, hindex]
        have hleaves : command.leaves world.rest.session.store = world.rest.session.store :=
          Command.leaves_of_turn staging.graph (by simp [hturn])
        let logged := ((missingTarget tag : Act σ ε Unit).on world).2
        simp only [hturn, hleaves, performBeats, bind_assoc] at hsame ⊢
        have hrest := @ih logged hbound fun next hnext => hsame next (List.mem_cons_of_mem _ hnext)
        rw [Act.on_bind (performBeat _ _), hran]
        dsimp only
        rw [Act.on_bind (performBeat _ _), performBeat_missed, htries.miss hbound hindex]
        exact hrest
      | some index =>
        have hturn : command.turn staging.graph world.rest.session.store =
            .departs (.toward tag index) := by
          simp [Command.turn, hwork, hindex]
        simp only [hturn, performBeats, bind_assoc, pure_bind, leave]
        rw [Act.on_bind (performBeat _ _), hran]
        dsimp only
        rcases hon : (jump tag).on world with ⟨fault | moved, world'⟩
        · rfl
        · obtain rfl := htries.goes hbound hindex hon
          rfl

/-! ## Before the command has its turn -/

theorem not_mem_ran_of_without {graph : Graph} {list : List Command} {store : Store}
    (h : Beat.Without trigger (asides graph list store)) :
    trigger ∉ (Sweep.of graph list store).ran := by
  rw [← filterMap_ran?_asides, List.mem_filterMap]
  rintro ⟨beat, hbeat, hran⟩
  cases beat with
  | ran command =>
    cases hran
    exact h hbeat
  | _ => cases hran

/-- A jump performs its beats, when as many jumps are under way and the command does not run in
them. -/
def Follows (host : Host σ ε) (staging : Staging) (trigger : Command) (left pending : Nat)
    (jump : String → Act σ ε Bool) : Prop :=
  ∀ ⦃tag index⦄ ⦃world : World σ⦄, world.rest.session.staging = some staging →
    world.rest.session.pending = pending → staging.graph.indexOf? tag = some index →
    Beat.Without trigger (leaping staging left tag index world.rest.session) →
    (jump tag).on world = settle pending true
      ((performBeats host (leaping staging left tag index world.rest.session)).on world)

variable {jump : String → Act σ ε Bool} {left : Nat}

/-- Commands perform their course, unless the host has an answer to one of them. -/
theorem runList_answering (hhost : host.Aloof) (htries : Tries staging jump)
    (hfollows : Follows host staging trigger left world.rest.session.pending jump)
    {list : List Command} (hbound : world.rest.session.staging = some staging)
    (hwithout : Beat.Without trigger
      (commands staging (leaping staging left) list world.rest.session).1) :
    (runList (host.answering trigger answer) jump list).on world =
      settle world.rest.session.pending
        (commands staging (leaping staging left) list world.rest.session).2
        ((performBeats host
          (commands staging (leaping staging left) list world.rest.session).1).on world) := by
  have hjumps := commandJump_jumps hhost staging left
  rw [commands_eq] at hwithout
  dsimp only at hwithout
  have hasides : Beat.Without trigger (asides staging.graph list world.rest.session.store) :=
    fun hmem => hwithout (List.mem_append_left _ hmem)
  have hsame : ∀ command ∈ (Sweep.of staging.graph list world.rest.session.store).ran,
      runCommand (host.answering trigger answer) jump command = runCommand host jump command := by
    refine fun command hcommand => runCommand_answering ?_ jump
    rintro rfl
    exact not_mem_ran_of_without hasides hcommand
  rw [← runList_on hhost hjumps list hbound, runList_sweeps hhost htries hbound hsame,
    runList_sweeps hhost (commandJump_tries host staging left) hbound fun _ _ => rfl,
    Act.on_bind, Act.on_bind]
  rcases hon :
      (performBeats host (asides staging.graph list world.rest.session.store)).on world with
    ⟨fault | done, world'⟩
  · rfl
  · have hsession : world'.rest.session = keepStore
        (Sweep.of staging.graph list world.rest.session.store).store world.rest.session :=
      (performBeats_ok hhost hon).trans (replay_asides staging.graph list world.rest.session)
    have hbound' : world'.rest.session.staging = some staging := by rw [hsession]; exact hbound
    have hpending : world'.rest.session.pending = world.rest.session.pending := by
      rw [hsession]; rfl
    cases hexit : (Sweep.of staging.graph list world.rest.session.store).exit? with
    | none => rfl
    | some exit =>
      cases exit with
      | close => rfl
      | toward tag index =>
        have hindex := Sweep.indexOf?_of_exit? hexit
        rw [hexit, ← hsession] at hwithout
        have hleap : Beat.Without trigger (leaping staging left tag index world'.rest.session) :=
          fun hmem => hwithout (List.mem_append_right _ hmem)
        change (jump tag).on world' = (commandJump host left tag).on world'
        rw [hfollows hbound' hpending hindex hleap, hjumps.leap hbound' hindex, hpending]

/-- A node entered anew starts its commands, if it has choices. -/
theorem enterWith_first (host : Host σ ε) (jump : String → Act σ ε Bool) {index : Nat}
    {placed : Placed} (hbound : world.rest.session.staging = some staging)
    (hplace : staging.at? index = some placed) :
    (enterWith host jump index false).on world =
      (if placed.node.hasChoices then runList host jump placed.node.commands >>= fun moved =>
          if moved then pure () else present host placed.node
        else present host placed.node).on
        (World.setSession world ((Beat.entered index placed false).apply world.rest.session)) := by
  let shown : Session :=
    { world.rest.session with
      index, current := some placed, hasRun := false && world.rest.session.hasRun }
  rw [enterWith_eq host jump false hbound hplace, Beat.apply]
  cases placed.node.hasChoices with
  | true =>
    have hcurrent : (World.setSession world shown).rest.session.current = some placed := rfl
    have hrun : (World.setSession world shown).rest.session.hasRun = false :=
      Bool.false_and world.rest.session.hasRun
    rw [if_pos rfl, if_pos rfl, Act.on_bind, Act.on_bind, runPending_eq host jump hcurrent hrun]
    simp only [World.setSession_session, shown, Beat.apply, Bool.or_true]
    rfl
  | false =>
    rw [if_neg Bool.false_ne_true, if_neg Bool.false_ne_true, pure_bind, if_neg Bool.false_ne_true,
      Bool.or_false]

/-- Entering a node performs its beats, unless the host has an answer to a command that runs. -/
theorem enterWith_answering (hhost : host.Aloof) (htries : Tries staging jump)
    (hfollows : Follows host staging trigger left world.rest.session.pending jump) {index : Nat}
    (hbound : world.rest.session.staging = some staging) (hindex : index < staging.graph.size)
    (hwithout : Beat.Without trigger
      (entering staging (leaping staging left) index false world.rest.session)) :
    (enterWith (host.answering trigger answer) jump index false).on world =
      settle world.rest.session.pending () ((performBeats host
        (entering staging (leaping staging left) index false world.rest.session)).on world) := by
  obtain ⟨placed, hplace⟩ := Staging.exists_at? hindex
  let entered := World.setSession world ((Beat.entered index placed false).apply world.rest.session)
  have hjumps := commandJump_jumps hhost staging left
  rw [← enterWith_on hhost hjumps false hbound hplace, enterWith_first _ _ hbound hplace,
    enterWith_first _ _ hbound hplace, present_answering]
  cases hchoices : placed.node.hasChoices with
  | false => rfl
  | true =>
    have hentered : entered.rest.session.staging = some staging := hbound
    have hcommands : Beat.Without trigger
        (commands staging (leaping staging left) placed.node.commands entered.rest.session).1 := by
      intro hmem
      refine hwithout ?_
      rw [entering_eq hplace, entry, hchoices]
      exact List.mem_cons_of_mem _ (List.mem_append_left _ hmem)
    have hfollows' : Follows host staging trigger left entered.rest.session.pending jump := hfollows
    rw [if_pos rfl, if_pos rfl, Act.on_bind, Act.on_bind,
      runList_answering hhost htries hfollows' hentered hcommands,
      runList_on hhost hjumps placed.node.commands hentered]

theorem commandJump_answering (hhost : host.Aloof) (staging : Staging) (left : Nat)
    {pending : Nat} :
    Follows host staging trigger left pending
      (commandJump (host.answering trigger answer) left) := by
  -- The induction is on the number of jumps that may still be begun; entering a node uses one of
  -- them.
  induction left generalizing pending with
  | zero =>
    intro tag index world hbound hpending hindex hwithout
    rw [← hpending, ← (commandJump_jumps hhost staging 0).leap hbound hindex, commandJump,
      commandJump, complete_answering]
  | succ left ih =>
    intro tag index world hbound hpending hindex hwithout
    let begun := World.setSession world (Beat.leapt.apply world.rest.session)
    have hbegun : begun.rest.session.staging = some staging := hbound
    have hinside := Graph.lt_size_of_indexOf? hindex
    obtain ⟨placed, hplace⟩ := Staging.exists_at? hinside
    have hentering : Beat.Without trigger
        (entering staging (leaping staging left) index false begun.rest.session) := by
      intro hmem
      rw [leaping] at hwithout
      exact hwithout (List.mem_append_left _ (List.mem_cons_of_mem _ hmem))
    have htries := commandJump_tries (host.answering trigger answer) staging left
    have henter : (enterWith (host.answering trigger answer)
          (commandJump (host.answering trigger answer) left) index false).on begun =
        (enterWith host (commandJump host left) index false).on begun :=
      (enterWith_answering hhost htries ih hbegun hinside hentering).trans
        (enterWith_on hhost (commandJump_jumps hhost staging left) false hbegun hplace).symm
    rw [← hpending, ← (commandJump_jumps hhost staging (left + 1)).leap hbound hindex,
      commandJump_eq _ left hbound hindex, commandJump_eq _ left hbound hindex, Act.on_bind,
      Act.on_bind, Act.on_thenAlways, Act.on_thenAlways, henter]

theorem jumpNow_answering (hhost : host.Aloof) (staging : Staging) {left pending : Nat}
    (hleft : left = maxJumps - pending) :
    Follows host staging trigger left pending (jumpNow (host.answering trigger answer)) := by
  intro tag index world hbound hpending hindex hwithout
  rw [jumpNow, Act.on_bind, Act.on_session]
  dsimp only
  rw [hpending, ← hleft]
  exact commandJump_answering hhost staging left hbound hpending hindex hwithout

theorem enter_answering (hhost : host.Aloof) {index : Nat}
    (hbound : world.rest.session.staging = some staging) (hindex : index < staging.graph.size)
    (hwithout : Beat.Without trigger (Course.enter staging index false world.rest.session)) :
    (enter (host.answering trigger answer) index false).on world =
      settle world.rest.session.pending ()
        ((performBeats host (Course.enter staging index false world.rest.session)).on world) := by
  rw [enter_eq] at hwithout ⊢
  exact enterWith_answering hhost (jumpNow_tries _ staging)
    (jumpNow_answering hhost staging rfl) hbound
    hindex hwithout

theorem advance_answering (hhost : host.Aloof) {placed : Placed} {wrap : Bool}
    (hbound : world.rest.session.staging = some staging)
    (hwithout : Beat.Without trigger (Course.advancing staging placed wrap world.rest.session)) :
    (advance (host.answering trigger answer) staging placed wrap).on world =
      settle world.rest.session.pending () ((performBeats host
        (Course.advancing staging placed wrap world.rest.session)).on world) := by
  rw [advancing] at hwithout
  rw [advance_eq, advancing, complete_answering]
  cases hindex : following? staging placed wrap world.rest.session with
  | none => exact complete_on hhost world
  | some index =>
    rw [hindex] at hwithout
    exact enter_answering hhost hbound (lt_size_of_following? hindex) hwithout

end Aloof

end Session

end Colloquy
