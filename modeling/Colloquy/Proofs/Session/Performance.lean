import Colloquy.Proofs.Session.Sweep

/-!
# A move performs its course

`performs`: in front of an aloof host and from a settled session, a move that is not refused
performs its beats. If the host fails on the way, the beats after the failure are left out, and
the number of jumps under way is set back to what it was (`settle`). A move that is refused leaves
everything as it is.

The actions call each other: entering a node runs its commands, and commands jump and enter nodes.
A jump is related to its beats by `Jumps`; `commandJump_jumps` is the induction on the number of
jumps that may still be begun.
-/

namespace Colloquy.Session

variable {σ ε α : Type} {host : Host σ ε} {staging : Staging}

/-- What comes of beats that are performed within an action: its result, or the failure with the
number of jumps under way as it was before. -/
def settle (pending : Nat) (a : α) :
    Except (Fault ε) Unit × World σ → Except (Fault ε) α × World σ
  | (.ok (), world) => (.ok a, world)
  | (.error fault, world) =>
    (.error fault, World.setSession world { world.rest.session with pending })

theorem settle_cons (hhost : host.Aloof) (a : α) (beat : Beat) (beats : List Beat)
    (world : World σ) :
    settle world.rest.session.pending a ((performBeats host (beat :: beats)).on world) =
      match (performBeat host beat).on world with
      | (.ok (), world') => settle world.rest.session.pending a
          ((performBeats host beats).on world')
      | (.error fault, world') => (.error fault, world') := by
  rw [performBeats, Act.on_bind]
  rcases hon : (performBeat host beat).on world with ⟨fault | done, world'⟩
  · have hsession := performBeat_error hhost hon
    rw [← hsession]
    rfl
  · rfl

/-- A beat without signals only changes the session. -/
theorem performBeat_silent (hhost : host.Aloof) {beat : Beat} {world : World σ}
    (hsignals : beat.signals world.rest.session = []) :
    (performBeat host beat).on world =
      (.ok (), World.setSession world (beat.apply world.rest.session)) := by
  rw [performBeat_on hhost, hsignals]
  rfl

theorem performBeat_ran (hhost : host.Aloof) {command : Command} {world : World σ}
    {signals : List Signal} {store : Store}
    (hwork : command.work world.rest.session.store = .plain signals store) :
    (performBeat host (.ran command)).on world =
      (sendThen host signals (keepStore store)).on world := by
  have hsession := sendAll_session hhost signals world
  simp only [performBeat_on hhost, Beat.signals, Beat.apply, Command.leaves, hwork, sendThen,
    Act.on_bind]
  rcases hon : (sendAll host signals).on world with ⟨fault | done, world'⟩
  · rfl
  · rw [hon] at hsession
    dsimp only
    rw [Act.on_modifySession, hsession]

theorem performBeat_finished (world : World σ) :
    (performBeat host .finished).on world = (complete host).on world := by
  rw [performBeat, Act.on_bind, Act.on_session]
  simp only [Beat.signals, sendThen, sendAll, send, complete, bind_assoc, pure_bind]
  rfl

theorem performBeat_missed (tag : String) (world : World σ) :
    (performBeat host (.missed tag)).on world = (missingTarget tag).on world := rfl

/-- A beat that leaves the session alone lets its signals out. -/
theorem performBeat_idle (hhost : host.Aloof) {beat : Beat} {world : World σ}
    (happly : beat.apply world.rest.session = world.rest.session) :
    (performBeat host beat).on world =
      (sendAll host (beat.signals world.rest.session)).on world := by
  have hsession := sendAll_session hhost (beat.signals world.rest.session) world
  rw [performBeat_on hhost, happly]
  rcases hon : (sendAll host (beat.signals world.rest.session)).on world with ⟨fault | done, world'⟩
  · rfl
  · rw [hon] at hsession
    dsimp only
    rw [← hsession]
    rfl

theorem performBeat_shown (hhost : host.Aloof) (node : Node) (world : World σ) :
    (performBeat host (.shown node)).on world = (present host node).on world := by
  let speaker := Reference.resolve world.rest.session.store.display node.speaker
  let speech := Reference.resolve world.rest.session.store.display node.text
  let first : List Signal := [.tell (.speaker speaker), .tell (.speech speech),
    .publish (.speaker speaker), .publish (.speech speech)]
  -- The choices are resolved after speaker and speech are out, in a session that is still the same.
  have hsession := sendAll_session hhost first world
  have hpresent : (present host node).on world =
      (sendAll host first >>= fun _ => if node.hasChoices then do
        let session ← Act.session
        let choices := node.choices.map fun choice =>
          { choice with text := session.resolveIn choice.text }
        tell host (.choices choices)
        publish host (.choices choices) else pure ()).on world := by
    rw [present, Act.on_bind, Act.on_session]
    simp only [first, sendAll, send, bind_assoc, pure_bind]
    rfl
  rw [performBeat_idle hhost rfl, hpresent, Beat.signals, presenting, sendAll_append, Act.on_bind,
    Act.on_bind]
  rcases hon : (sendAll host first).on world with ⟨fault | done, world'⟩
  · rfl
  · rw [hon] at hsession
    dsimp only at hsession ⊢
    split
    · rw [Act.on_bind, Act.on_session, hsession]
      simp only [sendAll, send, bind_pure_unit]
      rfl
    · rfl

/-! ## Commands -/

/-- A jump for a command performs the beats of the jump, if there is a node to go to. -/
structure Jumps (host : Host σ ε) (staging : Staging) (jump : String → Act σ ε Bool)
    (leap : String → Nat → Session → List Beat) : Prop where
  miss : ∀ {tag} {world : World σ}, world.rest.session.staging = some staging →
    staging.graph.indexOf? tag = none →
    (jump tag).on world = (missingTarget tag >>= fun _ => pure false).on world
  leap : ∀ {tag index} {world : World σ}, world.rest.session.staging = some staging →
    staging.graph.indexOf? tag = some index →
    (jump tag).on world = settle world.rest.session.pending true
      ((performBeats host (leap tag index world.rest.session)).on world)

section Aloof

variable {jump : String → Act σ ε Bool} {leap : String → Nat → Session → List Beat}
  {world : World σ}

/-- A command that closes the session or asks for a jump does nothing by itself. -/
theorem performBeat_ran_silent (hhost : host.Aloof) {command : Command}
    (hwork : ∀ signals store,
      command.work world.rest.session.store = .plain signals store → False) :
    (performBeat host (.ran command)).on world = (.ok (), world) := by
  have hsignals : (Beat.ran command).signals world.rest.session = [] := by
    simp only [Beat.signals]
  have happly : (Beat.ran command).apply world.rest.session = world.rest.session := by
    simp only [Beat.apply, Command.leaves]
    rfl
  rw [performBeat_silent hhost hsignals, happly, World.setSession_self]

/-- Running commands performs their course. -/
theorem runList_on (hhost : host.Aloof) (hjumps : Jumps host staging jump leap)
    (commands : List Command) (hbound : world.rest.session.staging = some staging) :
    (runList host jump commands).on world =
      settle world.rest.session.pending
        (Course.commands staging leap commands world.rest.session).2
        ((performBeats host
          (Course.commands staging leap commands world.rest.session).1).on world) := by
  induction commands generalizing world with
  | nil => rfl
  | cons command rest ih =>
    rw [runList, Act.on_bind, runCommand_on hhost, Course.commands]
    cases hwork : command.work world.rest.session.store with
    | plain signals store =>
      have hturn : command.turn staging.graph world.rest.session.store = .stays := by
        simp [Command.turn, hwork]
      simp only [hturn, Course.after, List.singleton_append, settle_cons hhost,
        performBeat_ran hhost hwork, Act.on_bind]
      rcases hon : (sendThen host signals (keepStore store)).on world with ⟨fault | done, world'⟩
      · rfl
      · have hsession : world'.rest.session = (Beat.ran command).apply world.rest.session :=
          performBeat_ok hhost ((performBeat_ran hhost hwork).trans hon)
        have hbound' : world'.rest.session.staging = some staging := by
          rw [hsession]
          exact hbound
        have hrest := ih hbound'
        have hpending : ((Beat.ran command).apply world.rest.session).pending =
            world.rest.session.pending := rfl
        rw [hsession, hpending] at hrest
        simpa using hrest
    | close =>
      have hturn : command.turn staging.graph world.rest.session.store = .departs .close := by
        simp [Command.turn, hwork]
      have hplain : ∀ signals store,
          command.work world.rest.session.store = .plain signals store → False := by simp [hwork]
      have hran := performBeat_ran_silent hhost hplain
      simp only [hturn, settle_cons hhost, hran, performBeat_finished, Act.on_bind]
      rcases hon : (complete host).on world with ⟨fault | done, world'⟩
      · rfl
      · rfl
    | jump tag =>
      have hplain : ∀ signals store,
          command.work world.rest.session.store = .plain signals store → False := by simp [hwork]
      have hran := performBeat_ran_silent hhost hplain
      cases hindex : staging.graph.indexOf? tag with
      | none =>
        have hturn : command.turn staging.graph world.rest.session.store = .misses tag := by
          simp [Command.turn, hwork, hindex]
        simp only [hturn, Course.after, List.cons_append, List.nil_append, settle_cons hhost, hran,
          performBeat_missed, hjumps.miss hbound hindex, Act.on_bind, ← performBeat_ok hhost hran]
        exact ih hbound
      | some index =>
        have hturn : command.turn staging.graph world.rest.session.store =
            .departs (.toward tag index) := by
          simp [Command.turn, hwork, hindex]
        simp only [hturn, settle_cons hhost, hran, hjumps.leap hbound hindex]
        rcases hon : (performBeats host (leap tag index world.rest.session)).on world with
          ⟨fault | done, world'⟩
        · rfl
        · rfl

/-! ## Entering nodes -/

/-- Entering a node puts it on screen and then runs its commands or presents it. This holds of
every host. -/
theorem enterWith_eq (host : Host σ ε) (jump : String → Act σ ε Bool) {index : Nat}
    {placed : Placed} (again : Bool) (hbound : world.rest.session.staging = some staging)
    (hplace : staging.at? index = some placed) :
    (enterWith host jump index again).on world =
      ((if placed.node.hasChoices then runPending host jump else pure false) >>= fun moved =>
        if moved then pure () else present host placed.node).on (World.setSession world
          { world.rest.session with
            index, current := some placed, hasRun := again && world.rest.session.hasRun }) := by
  rw [enterWith, Act.on_bind, Act.on_session]
  dsimp only
  rw [hbound, Option.bind_some, hplace]
  dsimp only
  rw [Act.on_bind, Act.on_modifySession, hbound]
  cases placed.node.hasChoices with
  | true => rfl
  | false => rfl

/-- Commands that have not been started are started. This holds of every host. -/
theorem runPending_eq (host : Host σ ε) (jump : String → Act σ ε Bool) {placed : Placed}
    (hcurrent : world.rest.session.current = some placed)
    (hrun : world.rest.session.hasRun = false) :
    (runPending host jump).on world = (runList host jump placed.node.commands).on
      (World.setSession world (Beat.begun.apply world.rest.session)) := by
  rw [runPending, Act.on_bind, Act.on_session]
  dsimp only
  rw [hcurrent]
  dsimp only
  rw [hrun, if_neg Bool.false_ne_true, Act.on_bind, Act.on_modifySession]
  rfl

theorem entry_on (hhost : host.Aloof) (hjumps : Jumps host staging jump leap) (index : Nat)
    (placed : Placed) (again : Bool) (hbound : world.rest.session.staging = some staging) :
    let started := again && world.rest.session.hasRun
    let entered := (Beat.entered index placed again).apply world.rest.session
    (if placed.node.hasChoices then runPending host jump else pure false).on
        (World.setSession world
          { world.rest.session with index, current := some placed, hasRun := started }) =
      settle world.rest.session.pending (Course.entry staging leap placed started entered).2
        ((performBeats host (Course.entry staging leap placed started entered).1).on
          (World.setSession world entered)) := by
  intro started entered
  cases hchoices : placed.node.hasChoices with
  | false =>
    simp only [entered, Beat.apply, Course.entry, hchoices, Bool.or_false]
    rfl
  | true =>
    cases hstarted : started with
    | true =>
      simp only [started] at hstarted
      simp only [entered, Beat.apply, Course.entry, hchoices, hstarted]
      rfl
    | false =>
      let shown : Session :=
        { world.rest.session with index, current := some placed, hasRun := false }
      have hcurrent : (World.setSession world shown).rest.session.current = some placed := rfl
      have hentered : (World.setSession world entered).rest.session.staging = some staging := hbound
      have hon := runList_on hhost hjumps placed.node.commands hentered
      simp only [started] at hstarted
      rw [if_pos rfl, runPending_eq host jump hcurrent rfl]
      simp only [Course.entry, hchoices, Bool.not_false, Bool.and_self, if_true]
      refine Eq.trans ?_ hon
      simp only [World.setSession_session, shown, entered, Beat.apply, hchoices, hstarted,
        Bool.or_true]
      rfl

/-- Beats after a course that has left the session at its node. -/
theorem settle_append (first second : List Beat) (pending : Nat) (a : α) :
    settle pending () ((performBeats host (first ++ second)).on world) =
      match settle pending a ((performBeats host first).on world) with
      | (.ok _, world') => settle pending () ((performBeats host second).on world')
      | (.error fault, world') => (.error fault, world') := by
  rw [performBeats_append, Act.on_bind]
  rcases (performBeats host first).on world with ⟨fault | done, world'⟩
  · rfl
  · rfl

theorem enterWith_on (hhost : host.Aloof) (hjumps : Jumps host staging jump leap) {index : Nat}
    {placed : Placed} (again : Bool) (hbound : world.rest.session.staging = some staging)
    (hplace : staging.at? index = some placed) :
    (enterWith host jump index again).on world = settle world.rest.session.pending ()
      ((performBeats host
        (Course.entering staging leap index again world.rest.session)).on world) := by
  let started := again && world.rest.session.hasRun
  let entered := (Beat.entered index placed again).apply world.rest.session
  let course := Course.entry staging leap placed started entered
  have hentered : (performBeat host (.entered index placed again)).on world =
      (.ok (), World.setSession world entered) := performBeat_silent hhost rfl
  rw [enterWith_eq host jump again hbound hplace, Act.on_bind,
    entry_on hhost hjumps index placed again hbound,
    Course.entering_eq hplace, settle_cons hhost, hentered]
  dsimp only
  rw [settle_append _ _ _ course.2]
  rcases hon : (performBeats host course.1).on (World.setSession world entered) with
    ⟨fault | done, world'⟩
  · rfl
  · change (if course.2 then pure () else present host placed.node : Act σ ε Unit).on world' =
      settle world.rest.session.pending ()
        ((performBeats host (if course.2 then [] else [.shown placed.node])).on world')
    cases hmoved : course.2 with
    | true => rfl
    | false =>
      -- The node is shown in the session that its commands have left, with as many jumps under way.
      have hpending : world'.rest.session.pending = world.rest.session.pending := by
        obtain ⟨store, hstore⟩ := Course.exists_keepStore_entry hmoved
        rw [performBeats_ok hhost hon, World.setSession_session, hstore]
        rfl
      rw [if_neg Bool.false_ne_true, if_neg Bool.false_ne_true, ← hpending, settle_cons hhost,
        performBeat_shown hhost]
      rcases (present host placed.node).on world' with ⟨fault | done, world''⟩
      · rfl
      · rfl

end Aloof

theorem on_placeOf? {tag : String} {world : World σ}
    (hbound : world.rest.session.staging = some staging) :
    (placeOf? tag : Act σ ε (Option Nat)).on world = (.ok (staging.graph.indexOf? tag), world) := by
  rw [placeOf?, Act.on_bind, Act.on_session]
  dsimp only
  rw [hbound]
  rfl

/-- A jump to a node that there is, as long as more jumps may be begun. This holds of every host. -/
theorem commandJump_eq (host : Host σ ε) (left : Nat) {tag : String} {index : Nat}
    {world : World σ} (hbound : world.rest.session.staging = some staging)
    (hindex : staging.graph.indexOf? tag = some index) :
    (commandJump host (left + 1) tag).on world =
      ((enterWith host (commandJump host left) index false).thenAlways (Beat.apply · .landed) >>=
        fun _ => pure true).on (World.setSession world (Beat.leapt.apply world.rest.session)) := by
  rw [commandJump, Act.on_bind, on_placeOf? hbound, hindex]
  rfl

/-- A jump performs its beats. -/
theorem commandJump_jumps (hhost : host.Aloof) (staging : Staging) (left : Nat) :
    Jumps host staging (commandJump host left) (Course.leaping staging left) := by
  -- The induction is on the number of jumps that may still be begun; entering a node uses one of
  -- them.
  induction left with
  | zero =>
    refine ⟨fun {tag world} hbound hindex => ?_, fun {tag index world} hbound hindex => ?_⟩
    · rw [commandJump, Act.on_bind, on_placeOf? hbound, hindex]
    · let logged : World σ := { world with
        rest := { world.rest with
          log := world.rest.log ++
            [⟨.error, .playback, s!"Dialogue jump loop detected at [{tag}]; stopping playback"⟩] } }
      have htripped : (performBeat host (.tripped tag)).on world = (.ok (), logged) := rfl
      rw [commandJump, Act.on_bind, on_placeOf? hbound, hindex, Course.leaping, settle_cons hhost,
        htripped]
      dsimp only
      rw [Act.on_bind, Act.on_log]
      change (complete host >>= fun _ => pure true).on logged =
        settle logged.rest.session.pending true ((performBeats host [.finished]).on logged)
      rw [settle_cons hhost, performBeat_finished, Act.on_bind]
      rcases (complete host).on logged with ⟨fault | done, world'⟩
      · rfl
      · rfl
  | succ left ih =>
    refine ⟨fun {tag world} hbound hindex => ?_, fun {tag index world} hbound hindex => ?_⟩
    · rw [commandJump, Act.on_bind, on_placeOf? hbound, hindex]
    · obtain ⟨placed, hplace⟩ := Staging.exists_at? (Graph.lt_size_of_indexOf? hindex)
      let begun := World.setSession world (Beat.leapt.apply world.rest.session)
      have hleapt : (performBeat host .leapt).on world = (.ok (), begun) :=
        performBeat_silent hhost rfl
      have hbegun : begun.rest.session.staging = some staging := hbound
      have henter := enterWith_on hhost ih false hbegun hplace
      rw [commandJump_eq host left hbound hindex, Course.leaping, List.cons_append,
        settle_cons hhost, hleapt]
      change ((enterWith host (commandJump host left) index false).thenAlways
        (Beat.apply · .landed) >>=
          fun _ => pure true).on begun =
        settle world.rest.session.pending true ((performBeats host (Course.entering staging
          (Course.leaping staging left) index false begun.rest.session ++ [.landed])).on begun)
      rw [Act.on_bind, Act.on_thenAlways, henter, performBeats_append, Act.on_bind]
      rcases (performBeats host (Course.entering staging (Course.leaping staging left) index false
        begun.rest.session)).on begun with ⟨fault | done, world'⟩
      · rfl
      · rfl

theorem jumpNow_jumps (hhost : host.Aloof) (staging : Staging) :
    Jumps host staging (jumpNow host) (Course.jumping staging) := by
  refine ⟨fun {tag world} hbound hindex => ?_, fun {tag index world} hbound hindex => ?_⟩
  · rw [jumpNow, Act.on_bind, Act.on_session]
    exact (commandJump_jumps hhost staging _).miss hbound hindex
  · rw [jumpNow, Act.on_bind, Act.on_session]
    exact (commandJump_jumps hhost staging _).leap hbound hindex

theorem enter_on (hhost : host.Aloof) {index : Nat} (again : Bool) {world : World σ}
    (hbound : world.rest.session.staging = some staging) (hindex : index < staging.graph.size) :
    (enter host index again).on world = settle world.rest.session.pending ()
      ((performBeats host (Course.enter staging index again world.rest.session)).on world) := by
  obtain ⟨placed, hplace⟩ := Staging.exists_at? hindex
  exact enterWith_on hhost (jumpNow_jumps hhost staging) again hbound hplace

/-! ## Going on -/

theorem on_bound {world : World σ} (hbound : world.rest.session.staging = some staging) :
    (bound : Act σ ε Staging).on world = (.ok staging, world) := by
  rw [bound, Act.on_bind, Act.on_session]
  dsimp only
  rw [hbound]
  rfl

theorem on_bound_none {world : World σ} (hbound : world.rest.session.staging = none) :
    (bound : Act σ ε Staging).on world = (.error .noGraph, world) := by
  rw [bound, Act.on_bind, Act.on_session]
  dsimp only
  rw [hbound]
  rfl

section Going

variable {world : World σ} {placed : Placed}

theorem runPending_on (hhost : host.Aloof) (hbound : world.rest.session.staging = some staging)
    (hcurrent : world.rest.session.current = some placed) :
    (runPending host (jumpNow host)).on world = settle world.rest.session.pending
      (Course.pending staging placed world.rest.session).2
      ((performBeats host (Course.pending staging placed world.rest.session).1).on world) := by
  rw [Course.pending]
  cases hrun : world.rest.session.hasRun with
  | true =>
    rw [runPending, Act.on_bind, Act.on_session]
    dsimp only
    rw [hcurrent]
    dsimp only
    rw [hrun]
    rfl
  | false =>
    let begun := World.setSession world (Beat.begun.apply world.rest.session)
    have hbegun : (performBeat host .begun).on world = (.ok (), begun) :=
      performBeat_silent hhost rfl
    have hbound' : begun.rest.session.staging = some staging := hbound
    rw [runPending_eq host (jumpNow host) hcurrent hrun, if_neg Bool.false_ne_true, Course.after,
      List.singleton_append, settle_cons hhost, hbegun]
    exact runList_on hhost (jumpNow_jumps hhost staging) placed.node.commands hbound'

theorem complete_on (hhost : host.Aloof) (world : World σ) :
    (complete host).on world = settle world.rest.session.pending ()
      ((performBeats host [.finished]).on world) := by
  rw [settle_cons hhost, performBeat_finished]
  rcases (complete host).on world with ⟨fault | done, world'⟩
  · rfl
  · rfl

/-- Going on leads to the next node, if there is one. This holds of every host. -/
theorem advance_eq (host : Host σ ε) (staging : Staging) (placed : Placed) (wrap : Bool)
    (world : World σ) :
    (advance host staging placed wrap).on world =
      match Course.following? staging placed wrap world.rest.session with
      | none => (complete host).on world
      | some index => (enter host index false).on world := by
  rw [advance, Act.on_bind, Act.on_session]
  dsimp only
  unfold Course.following?
  dsimp only
  by_cases hover : (staging.graph.size ≤ world.rest.session.index + 1 && ! wrap) = true
  · rw [if_pos hover, if_pos hover]
  · rw [if_neg hover, if_neg hover]
    generalize firstOther world.rest.session.index placed.mark _ _ = index
    by_cases hlast : staging.graph.size ≤ index
    · rw [if_pos hlast, if_pos hlast]
    · rw [if_neg hlast, if_neg hlast]

theorem advance_on (hhost : host.Aloof) (wrap : Bool)
    (hbound : world.rest.session.staging = some staging) :
    (advance host staging placed wrap).on world = settle world.rest.session.pending ()
      ((performBeats host (Course.advancing staging placed wrap world.rest.session)).on world) := by
  rw [advance_eq, Course.advancing]
  cases hindex : Course.following? staging placed wrap world.rest.session with
  | none => exact complete_on hhost world
  | some index => exact enter_on hhost false hbound (Course.lt_size_of_following? hindex)

theorem next_on (hhost : host.Aloof) (wrap : Bool)
    (hbound : world.rest.session.staging = some staging)
    (hcurrent : world.rest.session.current = some placed) :
    (next host wrap).on world = settle world.rest.session.pending ()
      ((performBeats host (Course.going staging wrap world.rest.session)).on world) := by
  let course := Course.pending staging placed world.rest.session
  have hgoing : Course.going staging wrap world.rest.session = course.1 ++
      if course.2 || placed.node.hasChoices then []
      else Course.advancing staging placed wrap
        (Beat.replay world.rest.session course.1) := by
    simp only [Course.going, hcurrent]
    rfl
  rw [next, Act.on_bind, on_bound hbound]
  dsimp only
  rw [Act.on_bind, Act.on_session]
  dsimp only
  rw [hcurrent]
  dsimp only
  rw [Act.on_bind, runPending_on hhost hbound hcurrent, hgoing, settle_append _ _ _ course.2]
  rcases hon : (performBeats host course.1).on world with ⟨fault | done, world'⟩
  · rfl
  · simp only [settle]
    cases hmoved : course.2 with
    | true => rfl
    | false =>
      -- The commands have left the session at its node, which is read again.
      obtain ⟨store, hasRun, hstore⟩ := Course.exists_keepStore_pending hmoved
      have hsession : world'.rest.session = Beat.replay world.rest.session course.1 :=
        performBeats_ok hhost hon
      have hkept := hsession.trans hstore
      have hcurrent' : world'.rest.session.current = some placed := by rw [hkept]; exact hcurrent
      have hbound' : world'.rest.session.staging = some staging := by rw [hkept]; exact hbound
      have hpending : world'.rest.session.pending = world.rest.session.pending := by rw [hkept]
      rw [if_neg Bool.false_ne_true, Bool.false_or, Act.on_bind, Act.on_session]
      dsimp only
      rw [hcurrent']
      dsimp only
      cases placed.node.hasChoices with
      | true => rfl
      | false =>
        rw [if_neg Bool.false_ne_true, if_neg Bool.false_ne_true, ← hsession, ← hpending]
        exact advance_on hhost wrap hbound'

end Going

/-! ## Moves -/

/-- The course of a move, performed. -/
def performCourse (host : Host σ ε) (move : Move) (world : World σ) :
    Except (Setback ε) Unit × World σ :=
  let outcome := settle world.rest.session.pending ()
    ((performBeats host (move.beats world.rest.session)).on world)
  (outcome.1.mapError .fault, outcome.2)

/-- A move makes its change and then performs the rest of its course. -/
theorem performCourse_eq (hhost : host.Aloof) (move : Move) (world : World σ) :
    performCourse host move world =
      let opened := World.setSession world (move.opening world.rest.session)
      let outcome := settle world.rest.session.pending ()
        ((performBeats host (move.sequel opened.rest.session)).on opened)
      (outcome.1.mapError .fault, outcome.2) := by
  have hcalled : (performBeat host (.called move)).on world =
      (.ok (), World.setSession world (move.opening world.rest.session)) :=
    performBeat_silent hhost rfl
  rw [performCourse, Move.beats, settle_cons hhost, hcalled]
  rfl

/-- A move without a direct change performs its course if its action performs the beats. -/
theorem played_eq (hhost : host.Aloof) {move : Move} {act : Act σ ε Unit} {world : World σ}
    (hopening : move.opening world.rest.session = world.rest.session)
    (hact : act.on world = settle world.rest.session.pending ()
      ((performBeats host (move.sequel world.rest.session)).on world)) :
    Move.played act world = performCourse host move world := by
  rw [performCourse_eq hhost, hopening, World.setSession_self, Move.played, hact]

/-- A move performs its course unless it is refused; then it changes nothing. -/
def Performs (host : Host σ ε) (move : Move) (world : World σ) : Prop :=
  move.perform host world =
    match (move.refusal? world.rest.session : Option (Setback ε)) with
    | some setback => (.error setback, world)
    | none => performCourse host move world

section Moves

variable {world : World σ}

theorem performs_start (hhost : host.Aloof) : Performs host .start world := by
  rw [Performs, Move.perform, Move.refusal?]
  cases hbound : world.rest.session.staging with
  | none =>
    simp only [Move.played, start, Act.on_bind, on_bound_none hbound]
    rfl
  | some staging =>
    dsimp only
    by_cases hempty : staging.graph.nodes.isEmpty = true
    · rw [if_pos hempty]
      simp only [Move.played, start, Act.on_bind, on_bound hbound, if_pos hempty]
      rfl
    · rw [if_neg hempty]
      refine played_eq hhost rfl ?_
      simp only [start, Act.on_bind, on_bound hbound, if_neg hempty, Move.sequel, Course.inGraph,
        hbound]
      exact enter_on hhost false hbound (Graph.size_pos hempty)

theorem performs_next (hhost : host.Aloof) (wrap : Bool) : Performs host (.next wrap) world := by
  rw [Performs, Move.perform, Move.refusal?]
  cases hbound : world.rest.session.staging with
  | none =>
    simp only [Move.played, next, Act.on_bind, on_bound_none hbound]
    rfl
  | some staging =>
    have hsequel : Move.sequel world.rest.session (.next wrap) =
        Course.going staging wrap world.rest.session := by
      simp only [Move.sequel, Course.inGraph, hbound]
    cases hcurrent : world.rest.session.current with
    | some placed =>
      refine played_eq hhost rfl ?_
      rw [hsequel]
      exact next_on hhost wrap hbound hcurrent
    | none =>
      dsimp only
      rw [Option.isNone_none, Bool.true_and]
      by_cases hempty : staging.graph.nodes.isEmpty = true
      · rw [if_pos hempty]
        simp only [Move.played, next, Act.on_bind, on_bound hbound, Act.on_session, hcurrent,
          if_pos hempty]
        rfl
      · rw [if_neg hempty]
        refine played_eq hhost rfl ?_
        simp only [next, Act.on_bind, on_bound hbound, Act.on_session, hcurrent, if_neg hempty,
          hsequel, Course.going]
        exact enter_on hhost false hbound (Graph.size_pos hempty)

theorem performs_jumpTo (hhost : host.Aloof) (index : Int) :
    Performs host (.jumpTo index) world := by
  rw [Performs, Move.perform, Move.refusal?]
  cases hbound : world.rest.session.staging with
  | none =>
    simp only [Move.played, jumpTo, Act.on_bind, on_bound_none hbound]
    rfl
  | some staging =>
    dsimp only
    by_cases hinside : (0 ≤ index && index < staging.graph.size) = true
    · rw [if_pos hinside]
      refine played_eq hhost rfl ?_
      have hindex : index.toNat < staging.graph.size := by
        rw [Bool.and_eq_true, decide_eq_true_iff, decide_eq_true_iff] at hinside
        omega
      simp only [jumpTo, Act.on_bind, on_bound hbound, if_pos hinside, Move.sequel, Course.inGraph,
        hbound]
      exact enter_on hhost false hbound hindex
    · rw [if_neg hinside]
      simp only [Move.played, jumpTo, Act.on_bind, on_bound hbound, if_neg hinside]
      rfl

/-- Going to the node with a tag performs its beats. -/
theorem jump_on (hhost : host.Aloof) (tag : String)
    (hbound : world.rest.session.staging = some staging) :
    (jump host tag).on world = settle world.rest.session.pending ()
      ((performBeats host (Course.seeking tag world.rest.session)).on world) := by
  simp only [jump, Act.on_bind, on_bound hbound, Course.seeking, Course.inGraph, hbound]
  cases hindex : staging.graph.indexOf? tag with
  | none => rfl
  | some index => exact enter_on hhost false hbound (Graph.lt_size_of_indexOf? hindex)

theorem performs_jump (hhost : host.Aloof) (tag : String) : Performs host (.jump tag) world := by
  rw [Performs, Move.perform, Move.refusal?]
  cases hbound : world.rest.session.staging with
  | none =>
    simp only [Move.played, jump, Act.on_bind, on_bound_none hbound]
    rfl
  | some staging => exact played_eq hhost rfl (jump_on hhost tag hbound)

theorem performs_select (hhost : host.Aloof) (hsound : world.rest.session.Sound) (index : Int) :
    Performs host (.select index) world := by
  rw [Performs, Move.perform, Move.refusal?]
  cases hopen : world.rest.session.current.filter (·.node.hasChoices) with
  | none =>
    refine played_eq hhost rfl ?_
    simp only [select, Act.on_bind, Act.on_session, hopen, Move.sequel]
    rfl
  | some placed =>
    dsimp only
    cases hchoice : (if 0 ≤ index then placed.node.choices[index.toNat]? else none) with
    | none =>
      simp only [Move.played, select, Act.on_bind, Act.on_session, hopen, hchoice]
      rfl
    | some choice =>
      have hcurrent : world.rest.session.current = some placed :=
        (Option.filter_eq_some_iff.1 hopen).1
      obtain ⟨staging, hactive⟩ := hsound.exists_active hcurrent
      refine played_eq hhost rfl ?_
      simp only [select, Act.on_bind, Act.on_session, hopen, hchoice, Move.sequel]
      exact jump_on hhost choice.target hactive.bound

theorem performs_stop (hhost : host.Aloof) : Performs host .stop world := by
  exact played_eq hhost rfl (complete_on hhost world)

/-- Showing the node on screen again performs its beats. -/
theorem reload_on (hhost : host.Aloof) (hsound : world.rest.session.Sound) :
    (reload host).on world = settle world.rest.session.pending ()
      ((performBeats host (Course.reloading world.rest.session)).on world) := by
  rw [reload, Act.on_bind, Act.on_session]
  dsimp only
  rcases hsound with hidle | ⟨staging, placed, hactive⟩
  · rw [Course.reloading, Course.inGraph, hidle.current]
    cases world.rest.session.staging with
    | none => rfl
    | some staging => rfl
  · rw [Course.reloading, Course.inGraph, hactive.bound, hactive.current]
    exact enter_on hhost true hactive.bound (Staging.lt_size_of_at? hactive.place)

theorem performs_setVariable (hhost : host.Aloof) (hsound : world.rest.session.Sound)
    (name : String) (offer : Offer) : Performs host (.setVariable name offer) world := by
  rw [Performs, Move.perform, Move.refusal?]
  cases htake : offer.take with
  | error refusal =>
    simp only [Move.played, setVariable, htake]
    rfl
  | ok value =>
    let kept := World.setSession world
      (keepStore (world.rest.session.store.set name value) world.rest.session)
    have hkept : kept.rest.session.Sound := hsound.keepStore _
    have hreload := reload_on hhost hkept
    rw [performCourse_eq hhost]
    simp only [Move.played, setVariable, htake, Act.on_bind, Act.on_modifySession, Move.opening,
      Move.sequel, World.setSession_session]
    exact congrArg (fun outcome => (outcome.1.mapError Setback.fault, outcome.2)) hreload

theorem performs_restore (hhost : host.Aloof) (data : Json) (palette : Value.Palette) :
    Performs host (.restore data palette) world := by
  rw [Performs, Move.refusal?]
  cases hrestore : world.rest.session.restore data palette with
  | error defect => simp only [Move.perform, hrestore]
  | ok session =>
    rw [performCourse_eq hhost]
    simp only [Move.perform, Move.opening, hrestore, Move.sequel]
    rfl

end Moves

/-- A move that is not refused performs its course, and one that is refused changes nothing. -/
theorem performs (hhost : host.Aloof) (move : Move) {world : World σ}
    (hsound : world.rest.session.Sound) : Performs host move world := by
  cases move with
  | bind staging forget => cases forget <;> rfl
  | start => exact performs_start hhost
  | next wrap => exact performs_next hhost wrap
  | jumpTo index => exact performs_jumpTo hhost index
  | jump tag => exact performs_jump hhost tag
  | select index => exact performs_select hhost hsound index
  | stop => exact performs_stop hhost
  | reset forget => cases forget <;> rfl
  | reload => exact played_eq hhost rfl (reload_on hhost hsound)
  | setVariable name offer => exact performs_setVariable hhost hsound name offer
  | removeVariable name => rfl
  | restore data palette => exact performs_restore hhost data palette

end Colloquy.Session
