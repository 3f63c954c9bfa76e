import Colloquy.Proofs.Session.Pauses

/-!
# Detours

A host that is told to carry out a command may stop the session or go to another node before it
returns. Commands that are the session's own and do the same end the move there and then. The
detour of a host does not: the move does what is left of it, though the session has moved
(`detour_resumes`). So the node that it was entering is shown after all, or the player goes on
from a node that nobody has seen, or from none at all.

An action with a detour in it is related to the beats before and after the detour. `carryOn` is
what is left of an action at a pause. `perform_pauses` brings every move there, and
`carryOn_plays` leads on from there.
-/

namespace Colloquy

variable {σ ε : Type}

/-! ## What a host does -/

namespace Detour

/-- Makes a detour. -/
def act (host : Host σ ε) : Detour → Act σ ε Unit
  | .stop => Session.stop host
  | .jump tag => Session.jump host tag

variable {host : Host σ ε} {staging : Staging} {world : World σ}

theorem on_act (hhost : host.Aloof) (detour : Detour)
    (hbound : world.rest.session.staging = some staging) :
    (detour.act host).on world = Session.settle world.rest.session.pending ()
      ((Session.performBeats host (detour.beats world.rest.session)).on world) := by
  cases detour with
  | stop => exact Session.complete_on hhost world
  | jump tag => exact Session.jump_on hhost tag hbound

/-- It makes no difference whether the host itself hears of its detour, if that does not run the
command that it answers. -/
theorem on_act_answering (hhost : host.Aloof) (detour : Detour) {trigger : Command}
    {answer : Act σ ε Unit} (hbound : world.rest.session.staging = some staging)
    (hwithout : Beat.Without trigger (detour.beats world.rest.session)) :
    (detour.act (host.answering trigger answer)).on world = (detour.act host).on world := by
  cases detour with
  | stop => exact congrArg (Act.on · world) Session.complete_answering
  | jump tag =>
    rw [beats, Course.seeking, Course.inGraph, hbound] at hwithout
    simp only [act, Session.jump, Act.on_bind, Session.on_bound hbound]
    cases hindex : staging.graph.indexOf? tag with
    | none => rfl
    | some index =>
      have hinside := Graph.lt_size_of_indexOf? hindex
      simp only [hindex] at hwithout
      exact (Session.enter_answering hhost hbound hinside hwithout).trans
        (Session.enter_on hhost false hbound hinside).symm

end Detour

/-! ## Acts that are played -/

namespace Session

open Course

variable {host : Host σ ε} {calm : Bus Notice.Kind String Notice → σ → Prop} {staging : Staging}
  {world world' world'' : World σ} {first second : List Beat}

/-- Beats that a quiet host has let a session perform. -/
structure Plays (host : Host σ ε) (calm : Bus Notice.Kind String Notice → σ → Prop)
    (world : World σ) (beats : List Beat) (world' : World σ) : Prop where
  on : (performBeats host beats).on world = (.ok (), world')
  calm : calm world'.bus world'.rest.host
  session : world'.rest.session = Beat.replay world.rest.session beats

theorem exists_plays (hhost : host.Quiet calm) (beats : List Beat)
    (hcalm : calm world.bus world.rest.host) : ∃ world', Plays host calm world beats world' := by
  obtain ⟨world', hon, hkept⟩ := performBeats_calm hhost beats hcalm
  exact ⟨world', hon, hkept, performBeats_ok hhost.toAloof hon⟩

theorem Plays.append (hfirst : Plays host calm world first world')
    (hsecond : Plays host calm world' second world'') :
    Plays host calm world (first ++ second) world'' := by
  refine ⟨?_, hsecond.calm, ?_⟩
  · rw [performBeats_append, Act.on_bind, hfirst.on]
    exact hsecond.on
  · rw [hsecond.session, hfirst.session, Beat.replay_append]

/-- A beat without signals is played by changing the session. -/
theorem Plays.silent (hhost : host.Aloof) (hcalm : calm world.bus world.rest.host) {beat : Beat}
    (hsignals : beat.signals world.rest.session = []) :
    Plays host calm world [beat] (World.setSession world (beat.apply world.rest.session)) := by
  refine ⟨?_, hcalm, rfl⟩
  rw [performBeats, Act.on_bind, performBeat_silent hhost hsignals]
  rfl

theorem Plays.settle {α : Type} (h : Plays host calm world first world') (pending : Nat) (a : α) :
    settle pending a ((performBeats host first).on world) = (.ok a, world') := by
  rw [h.on]
  rfl

/-- Ends a number of jumps after an action. -/
def landing : Nat → Act σ ε Unit → Act σ ε Unit
  | 0, act => act
  | jumps + 1, act => (landing jumps act).thenAlways (Beat.apply · .landed)

/-- Ending jumps performs its beats. -/
theorem landing_on (hhost : host.Aloof) {act : Act σ ε Unit}
    (hact : act.on world = (.ok (), world'))
    (hcalm : calm world'.bus world'.rest.host) (jumps : Nat) :
    ∃ world'', Plays host calm world' (List.replicate jumps .landed) world'' ∧
      (landing jumps act).on world = (.ok (), world'') := by
  induction jumps with
  | zero => exact ⟨world', ⟨rfl, hcalm, rfl⟩, hact⟩
  | succ jumps ih =>
    obtain ⟨landed, hplays, hon⟩ := ih
    have hlast : Plays host calm landed [.landed] _ := Plays.silent hhost hplays.calm rfl
    refine ⟨_, List.replicate_succ' ▸ hplays.append hlast, ?_⟩
    rw [landing, Act.on_thenAlways, hon]

theorem landing_congr {act act' : Act σ ε Unit} (h : act.on world = act'.on world') (jumps : Nat) :
    (landing jumps act).on world = (landing jumps act').on world' := by
  induction jumps with
  | zero => exact h
  | succ jumps ih => rw [landing, landing, Act.on_thenAlways, Act.on_thenAlways, ih]

/-- Runs commands and does what they were run for, unless one of them has taken the session away. -/
def carryOn (host : Host σ ε) (staging : Staging) (jump : String → Act σ ε Bool)
    (commands : List Command) : Errand → Act σ ε Unit
  | .shows node jumps =>
    landing jumps (runList host jump commands >>= fun moved =>
      if moved then pure () else present host node)
  | .goesOn wrap =>
    runList host jump commands >>= fun moved =>
      if moved then pure ()
      else do
        match (← Act.session).current with
        | none => throw .nodeGone
        | some placed => if placed.node.hasChoices then return else advance host staging placed wrap

theorem carryOn_congr (staging : Staging) {jump : String → Act σ ε Bool}
    {commands commands' : List Command}
    (h : (runList host jump commands).on world = (runList host jump commands').on world')
    (errand : Errand) :
    (carryOn host staging jump commands errand).on world =
      (carryOn host staging jump commands' errand).on world' := by
  cases errand with
  | shows node jumps =>
    refine landing_congr ?_ jumps
    rw [Act.on_bind, Act.on_bind, h]
  | goesOn wrap => rw [carryOn, carryOn, Act.on_bind, Act.on_bind, h]

section Answering

variable {trigger : Command} {answer : Act σ ε Unit} {jump : String → Act σ ε Bool}

/-- Commands are run up to the one that takes the session away, if none of them has an answer. -/
theorem runList_plays (answer : Act σ ε Unit) (hhost : host.Quiet calm)
    (htries : Tries staging jump) {list : List Command}
    (hbound : world.rest.session.staging = some staging) (hcalm : calm world.bus world.rest.host)
    (hran : trigger ∉ (Sweep.of staging.graph list world.rest.session.store).ran) :
    ∃ swept, Plays host calm world (asides staging.graph list world.rest.session.store) swept ∧
      swept.rest.session = keepStore
        (Sweep.of staging.graph list world.rest.session.store).store world.rest.session ∧
      (runList (host.answering trigger answer) jump list).on world =
        (leave host jump
          (Sweep.of staging.graph list world.rest.session.store).exit?).on swept := by
  obtain ⟨swept, hplays⟩ :=
    exists_plays hhost (asides staging.graph list world.rest.session.store) hcalm
  have hsame : ∀ command ∈ (Sweep.of staging.graph list world.rest.session.store).ran,
      runCommand (host.answering trigger answer) jump command = runCommand host jump command := by
    refine fun command hcommand => runCommand_answering ?_ jump
    rintro rfl
    exact hran hcommand
  refine ⟨swept, hplays, hplays.session.trans (replay_asides _ _ _), ?_⟩
  rw [runList_sweeps hhost.toAloof htries hbound hsame, Act.on_bind, hplays.on]

/-- Entering a node stops at the command that the host answers, within the jumps that have been
begun. -/
theorem enterWith_meets (answer : Act σ ε Unit) (hhost : host.Quiet calm)
    {left index jumps : Nat} {session : Session}
    {before : List Beat} {node : Node} {rest : List Command}
    (hmeets : Meets staging trigger left index session before node rest jumps)
    (hsession : world.rest.session = session) (hbound : session.staging = some staging)
    (hcalm : calm world.bus world.rest.host) (htries : Tries staging jump)
    (hjump : ∀ tag (world' : World σ), world'.rest.session.pending = session.pending →
      (jump tag).on world' = (commandJump (host.answering trigger answer) left tag).on world') :
    ∃ told jump', Plays host calm world before told ∧
      told.rest.session.staging = some staging ∧ Tries staging jump' ∧
      Follows host staging trigger (left - jumps) told.rest.session.pending jump' ∧
      (enterWith (host.answering trigger answer) jump index false).on world =
        (carryOn (host.answering trigger answer) staging jump' (trigger :: rest)
          (.shows node jumps)).on told := by
  induction hmeets generalizing world jump with
  | @here left index session placed first rest hplace hchoices hcommands hfirst hstays =>
    subst hsession
    let entered :=
      World.setSession world ((Beat.entered index placed false).apply world.rest.session)
    have hentered : Plays host calm world [.entered index placed false] entered :=
      Plays.silent hhost.toAloof hcalm rfl
    have hbound' : entered.rest.session.staging = some staging := hbound
    have hran : trigger ∉ (Sweep.of staging.graph first entered.rest.session.store).ran :=
      fun hmem => hfirst (Sweep.ran_prefix.subset hmem)
    obtain ⟨told, hplays, hswept, hlist⟩ :=
      runList_plays answer hhost htries hbound' hentered.calm hran
    have hstays' : (Sweep.of staging.graph first entered.rest.session.store).exit? = none := hstays
    have hpending : told.rest.session.pending = world.rest.session.pending := by rw [hswept]; rfl
    have htold : told.rest.session.staging = some staging := by rw [hswept]; exact hbound
    refine ⟨told, jump, hentered.append hplays, htold, htries, ?_, ?_⟩
    · intro tag index world' hbound' hpending' hindex hwithout
      rw [hjump tag world' (hpending'.trans hpending)]
      exact commandJump_answering hhost.toAloof staging left hbound' hpending' hindex hwithout
    · rw [enterWith_first _ _ hbound hplace, if_pos hchoices, hcommands, runList_append, bind_assoc,
        Act.on_bind, hlist, hstays']
      rfl
  | @beyond left index next jumps session placed tag before node rest sweep hplace
      hchoices hsweep hran
      hexit hmeets ih =>
    subst hsession hsweep
    let entered :=
      World.setSession world ((Beat.entered index placed false).apply world.rest.session)
    have hentered : Plays host calm world [.entered index placed false] entered :=
      Plays.silent hhost.toAloof hcalm rfl
    have hbound' : entered.rest.session.staging = some staging := hbound
    obtain ⟨swept, hplays, hswept, hlist⟩ :=
      runList_plays answer hhost htries hbound' hentered.calm hran
    let begun := World.setSession swept (Beat.leapt.apply swept.rest.session)
    have hbegun : Plays host calm swept [.leapt] begun := Plays.silent hhost.toAloof hplays.calm rfl
    have hbound'' : swept.rest.session.staging = some staging := by rw [hswept]; exact hbound
    have hpending : swept.rest.session.pending = world.rest.session.pending := by rw [hswept]; rfl
    have hsession : begun.rest.session = Beat.leapt.apply (keepStore
        (Sweep.of staging.graph placed.node.commands world.rest.session.store).store
          entered.rest.session) := congrArg Beat.leapt.apply hswept
    obtain ⟨told, jump', hbefore, htold, htries', hfollows, henter⟩ :=
      ih hsession hbound hbegun.calm
      (commandJump_tries (host.answering trigger answer) staging left) fun _ _ _ => rfl
    refine ⟨told, jump', hentered.append (hplays.append (hbegun.append hbefore)), htold,
      htries', ?_, ?_⟩
    · rw [Nat.add_sub_add_right]
      exact hfollows
    · have hexit' : (Sweep.of staging.graph placed.node.commands entered.rest.session.store).exit? =
          some (.toward tag next) := hexit
      have hindex := Sweep.indexOf?_of_exit? hexit
      rw [enterWith_first _ _ hbound hplace, if_pos hchoices, Act.on_bind, hlist, hexit', leave,
        hjump tag swept hpending, commandJump_eq _ left hbound'' hindex, Act.on_bind,
        Act.on_thenAlways,
        henter, carryOn, carryOn, landing, Act.on_thenAlways]
      rcases (landing jumps _).on told with ⟨fault | done, world'⟩
      · rfl
      · rfl

/-- Tells the host of a command, on which it makes its detour, and publishes the command then. -/
def interlude (host : Host σ ε) (trigger : Command) (detour : List Beat) : Act σ ε Unit :=
  tell host (.command trigger) >>= fun _ => performBeats host detour >>= fun _ =>
    publish host (.command trigger)

/-- The commands after the one that the host answers run in the session that the detour has left. -/
theorem runList_detour (hhost : host.Quiet calm) (hforeign : trigger.Foreign) (detour : Detour)
    (jump : String → Act σ ε Bool) (rest : List Command)
    (hbound : world.rest.session.staging = some staging) (hcalm : calm world.bus world.rest.host) :
    ∃ back, (interlude host trigger (detour.beats world.rest.session)).on world = (.ok (), back) ∧
      calm back.bus back.rest.host ∧
      back.rest.session = Beat.replay world.rest.session (detour.beats world.rest.session) ∧
      (runList (host.answering trigger (detour.act host)) jump (trigger :: rest)).on world =
        (runList (host.answering trigger (detour.act host)) jump rest).on back := by
  obtain ⟨htell, hcalm₁⟩ := hhost.handle_calm (.command trigger) world hcalm
  have hsession₁ := hhost.handle (.command trigger) world
  rcases hon₁ : (host.handle (.command trigger)).on world with ⟨result₁, world₁⟩
  rw [hon₁] at htell hcalm₁ hsession₁
  dsimp only at htell hsession₁
  subst htell
  obtain ⟨world₂, hplays⟩ := exists_plays hhost (detour.beats world₁.rest.session) hcalm₁
  have hact : (detour.act host).on world₁ = (.ok (), world₂) := by
    rw [detour.on_act hhost.toAloof (by rw [hsession₁]; exact hbound)]
    exact hplays.settle _ ()
  obtain ⟨hpublish, hcalm₃⟩ := hhost.publish_calm (.command trigger) world₂ hplays.calm
  have hsession₃ := send_session hhost.toAloof (.publish (.command trigger)) world₂
  rw [send] at hsession₃
  rcases hon₃ : (publish host (.command trigger)).on world₂ with ⟨result₃, back⟩
  rw [hon₃] at hpublish hcalm₃ hsession₃
  dsimp only at hpublish hsession₃
  subst hpublish
  have hbeats := hplays.on
  rw [hsession₁] at hbeats
  refine ⟨back, ?_, hcalm₃, ?_, ?_⟩
  · rw [interlude, Act.on_bind, tell, hon₁]
    dsimp only
    rw [Act.on_bind, hbeats]
    exact hon₃
  · rw [hsession₃, hplays.session, hsession₁]
  · rw [runList, runCommand_trigger hforeign, bind_assoc, Act.on_bind, tell, hon₁]
    dsimp only
    rw [bind_assoc, Act.on_bind, hact]
    dsimp only
    rw [bind_assoc, Act.on_bind, hon₃]
    rfl

section Resuming

variable {course : Course}

/-- Showing a node after commands that have run. -/
theorem carryOn_shows (staging : Staging) (hhost : host.Quiet calm) {rest : List Command}
    {swept : World σ} (hplays : Plays host calm world course.1 swept)
    (hlist : (runList (host.answering trigger answer) jump rest).on world = (.ok course.2, swept))
    (node : Node) (jumps : Nat) :
    ∃ after,
      Plays host calm world (course.1 ++
        ((if course.2 then [] else [.shown node]) ++ List.replicate jumps .landed)) after ∧
      (carryOn (host.answering trigger answer) staging jump rest (.shows node jumps)).on world =
        (.ok (), after) := by
  let act : Act σ ε Unit := runList (host.answering trigger answer) jump rest >>= fun moved =>
    if moved then pure () else present (host.answering trigger answer) node
  have hact : ∃ shown, Plays host calm world
      (course.1 ++ if course.2 then [] else [.shown node]) shown ∧
      act.on world = (.ok (), shown) := by
    simp only [act, Act.on_bind, hlist, present_answering]
    cases course.2 with
    | true => exact ⟨swept, hplays.append ⟨rfl, hplays.calm, rfl⟩, rfl⟩
    | false =>
      obtain ⟨shown, hshown⟩ := exists_plays hhost [.shown node] hplays.calm
      refine ⟨shown, hplays.append hshown, ?_⟩
      have hon := hshown.on
      rw [performBeats, Act.on_bind, performBeat_shown hhost.toAloof] at hon
      rcases hpresent : (present host node).on swept with ⟨fault | done, world'⟩
      · rw [hpresent] at hon
        cases hon
      · rw [hpresent] at hon
        cases hon
        exact hpresent
  obtain ⟨shown, hshown, hon⟩ := hact
  obtain ⟨landed, hlanded, hlanding⟩ := landing_on hhost.toAloof hon hshown.calm jumps
  exact ⟨landed, List.append_assoc _ _ _ ▸ hshown.append hlanded, hlanding⟩

/-- Going on after commands that have left the session where it was. -/
theorem carryOn_goesOn (hhost : host.Quiet calm) {rest : List Command} {swept : World σ}
    (hplays : Plays host calm world course.1 swept)
    (hlist : (runList (host.answering trigger answer) jump rest).on world = (.ok false, swept))
    (hbound : swept.rest.session.staging = some staging) {wrap : Bool}
    (hwithout : Beat.Without trigger (proceeding staging wrap swept.rest.session)) :
    ∃ after, Plays host calm world (course.1 ++ proceeding staging wrap swept.rest.session) after ∧
      (carryOn (host.answering trigger answer) staging jump rest (.goesOn wrap)).on world =
        (if swept.rest.session.current.isNone then .error .nodeGone else .ok (), after) := by
  simp only [carryOn, Act.on_bind, hlist, Bool.false_eq_true, if_false, Act.on_session]
  rw [proceeding] at hwithout ⊢
  cases hcurrent : swept.rest.session.current with
  | none => exact ⟨swept, hplays.append ⟨rfl, hplays.calm, rfl⟩, rfl⟩
  | some placed =>
    rw [hcurrent] at hwithout
    dsimp only at hwithout ⊢
    cases hchoices : placed.node.hasChoices with
    | true => exact ⟨swept, hplays.append ⟨rfl, hplays.calm, rfl⟩, rfl⟩
    | false =>
      rw [hchoices, if_neg Bool.false_ne_true] at hwithout
      obtain ⟨after, hafter⟩ := exists_plays hhost
        (advancing staging placed wrap swept.rest.session) hplays.calm
      refine ⟨after, hplays.append hafter, ?_⟩
      rw [if_neg Bool.false_ne_true, advance_answering hhost.toAloof hbound hwithout]
      exact hafter.settle _ ()

/-- What is left of a move is performed in the session that the detour has left, if the host has
no further answer. -/
theorem carryOn_plays (answer : Act σ ε Unit) (hhost : host.Quiet calm)
    (htries : Tries staging jump) {pause : Pause}
    (hfollows : Follows host staging trigger pause.left world.rest.session.pending jump)
    (hbound : world.rest.session.staging = some staging) (hcalm : calm world.bus world.rest.host)
    (hwithout : Beat.Without trigger (pause.resumed staging world.rest.session)) :
    ∃ after, Plays host calm world (pause.resumed staging world.rest.session) after ∧
      (pause.Stranded staging world.rest.session →
        (carryOn (host.answering trigger answer) staging jump pause.rest pause.errand).on world =
          (.error .nodeGone, after)) ∧
      (¬ pause.Stranded staging world.rest.session →
        (carryOn (host.answering trigger answer) staging jump pause.rest pause.errand).on world =
          (.ok (), after)) := by
  obtain ⟨before, rest, left, errand⟩ := pause
  let course := commands staging (leaping staging left) rest world.rest.session
  have hcourse : Beat.Without trigger course.1 := fun hmem => hwithout (List.mem_append_left _ hmem)
  obtain ⟨swept, hplays⟩ := exists_plays hhost course.1 hcalm
  have hlist :
      (runList (host.answering trigger answer) jump rest).on world = (.ok course.2, swept) :=
    (runList_answering hhost.toAloof htries hfollows hbound hcourse).trans (hplays.settle _ _)
  cases errand with
  | shows node jumps =>
    obtain ⟨after, hafter, hon⟩ := carryOn_shows staging hhost hplays hlist node jumps
    refine ⟨after, hafter, fun hstranded => ?_, fun _ => hon⟩
    obtain ⟨⟨wrap, herrand⟩, -⟩ := hstranded
    cases herrand
  | goesOn wrap =>
    rw [Pause.resumed, Pause.Stranded, Pause.course] at *
    dsimp only at *
    cases hmoved : (commands staging (leaping staging left) rest world.rest.session).2 with
    | true =>
      refine ⟨swept, hplays.append ⟨rfl, hplays.calm, rfl⟩, fun hstranded => ?_, fun _ => ?_⟩
      · cases hstranded.2.1
      · rw [carryOn, Act.on_bind, hlist]
        dsimp only
        rw [show course.2 = true from hmoved]
        rfl
    | false =>
      -- The commands have left the session where it was.
      obtain ⟨store, hstore⟩ := exists_keepStore_commands hmoved
      have hswept : swept.rest.session = keepStore store world.rest.session :=
        hplays.session.trans hstore
      have hbound' : swept.rest.session.staging = some staging := by rw [hswept]; exact hbound
      have hcurrent : swept.rest.session.current = world.rest.session.current := by rw [hswept]; rfl
      rw [hmoved] at hwithout
      rw [← hplays.session] at hwithout ⊢
      obtain ⟨after, hafter, hon⟩ :=
        carryOn_goesOn hhost hplays (hmoved ▸ hlist) hbound' fun hmem =>
        hwithout (List.mem_append_right _ hmem)
      refine ⟨after, hafter, fun hstranded => ?_, fun hstranded => ?_⟩
      · rw [hon, hcurrent, hstranded.2.2]
        rfl
      · have hshows : world.rest.session.current.isNone = false := by
          rw [← Bool.not_eq_true, Option.isNone_iff_eq_none]
          exact fun hnone => hstranded ⟨⟨wrap, rfl⟩, rfl, hnone⟩
        rw [hon, hcurrent, hshows]
        rfl

end Resuming

/-! ## Moves -/

/-- A move that changes nothing directly is called. -/
theorem plays_called (hhost : host.Aloof) {move : Move} (hcalm : calm world.bus world.rest.host)
    (hopening : move.opening world.rest.session = world.rest.session) :
    Plays host calm world [.called move] world := by
  have hcalled : Plays host calm world [.called move] _ := Plays.silent hhost hcalm rfl
  rw [Beat.apply, hopening, World.setSession_self] at hcalled
  exact hcalled

/-- Going on from a node runs its commands first, unless they have been started. This holds of every
host. -/
theorem next_eq (host : Host σ ε) (wrap : Bool) {placed : Placed}
    (hbound : world.rest.session.staging = some staging)
    (hcurrent : world.rest.session.current = some placed) :
    (next host wrap).on world =
      if world.rest.session.hasRun then
        (carryOn host staging (jumpNow host) [] (.goesOn wrap)).on world
      else
        (carryOn host staging (jumpNow host) placed.node.commands (.goesOn wrap)).on
          (World.setSession world (Beat.begun.apply world.rest.session)) := by
  rw [next, Act.on_bind, on_bound hbound]
  dsimp only
  rw [Act.on_bind, Act.on_session]
  dsimp only
  rw [hcurrent]
  dsimp only
  rw [runPending, Act.on_bind, Act.on_bind, Act.on_session]
  dsimp only
  rw [hcurrent]
  dsimp only
  cases world.rest.session.hasRun with
  | true => rfl
  | false =>
    rw [if_neg Bool.false_ne_true, if_neg Bool.false_ne_true, Act.on_bind, Act.on_modifySession,
      carryOn, Act.on_bind]
    rfl

/-- The commands of the node on screen are run up to the one that takes the session away, if none
of them has an answer. -/
theorem next_plays (hhost : host.Quiet calm) {wrap : Bool} {placed : Placed}
    (hbound : world.rest.session.staging = some staging)
    (hcurrent : world.rest.session.current = some placed) (hcalm : calm world.bus world.rest.host)
    (hwithout : Beat.Without trigger ((Move.next wrap).prelude world.rest.session)) :
    ∃ swept store hasRun, Plays host calm world
        (.called (.next wrap) :: (Move.next wrap).prelude world.rest.session) swept ∧
      swept.rest.session = { world.rest.session with store, hasRun } ∧
      (next (host.answering trigger answer) wrap).on world =
        (leave host (jumpNow (host.answering trigger answer))
            (((Move.next wrap).sweep? world.rest.session).bind Sweep.exit?) >>= fun moved =>
          if moved then pure ()
          else carryOn (host.answering trigger answer) staging
            (jumpNow (host.answering trigger answer)) [] (.goesOn wrap)).on swept := by
  have hcalled : Plays host calm world [.called (.next wrap)] world :=
    plays_called hhost.toAloof hcalm rfl
  cases hrun : world.rest.session.hasRun with
  | true =>
    have hstarts : (Move.next wrap).starts? world.rest.session = none := by
      simp [Move.starts?, hbound, hcurrent, hrun]
    refine ⟨world, world.rest.session.store, true, ?_, ?_, ?_⟩
    · rw [Move.prelude, hstarts]
      exact hcalled
    · rw [← hrun]
    · rw [next_eq _ wrap hbound hcurrent, hrun, Move.sweep?, hstarts]
      rfl
  | false =>
    have hstarts : (Move.next wrap).starts? world.rest.session = some (staging, placed) := by
      simp [Move.starts?, hbound, hcurrent, hrun]
    have hprelude : (Move.next wrap).prelude world.rest.session =
        .begun :: asides staging.graph placed.node.commands world.rest.session.store := by
      rw [Move.prelude, hstarts]
      rfl
    rw [hprelude] at hwithout ⊢
    let begun := World.setSession world (Beat.begun.apply world.rest.session)
    have hbegun : Plays host calm world [.begun] begun := Plays.silent hhost.toAloof hcalm rfl
    have hbound' : begun.rest.session.staging = some staging := hbound
    have hran :
        trigger ∉ (Sweep.of staging.graph placed.node.commands begun.rest.session.store).ran :=
      not_mem_ran_of_without fun hmem => hwithout (List.mem_cons_of_mem _ hmem)
    obtain ⟨swept, hplays, hswept, hlist⟩ :=
      runList_plays answer hhost (jumpNow_tries _ staging) hbound' hbegun.calm hran
    refine ⟨swept, _, true, hcalled.append (hbegun.append hplays), hswept, ?_⟩
    rw [next_eq _ wrap hbound hcurrent, hrun, if_neg Bool.false_ne_true, carryOn,
      Act.on_bind, hlist, Move.sweep?, hstarts, Act.on_bind]
    rfl

theorem played_congr {act act' : Act σ ε Unit} (h : act.on world = act'.on world') :
    Move.played act world = Move.played act' world' := by
  rw [Move.played, Move.played, h]

/-- Going to the node with a tag enters it. This holds of every host. -/
theorem jump_eq (host : Host σ ε) {tag : String} {index : Nat}
    (hbound : world.rest.session.staging = some staging)
    (hseeking : Departure.seeking tag world.rest.session = .enters index) :
    index < staging.graph.size ∧
      (Session.jump host tag).on world = (enter host index false).on world := by
  rw [Departure.seeking, hbound] at hseeking
  dsimp only at hseeking
  split at hseeking
  · cases hseeking
  · next hindex =>
    cases hseeking
    refine ⟨Graph.lt_size_of_indexOf? hindex, ?_⟩
    simp only [Session.jump, Act.on_bind, on_bound hbound, hindex]

/-- A move to another node runs the commands that come first and enters it. -/
theorem perform_enters (answer : Act σ ε Unit) (hhost : host.Quiet calm) {move : Move} {index : Nat}
    (hbound : world.rest.session.staging = some staging) (hcalm : calm world.bus world.rest.host)
    (hdeparture : move.departure world.rest.session = .enters index)
    (hwithout : Beat.Without trigger (move.prelude world.rest.session)) :
    ∃ swept, Plays host calm world (.called move :: move.prelude world.rest.session) swept ∧
      index < staging.graph.size ∧
      move.perform (host.answering trigger answer) world =
        Move.played (enter (host.answering trigger answer) index false) swept := by
  have hinside : index < staging.graph.size := by
    have h := move.inside_departure hbound
    rw [hdeparture] at h
    exact h
  have hcalled : move.opening world.rest.session = world.rest.session →
      Plays host calm world [.called move] world := plays_called hhost.toAloof hcalm
  cases move with
  | start =>
    simp only [Move.departure, hbound] at hdeparture
    split at hdeparture
    · cases hdeparture
    · next hempty =>
      cases hdeparture
      refine ⟨world, hcalled rfl, hinside, played_congr ?_⟩
      simp only [start, Act.on_bind, on_bound hbound, if_neg hempty]
  | jumpTo place =>
    simp only [Move.departure, hbound] at hdeparture
    split at hdeparture
    · next hplace =>
      cases hdeparture
      refine ⟨world, hcalled rfl, hinside, played_congr ?_⟩
      simp only [jumpTo, Act.on_bind, on_bound hbound, if_pos hplace]
    · cases hdeparture
  | jump tag =>
    exact ⟨world, hcalled rfl, hinside, played_congr (jump_eq _ hbound hdeparture).2⟩
  | select place =>
    rw [Move.departure] at hdeparture
    split at hdeparture
    · cases hdeparture
    · next placed hopen =>
      split at hdeparture
      · cases hdeparture
      · next choice hchoice =>
        refine ⟨world, hcalled rfl, hinside, played_congr ?_⟩
        rw [← (jump_eq _ hbound hdeparture).2, select, Act.on_bind, Act.on_session]
        dsimp only
        rw [hopen]
        dsimp only
        rw [hchoice]
  | next wrap =>
    cases hcurrent : world.rest.session.current with
    | none =>
      simp only [Move.departure, hbound, hcurrent] at hdeparture
      split at hdeparture
      · cases hdeparture
      · next hempty =>
        cases hdeparture
        refine ⟨world, ?_, hinside, played_congr ?_⟩
        · rw [Move.prelude, Move.starts?, hbound, hcurrent]
          exact hcalled rfl
        · simp only [next, Act.on_bind, on_bound hbound, Act.on_session, hcurrent, if_neg hempty]
    | some placed =>
      obtain ⟨swept, store, hasRun, hplays, hswept, hnext⟩ :=
        next_plays hhost hbound hcurrent hcalm hwithout
      simp only [Move.departure, hbound, hcurrent] at hdeparture
      refine ⟨swept, hplays, hinside, played_congr (hnext.trans ?_)⟩
      cases hexit : ((Move.next wrap).sweep? world.rest.session).bind Sweep.exit? with
      | some exit =>
        rw [hexit] at hdeparture
        cases exit <;> cases hdeparture
      | none =>
        rw [hexit, Option.elim_none, Departure.advancing] at hdeparture
        split at hdeparture
        · cases hdeparture
        · next hchoices =>
          have hfollowing : following? staging placed wrap swept.rest.session = some index := by
            rw [hswept]
            change following? staging placed wrap world.rest.session = some index
            split at hdeparture
            · cases hdeparture
            · next hindex =>
              cases hdeparture
              exact hindex
          have hcurrent' : swept.rest.session.current = some placed := by
            rw [hswept]; exact hcurrent
          rw [leave, carryOn, runList, pure_bind, pure_bind, if_neg Bool.false_ne_true,
            if_neg Bool.false_ne_true, Act.on_bind, Act.on_session]
          dsimp only
          rw [hcurrent']
          dsimp only
          rw [if_neg hchoices, advance_eq, hfollowing]
  | setVariable name offer =>
    rw [Move.departure] at hdeparture
    split at hdeparture <;> cases hdeparture
  | _ => cases hdeparture

/-- A move in which a command jumps runs the commands that come first and begins the jump. -/
theorem perform_leaps (answer : Act σ ε Unit) (hhost : host.Quiet calm) {move : Move} {tag : String}
    {index : Nat}
    (hbound : world.rest.session.staging = some staging) (hcalm : calm world.bus world.rest.host)
    (hpending : world.rest.session.pending = 0)
    (hdeparture : move.departure world.rest.session = .leaps tag index)
    (hwithout : Beat.Without trigger (move.prelude world.rest.session)) :
    ∃ swept, Plays host calm world (.called move :: move.prelude world.rest.session) swept ∧
      move.perform (host.answering trigger answer) world =
        Move.played ((enterWith (host.answering trigger answer)
          (commandJump (host.answering trigger answer) (maxJumps - 1)) index false).thenAlways
            (Beat.apply · .landed))
          (World.setSession swept (Beat.leapt.apply swept.rest.session)) := by
  have hindex : staging.graph.indexOf? tag = some index := by
    have h := move.inside_departure hbound
    rw [hdeparture] at h
    exact h
  obtain ⟨wrap, placed, rfl, hcurrent, hexit⟩ := Move.exists_next_of_leaps hbound hdeparture
  obtain ⟨swept, store, hasRun, hplays, hswept, hnext⟩ :=
    next_plays hhost hbound hcurrent hcalm hwithout
  have hbound' : swept.rest.session.staging = some staging := by rw [hswept]; exact hbound
  have hpending' : swept.rest.session.pending = 0 := by rw [hswept]; exact hpending
  refine ⟨swept, hplays, played_congr (hnext.trans ?_)⟩
  rw [hexit, Act.on_bind, leave, jumpNow, Act.on_bind, Act.on_session]
  dsimp only
  rw [hpending', show maxJumps - 0 = maxJumps - 1 + 1 from rfl, commandJump_eq _ _ hbound' hindex,
    Act.on_bind]
  rcases Act.on (Act.thenAlways _ _) _ with ⟨fault | done, world'⟩
  · rfl
  · rfl

/-- A move tells the host of the command after the beats of its pause, and then carries on with
what is left. -/
theorem perform_pauses (answer : Act σ ε Unit) (hhost : host.Quiet calm) {move : Move}
    {pause : Pause} (hpauses : move.Pauses staging trigger world.rest.session pause)
    (hbound : world.rest.session.staging = some staging) (hcalm : calm world.bus world.rest.host)
    (hpending : world.rest.session.pending = 0) :
    ∃ told jump', Plays host calm world pause.before told ∧
      told.rest.session.staging = some staging ∧ Tries staging jump' ∧
      Follows host staging trigger pause.left told.rest.session.pending jump' ∧
      move.perform (host.answering trigger answer) world =
        Move.played (carryOn (host.answering trigger answer) staging jump' (trigger :: pause.rest)
          pause.errand) told := by
  have hprelude := Orderly.prelude world.rest.session move
  have hbound' : (Beat.replay world.rest.session (move.prelude world.rest.session)).staging =
      some staging := hprelude.staging.trans hbound
  cases hpauses with
  | @own wrap placed first rest hstarts hcommands hfirst hstays =>
    obtain ⟨-, hcurrent, hrun⟩ := Move.starts?_eq_some hstarts
    let begun := World.setSession world (Beat.begun.apply world.rest.session)
    have hcalled : Plays host calm world [.called (.next wrap)] world :=
      plays_called hhost.toAloof hcalm rfl
    have hbegun : Plays host calm world [.begun] begun := Plays.silent hhost.toAloof hcalm rfl
    have hbegun' : begun.rest.session.staging = some staging := hbound
    have hran : trigger ∉ (Sweep.of staging.graph first begun.rest.session.store).ran :=
      fun hmem => hfirst (Sweep.ran_prefix.subset hmem)
    have hstays' : (Sweep.of staging.graph first begun.rest.session.store).exit? = none := hstays
    have htries := jumpNow_tries (host.answering trigger answer) staging
    obtain ⟨told, hplays, htold, hlist⟩ :=
      runList_plays answer hhost htries hbegun' hbegun.calm hran
    have hpending' : told.rest.session.pending = 0 := by rw [htold]; exact hpending
    have hbound'' : told.rest.session.staging = some staging := by rw [htold]; exact hbound
    refine ⟨told, jumpNow (host.answering trigger answer), hcalled.append (hbegun.append hplays),
      hbound'', htries,
      jumpNow_answering hhost.toAloof staging (by rw [hpending']; rfl), played_congr ?_⟩
    rw [next_eq _ wrap hbound hcurrent, hrun, if_neg Bool.false_ne_true, hcommands, carryOn,
      runList_append, bind_assoc, Act.on_bind, hlist, hstays']
    rfl
  | @enters _ index jumps before node rest hdeparture hwithout hmeets =>
    obtain ⟨swept, hplays, hinside, hperform⟩ :=
      perform_enters answer hhost hbound hcalm hdeparture hwithout
    have hgoes : (move.departure world.rest.session).Goes := by rw [hdeparture]; trivial
    have hswept : swept.rest.session =
        Beat.replay world.rest.session (move.prelude world.rest.session) := by
      rw [hplays.session, Beat.replay_cons, Beat.apply, Move.opening_of_goes hgoes]
    have hpending' : swept.rest.session.pending = 0 := by
      rw [hswept, hprelude.pending, hpending]
    obtain ⟨told, jump', hbefore, htold, htries, hfollows, henter⟩ :=
      enterWith_meets answer hhost hmeets
      hswept hbound' hplays.calm (jumpNow_tries (host.answering trigger answer) staging)
      fun tag world' hpending'' => by
        rw [jumpNow, Act.on_bind, Act.on_session]
        dsimp only
        rw [hpending'', ← hswept, hpending']
        rfl
    exact ⟨told, jump', hplays.append hbefore, htold, htries, hfollows,
      hperform.trans (played_congr henter)⟩
  | @leaps _ tag index jumps before node rest hdeparture hwithout hmeets =>
    obtain ⟨swept, hplays, hperform⟩ :=
      perform_leaps answer hhost hbound hcalm hpending hdeparture hwithout
    have hgoes : (move.departure world.rest.session).Goes := by rw [hdeparture]; trivial
    have hswept : swept.rest.session =
        Beat.replay world.rest.session (move.prelude world.rest.session) := by
      rw [hplays.session, Beat.replay_cons, Beat.apply, Move.opening_of_goes hgoes]
    let begun := World.setSession swept (Beat.leapt.apply swept.rest.session)
    have hbegun : Plays host calm swept [.leapt] begun := Plays.silent hhost.toAloof hplays.calm rfl
    have hsession : begun.rest.session = Beat.leapt.apply
        (Beat.replay world.rest.session (move.prelude world.rest.session)) :=
      congrArg Beat.leapt.apply hswept
    obtain ⟨told, jump', hbefore, htold, htries, hfollows, henter⟩ :=
      enterWith_meets answer hhost hmeets
      hsession hbound' hbegun.calm (commandJump_tries (host.answering trigger answer) staging _)
      fun _ _ _ => rfl
    refine ⟨told, jump', ?_, htold, htries, hfollows, hperform.trans (played_congr ?_)⟩
    · have hall := hplays.append (hbegun.append hbefore)
      exact hall
    · rw [Act.on_thenAlways, henter, carryOn, carryOn, landing, Act.on_thenAlways]

/-- Performs beats up to a command, then tells the host of it, and performs other beats after its
detour. -/
def withDetour (host : Host σ ε) (trigger : Command) (before detour after : List Beat) :
    Act σ ε Unit :=
  performBeats host before >>= fun _ => interlude host trigger detour >>= fun _ =>
    performBeats host after

/-- A move with a detour: its beats up to the command, the detour, and what is left of it. It
fails if the player was to go on and nothing is on screen any more. -/
theorem perform_detour (hhost : host.Quiet calm) (hforeign : trigger.Foreign) {move : Move}
    {pause : Pause} (hpauses : move.Pauses staging trigger world.rest.session pause)
    (hbound : world.rest.session.staging = some staging) (hcalm : calm world.bus world.rest.host)
    (hpending : world.rest.session.pending = 0) (detour : Detour) {told left : Session}
    (htold : told = Beat.replay world.rest.session pause.before)
    (hleft : left = Beat.replay told (detour.beats told))
    (hwithout : Beat.Without trigger (pause.resumed staging left)) :
    ∃ after : World σ,
      (withDetour host trigger pause.before (detour.beats told)
        (pause.resumed staging left)).on world = (.ok (), after) ∧
      after.rest.session = Beat.replay left (pause.resumed staging left) ∧
      told.staging = some staging ∧
      (pause.Stranded staging left →
        move.perform (host.answering trigger (detour.act host)) world =
          (.error (.fault .nodeGone), after)) ∧
      (¬ pause.Stranded staging left →
        move.perform (host.answering trigger (detour.act host)) world = (.ok (), after)) := by
  obtain ⟨now, jump', hbefore, hbound', htries, hfollows, hperform⟩ :=
    perform_pauses (detour.act host) hhost hpauses hbound hcalm hpending
  rw [← hbefore.session] at htold
  subst htold
  obtain ⟨back, hinterlude, hcalm', hback, hlist⟩ :=
    runList_detour hhost hforeign detour jump' pause.rest hbound' hbefore.calm
  rw [← hleft] at hback
  have horderly := detour.orderly now.rest.session
  have hbound'' : back.rest.session.staging = some staging := by
    rw [hback, hleft, horderly.staging, hbound']
  have hpending' : back.rest.session.pending = now.rest.session.pending := by
    rw [hback, hleft, horderly.pending]
  rw [← hpending'] at hfollows
  rw [← hback] at hwithout ⊢
  obtain ⟨after, hafter, hstranded, hgoes⟩ :=
    carryOn_plays (detour.act host) hhost htries hfollows hbound'' hcalm' hwithout
  have hcarry := carryOn_congr staging hlist pause.errand
  refine ⟨after, ?_, hafter.session, hbound', fun h => ?_, fun h => ?_⟩
  · rw [withDetour, Act.on_bind, hbefore.on]
    dsimp only
    rw [Act.on_bind, hinterlude]
    exact hafter.on
  · rw [hperform, Move.played, hcarry, hstranded h]
    rfl
  · rw [hperform, Move.played, hcarry, hgoes h]
    rfl

end Answering

end Session

/-- A host stops a session, or goes to another node, when it is told of a command that runs in a
move. The move then does what is left of it in the session that the detour has left. It fails if
the player was to go on and nothing is on screen any more. A node that was being entered is shown,
though the session is at another one. -/
theorem detour_resumes {host : Host σ ε} {calm : Bus Notice.Kind String Notice → σ → Prop}
    {world : World σ} (hhost : host.Quiet calm) (hreached : Reached ε world)
    (hcalm : calm world.bus world.rest.host) {trigger : Command} (hforeign : trigger.Foreign)
    (move : Move) (detour : Detour) :
    let session := world.rest.session
    (.ran trigger ∈ move.beats session →
      ∃ staging pause, session.staging = some staging ∧
        move.Pauses staging trigger session pause) ∧
    ∀ staging pause, session.staging = some staging → move.Pauses staging trigger session pause →
      let told := Beat.replay session pause.before
      let left := Beat.replay told (detour.beats told)
      let resumed := pause.resumed staging left
      let answering := host.answering trigger (detour.act host)
      let outcome := move.perform answering world
      Beat.Without trigger (detour.beats told) → Beat.Without trigger resumed →
        (∀ now : World σ, now.rest.session = told →
          (detour.act answering).on now = (detour.act host).on now) ∧
        (Session.withDetour host trigger pause.before (detour.beats told) resumed).on world =
          (.ok (), outcome.2) ∧
        outcome.2.rest.session = Beat.replay left resumed ∧
        (pause.Stranded staging left → outcome.1 = .error (.fault .nodeGone)) ∧
        (¬ pause.Stranded staging left → outcome.1 = .ok ()) ∧
        ∀ node jumps, pause.errand = .shows node jumps → (pause.course staging left).2 = false →
          .shown node ∈ resumed ∧ outcome.2.rest.session.current = left.current := by
  intro session
  have hsettled := hreached.settled
  refine ⟨Move.exists_pause hforeign hsettled, ?_⟩
  intro staging pause hbound hpauses told left resumed answering outcome hdetour hresumed
  obtain ⟨after, hon, hsession, htold, hstranded, hgoes⟩ :=
    Session.perform_detour hhost hforeign hpauses
    hbound hcalm hsettled.pending detour rfl rfl hresumed
  have hafter : outcome.2 = after := by
    by_cases h : pause.Stranded staging left
    · exact congrArg Prod.snd (hstranded h)
    · exact congrArg Prod.snd (hgoes h)
  refine ⟨fun now hnow => ?_, ?_, ?_, fun h => congrArg Prod.fst (hstranded h),
    fun h => congrArg Prod.fst (hgoes h), fun node jumps herrand hstays => ?_⟩
  · have hbound' : now.rest.session.staging = some staging := by rw [hnow]; exact htold
    have hdetour' : Beat.Without trigger (detour.beats now.rest.session) := by
      rw [hnow]; exact hdetour
    exact detour.on_act_answering hhost.toAloof hbound' hdetour'
  · rw [hafter]
    exact hon
  · rw [hafter]
    exact hsession
  · obtain ⟨hshown, hcurrent⟩ := Pause.current_resumed herrand hstays
    refine ⟨hshown, ?_⟩
    rw [hafter, hsession]
    exact hcurrent

/-- The first node offers a choice, and its command makes the host go to the second node. The
first node is shown after the second one, and then the session is at the second one. -/
theorem detour_resumes_jump :
    let ring : Command := ⟨"ring", none⟩
    let attic : Node :=
      { tag := "attic", speaker := "Ann", text := "Hi.", commands := [ring]
        choices := [⟨"Down", "cellar"⟩] }
    let cellar : Node := { tag := "cellar", speaker := "Bob", text := "Bye." }
    let graph : Graph := ⟨[attic, cellar], by decide⟩
    let world : World (List (Notice × Store)) :=
      { bus := {}, rest := { session := { staging := some (.ofGraph graph) }, host := [] } }
    let host := Host.recorder.answering ring ((Detour.jump "cellar").act Host.recorder)
    (Move.start.perform host world).1 = .ok () ∧
      (Move.start.perform host world).2.rest.session.current = some ⟨cellar, 1⟩ ∧
      (Move.start.perform host world).2.rest.host.map Prod.fst =
        [.command ring, .speaker "Bob", .speech "Bye.", .speaker "Ann", .speech "Hi.",
          .choices [⟨"Down", "cellar"⟩]] := by
  intro ring attic cellar graph world host
  have hforeign : ring.Foreign := fun _ => rfl
  have hreached : Reached Unit world := .fresh ⟨_, _, rfl⟩
  have hsilent : Live.Silent world.bus := ⟨rfl, rfl, rfl⟩
  let staging : Staging := .ofGraph graph
  let pause : Pause :=
    ⟨[.called .start, .entered 0 ⟨attic, 0⟩ false], [], Session.maxJumps, .shows attic 0⟩
  have hbound : world.rest.session.staging = some staging := rfl
  have hcommands : attic.commands = [] ++ ring :: [] := rfl
  have hmeets : Course.Meets staging ring Session.maxJumps 0 world.rest.session
      [.entered 0 ⟨attic, 0⟩ false] attic [] 0 :=
    .here rfl rfl hcommands List.not_mem_nil rfl
  have hprelude : Beat.Without ring (Move.start.prelude world.rest.session) := List.not_mem_nil
  have hpauses : Move.start.Pauses staging ring world.rest.session pause :=
    .enters rfl hprelude hmeets
  obtain ⟨-, hdetour⟩ := detour_resumes Host.quiet_recorder hreached hsilent hforeign .start
    (.jump "cellar")
  let told := Beat.replay world.rest.session pause.before
  have hbeats : Detour.beats told (.jump "cellar") =
      [.entered 1 ⟨cellar, 1⟩ false, .shown cellar] := rfl
  have hwithout : Beat.Without ring (Detour.beats told (.jump "cellar")) := by
    rw [hbeats]
    simp [Beat.Without]
  have hresumed : Beat.Without ring (pause.resumed staging
      (Beat.replay told (Detour.beats told (.jump "cellar")))) := by
    rw [show pause.resumed staging _ = [.shown attic] from rfl]
    simp [Beat.Without]
  obtain ⟨-, -, -, -, hgoes, hshows⟩ := hdetour staging pause hbound hpauses hwithout hresumed
  refine ⟨hgoes ?_, (hshows attic 0 rfl rfl).2, by decide +kernel⟩
  rintro ⟨⟨wrap, herrand⟩, -⟩
  cases herrand

/-- The player goes on from a node whose command makes the host stop the session. That fails,
though the command has moved the session as one that closes it would have done. -/
theorem not_returns_from_stop :
    let halt : Command := ⟨"halt", none⟩
    let graph : Graph := ⟨[
      { tag := "start", speaker := "Ann", text := "Hi.", commands := [halt] },
      { tag := "end", speaker := "Bob", text := "Bye." }], by decide⟩
    let world : World (List (Notice × Store)) :=
      { bus := {}, rest := { session := { staging := some (.ofGraph graph) }, host := [] } }
    let host := Host.recorder.answering halt (Detour.stop.act Host.recorder)
    let started := (Move.start.perform host world).2
    halt.Foreign ∧ started.rest.session.current.isSome ∧
      ((Move.next false).perform host started).1 = .error (.fault .nodeGone) ∧
      ((Move.next false).perform host started).2.rest.session.current = none ∧
      ((Move.next false).perform host started).2.rest.host.map Prod.fst =
        started.rest.host.map Prod.fst ++ [.command halt, .completed] := by
  intro halt graph world host started
  exact ⟨fun _ => rfl, by decide +kernel, rfl, by decide +kernel, by decide +kernel⟩

end Colloquy
