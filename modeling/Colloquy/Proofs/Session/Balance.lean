import Colloquy.Proofs.Session.Answers

/-!
# Jumps under way

A session counts the jumps that commands have begun and that have not ended. A jump adds one and
takes it off again, even if it fails. So, if the host leaves the count alone, every move leaves it
as it was (`Move.pending_perform`), and so does a host that calls back with such actions
(`Host.Balanced.answering`).

The count decides how many jumps are left. While it is a certain number, it makes no difference
whether an action looks at the count when a command jumps or has been told beforehand what is left
(`enterWith_commandJump`).
-/

namespace Colloquy

variable {σ ε α β : Type}

/-! ## Actions that leave the count alone -/

/-- An action leaves the number of jumps under way as it was. -/
def Act.Keeps (act : Act σ ε α) : Prop :=
  ∀ world, (act.on world).2.rest.session.pending = world.rest.session.pending

/-- Two actions do the same while a certain number of jumps is under way. -/
def Act.AgreeAt (count : Nat) (act other : Act σ ε α) : Prop :=
  ∀ world, world.rest.session.pending = count → act.on world = other.on world

/-- Neither the handler nor a listener leaves another number of jumps under way behind. -/
structure Host.Balanced (host : Host σ ε) : Prop where
  handle : ∀ notice, (host.handle notice).Keeps
  listen : ∀ name event world,
    (host.listen name event world).state.rest.session.pending = world.rest.session.pending

theorem Host.Aloof.balanced {host : Host σ ε} (hhost : host.Aloof) : host.Balanced where
  handle notice world := by rw [hhost.handle]
  listen name event world := by rw [hhost.listen]

namespace Act

theorem keeps_pure (a : α) : (pure a : Act σ ε α).Keeps := fun _ => rfl

theorem keeps_throw (fault : Fault ε) : (throw fault : Act σ ε α).Keeps := fun _ => rfl

theorem keeps_session : (session : Act σ ε Session).Keeps := fun _ => rfl

theorem keeps_log (level : Level) (message : String) :
    (log level message : Act σ ε Unit).Keeps := fun _ => rfl

theorem keeps_modifySession {change : Session → Session}
    (h : ∀ session, (change session).pending = session.pending) :
    (modifySession change : Act σ ε Unit).Keeps := fun _ => h _

theorem Keeps.bind {act : Act σ ε α} {next : α → Act σ ε β} (hact : act.Keeps)
    (hnext : ∀ a, (next a).Keeps) :
    (act >>= next).Keeps := by
  intro world
  have hkept := hact world
  rw [on_bind]
  split
  · next heq =>
    rw [heq] at hkept
    exact (hnext _ _).trans hkept
  · next heq =>
    rw [heq] at hkept
    exact hkept

theorem Keeps.ite {p : Prop} [Decidable p] {act other : Act σ ε α} (hact : act.Keeps)
    (hother : other.Keeps) :
    (if p then act else other).Keeps := by
  split
  · exact hact
  · exact hother

theorem AgreeAt.refl (count : Nat) (act : Act σ ε α) : AgreeAt count act act := fun _ _ => rfl

/-- What is done after an action that leaves the count alone is done with the same count. -/
theorem AgreeAt.bind {count : Nat} {act other : Act σ ε α} {next next' : α → Act σ ε β}
    (hact : AgreeAt count act other) (hkeeps : act.Keeps)
    (hnext : ∀ a, AgreeAt count (next a) (next' a)) :
    AgreeAt count (act >>= next) (other >>= next') := by
  intro world hcount
  have hkept := hkeeps world
  rw [on_bind, on_bind, ← hact world hcount]
  split
  · next heq =>
    rw [heq] at hkept
    exact hnext _ _ (hkept.trans hcount)
  · rfl

theorem AgreeAt.ite {count : Nat} {p : Prop} [Decidable p] {act other act' other' : Act σ ε α}
    (hact : AgreeAt count act act') (hother : AgreeAt count other other') :
    AgreeAt count (if p then act else other) (if p then act' else other') := by
  split
  · exact hact
  · exact hother

end Act

namespace Session

open Act (keeps_pure keeps_throw keeps_session keeps_log keeps_modifySession AgreeAt)

variable {host : Host σ ε} (hhost : host.Balanced)

theorem keeps_assign (command : Command) (name : String) :
    (assign command name : Act σ ε Unit).Keeps := by
  refine Act.Keeps.bind ?_ fun _ => keeps_log _ _
  exact keeps_modifySession fun _ => rfl

section Keeps

variable {jump : String → Act σ ε Bool} (hjump : ∀ tag, (jump tag).Keeps)

include hhost

theorem keeps_tell (notice : Notice) : (tell host notice).Keeps :=
  hhost.handle notice

theorem keeps_publish (notice : Notice) : (publish host notice).Keeps := fun world =>
  publish_keeps (P := fun scene => scene.session.pending = world.rest.session.pending)
    (fun name event world' h => (hhost.listen name event world').trans h) (fun _ _ h => h) rfl

theorem keeps_complete : (complete host).Keeps :=
  (keeps_tell hhost _).bind fun _ => (keeps_publish hhost _).bind fun _ =>
    keeps_modifySession fun _ => rfl

theorem keeps_present (node : Node) : (present host node).Keeps := by
  refine keeps_session.bind fun session => (keeps_tell hhost _).bind fun _ =>
    (keeps_tell hhost _).bind fun _ =>
    (keeps_publish hhost _).bind fun _ => (keeps_publish hhost _).bind fun _ =>
      Act.Keeps.ite ?_ (keeps_pure _)
  exact keeps_session.bind fun session => (keeps_tell hhost _).bind fun _ => keeps_publish hhost _

include hjump

theorem keeps_runCommand (command : Command) : (runCommand host jump command).Keeps := by
  have hset :
      ∀ change : Session → Session, (∀ session, (change session).pending = session.pending) →
      (Act.modifySession change >>= fun _ => (pure false : Act σ ε Bool)).Keeps :=
    fun change hchange => (keeps_modifySession hchange).bind fun _ => keeps_pure _
  have husage : ∀ form, (usage command form >>= fun _ => (pure false : Act σ ε Bool)).Keeps :=
    fun form => (keeps_log _ _).bind fun _ => keeps_pure _
  unfold runCommand
  split
  · exact (keeps_complete hhost).bind fun _ => keeps_pure _
  · exact husage _
  · exact keeps_session.bind fun session =>
      Act.Keeps.ite ((keeps_complete hhost).bind fun _ => keeps_pure _) (keeps_pure _)
  · exact husage _
  · exact hjump _
  · exact keeps_session.bind fun session => Act.Keeps.ite (hjump _) (keeps_pure _)
  · exact husage _
  · exact (keeps_assign command _).bind fun _ => keeps_pure _
  · exact husage _
  · exact husage _
  · exact hset _ fun _ => rfl
  · exact husage _
  · exact hset _ fun _ => rfl
  · exact keeps_session.bind fun session => (keeps_log _ _).bind fun _ =>
      (keeps_tell hhost _).bind fun _ =>
      (keeps_publish hhost _).bind fun _ => keeps_pure _
  · exact (keeps_tell hhost _).bind fun _ => (keeps_publish hhost _).bind fun _ => keeps_pure _

theorem keeps_runList (commands : List Command) : (runList host jump commands).Keeps := by
  induction commands with
  | nil => exact keeps_pure _
  | cons command commands ih =>
      exact (keeps_runCommand hhost hjump command).bind fun _ => Act.Keeps.ite (keeps_pure _) ih

theorem keeps_runPending : (runPending host jump).Keeps := by
  refine keeps_session.bind fun session => ?_
  split
  · exact keeps_pure _
  · refine Act.Keeps.ite (keeps_pure _) (Act.Keeps.bind ?_ fun _ => keeps_runList hhost hjump _)
    exact keeps_modifySession fun _ => rfl

theorem keeps_enterWith (index : Nat) (again : Bool) : (enterWith host jump index again).Keeps := by
  refine keeps_session.bind fun session => ?_
  split
  · exact keeps_throw _
  · next placed _ =>
    have hshown : ∀ moved : Bool,
        (if moved = true then pure () else present host placed.node : Act σ ε Unit).Keeps :=
      fun moved => Act.Keeps.ite (keeps_pure _) (keeps_present hhost _)
    refine Act.Keeps.bind ?_ fun _ =>
      Act.Keeps.ite ((keeps_runPending hhost hjump).bind hshown) ((keeps_pure false).bind hshown)
    exact keeps_modifySession fun _ => rfl

end Keeps

section Jumps

/-- An action with one more jump under way, which is taken off when the action has ended or
failed. -/
def asJump (act : Act σ ε Unit) : Act σ ε Bool := do
  Act.modifySession fun session => { session with pending := session.pending + 1 }
  act.thenAlways fun session => { session with pending := session.pending - 1 }
  return true

theorem keeps_asJump {act : Act σ ε Unit} (hact : act.Keeps) : (asJump act).Keeps := by
  intro world
  have hended : ∀ world : World σ,
      ((act.thenAlways fun session => { session with pending := session.pending - 1 }).on
        world).2.rest.session.pending =
        world.rest.session.pending - 1 := by
    intro world
    rw [Act.on_thenAlways]
    exact congrArg (· - 1) (hact world)
  have hpending := hended (World.setSession world
    { world.rest.session with pending := world.rest.session.pending + 1 })
  rw [asJump, Act.on_bind, Act.on_modifySession]
  dsimp only
  rw [Act.on_bind]
  split
  · next heq =>
    rw [heq] at hpending
    exact hpending
  · next heq =>
    rw [heq] at hpending
    exact hpending

theorem keeps_placeOf? (tag : String) : (placeOf? tag : Act σ ε (Option Nat)).Keeps := by
  refine keeps_session.bind fun session => ?_
  split
  · exact keeps_throw _
  · exact keeps_pure _

theorem keeps_missingTarget (tag : String) : (missingTarget tag : Act σ ε Unit).Keeps :=
  keeps_log _ _

include hhost

theorem keeps_commandJump (left : Nat) (tag : String) : (commandJump host left tag).Keeps := by
  induction left generalizing tag with
  | zero =>
    refine (keeps_placeOf? tag).bind fun place => ?_
    split
    · exact (keeps_missingTarget tag).bind fun _ => keeps_pure _
    · exact (keeps_log _ _).bind fun _ => (keeps_complete hhost).bind fun _ => keeps_pure _
  | succ left ih =>
    refine (keeps_placeOf? tag).bind fun place => ?_
    split
    · exact (keeps_missingTarget tag).bind fun _ => keeps_pure _
    · exact keeps_asJump (keeps_enterWith hhost ih _ _)

theorem keeps_jumpNow (tag : String) : (jumpNow host tag).Keeps :=
  keeps_session.bind fun _ => keeps_commandJump hhost _ tag

theorem keeps_enter (index : Nat) (again : Bool) : (enter host index again).Keeps :=
  keeps_enterWith hhost (keeps_jumpNow hhost) index again

end Jumps

/-! ## What is left of the jumps -/

section Agree

variable {count : Nat} {jump jump' : String → Act σ ε Bool}
    (hagree : ∀ tag, AgreeAt count (jump tag) (jump' tag))

include hagree

theorem runCommand_agree (command : Command) :
    AgreeAt count (runCommand host jump command) (runCommand host jump' command) := by
  unfold runCommand
  split
  case h_5 => exact hagree _
  case h_6 => exact (AgreeAt.refl _ _).bind keeps_session fun _ =>
    AgreeAt.ite (hagree _) (AgreeAt.refl _ _)
  all_goals exact AgreeAt.refl _ _

include hhost

variable (hjump : ∀ tag, (jump tag).Keeps)

include hjump

theorem runList_agree (commands : List Command) :
    AgreeAt count (runList host jump commands) (runList host jump' commands) := by
  induction commands with
  | nil => exact AgreeAt.refl _ _
  | cons command commands ih =>
    exact (runCommand_agree hagree command).bind (keeps_runCommand hhost hjump command) fun _ =>
      AgreeAt.ite (AgreeAt.refl _ _) ih

theorem runPending_agree : AgreeAt count (runPending host jump) (runPending host jump') := by
  refine (AgreeAt.refl _ _).bind keeps_session fun session => ?_
  split
  · exact AgreeAt.refl _ _
  · refine AgreeAt.ite (AgreeAt.refl _ _) (AgreeAt.bind (AgreeAt.refl _ _) ?_ fun _ =>
      runList_agree hhost hagree hjump _)
    exact keeps_modifySession fun _ => rfl

theorem enterWith_agree (index : Nat) (again : Bool) :
    AgreeAt count (enterWith host jump index again) (enterWith host jump' index again) := by
  refine (AgreeAt.refl _ _).bind keeps_session fun session => ?_
  split
  · exact AgreeAt.refl _ _
  · refine AgreeAt.bind (AgreeAt.refl _ _) ?_ fun _ => AgreeAt.ite
      ((runPending_agree hhost hagree hjump).bind (keeps_runPending hhost hjump) fun _ =>
        AgreeAt.refl _ _)
      (AgreeAt.refl _ _)
    exact keeps_modifySession fun _ => rfl

end Agree

/-- While a number of jumps is under way, entering a node with the jumps that are left is entering
it. -/
theorem enterWith_commandJump (hhost : host.Balanced) (count index : Nat) (again : Bool) :
    AgreeAt count (enterWith host (commandJump host (maxJumps - count)) index again)
      (enter host index again) := by
  refine enterWith_agree hhost (fun tag world hcount => ?_) (keeps_commandJump hhost _) index again
  rw [jumpNow, Act.on_bind, Act.on_session]
  dsimp only
  rw [hcount]

/-! ## What a player and a host can do -/

theorem keeps_bound : (bound : Act σ ε Staging).Keeps := by
  refine keeps_session.bind fun session => ?_
  split
  · exact keeps_throw _
  · exact keeps_pure _

theorem keeps_reset (forget : Bool) : (reset forget : Act σ ε Unit).Keeps :=
  keeps_modifySession fun _ => by cases forget <;> rfl

theorem keeps_bind (staging : Staging) (forget : Bool) :
    (Session.bind staging forget : Act σ ε Unit).Keeps :=
  Act.Keeps.bind (keeps_modifySession fun _ => rfl) fun _ => keeps_reset forget

theorem pending_of_restore {session restored : Session} {data : Json} {palette : Value.Palette}
    (h : session.restore data palette = .ok restored) :
    restored.pending = session.pending := by
  rw [restore] at h
  cases hstore : variablesOf data palette with
  | error defect =>
    rw [hstore] at h
    cases h
  | ok store =>
    rw [hstore] at h
    cases h
    rfl

include hhost

theorem keeps_start : (start host).Keeps :=
  keeps_bound.bind fun _ => Act.Keeps.ite (keeps_throw _) (keeps_enter hhost _ _)

theorem keeps_advance (staging : Staging) (placed : Placed) (wrap : Bool) :
    (advance host staging placed wrap).Keeps :=
  keeps_session.bind fun _ => Act.Keeps.ite (keeps_complete hhost)
    (Act.Keeps.ite (keeps_complete hhost) (keeps_enter hhost _ _))

theorem keeps_next (wrap : Bool) : (next host wrap).Keeps := by
  refine keeps_bound.bind fun staging => keeps_session.bind fun session => ?_
  split
  · exact Act.Keeps.ite (keeps_throw _) (keeps_enter hhost _ _)
  · refine (keeps_runPending hhost (keeps_jumpNow hhost)).bind fun moved =>
      Act.Keeps.ite (keeps_pure _)
      (keeps_session.bind fun session => ?_)
    split
    · exact keeps_throw _
    · exact Act.Keeps.ite (keeps_pure _) (keeps_advance hhost _ _ _)

theorem keeps_jumpTo (index : Int) : (jumpTo host index).Keeps :=
  keeps_bound.bind fun _ => Act.Keeps.ite (keeps_enter hhost _ _) (keeps_throw _)

theorem keeps_jump (tag : String) : (Session.jump host tag).Keeps := by
  refine keeps_bound.bind fun staging => ?_
  split
  · exact keeps_missingTarget _
  · exact keeps_enter hhost _ _

theorem keeps_select (index : Int) : (select host index).Keeps := by
  refine keeps_session.bind fun session => ?_
  split
  · exact keeps_log _ _
  · dsimp only
    split
    · exact keeps_throw _
    · exact keeps_jump hhost _

theorem keeps_reload : (reload host).Keeps :=
  keeps_session.bind fun _ => Act.Keeps.ite (keeps_enter hhost _ _) (keeps_pure _)

theorem keeps_setVariable (name : String) (offer : Offer) :
    (setVariable host name offer).Keeps := by
  unfold setVariable
  split
  · exact keeps_throw _
  · refine Act.Keeps.bind ?_ fun _ => keeps_reload hhost
    exact keeps_modifySession fun _ => rfl

end Session

namespace Move

variable {host : Host σ ε} (hhost : host.Balanced)

include hhost

/-- Whatever move is made, and whether it fails or not, no jump is under way that was not before. -/
theorem pending_perform (move : Move) (world : World σ) :
    (move.perform host world).2.rest.session.pending = world.rest.session.pending := by
  cases move with
  | bind staging forget => exact @Session.keeps_bind σ ε staging forget world
  | start => exact Session.keeps_start hhost world
  | next wrap => exact Session.keeps_next hhost wrap world
  | jumpTo index => exact Session.keeps_jumpTo hhost index world
  | jump tag => exact Session.keeps_jump hhost tag world
  | select index => exact Session.keeps_select hhost index world
  | stop => exact Session.keeps_complete hhost world
  | reset forget => exact @Session.keeps_reset σ ε forget world
  | reload => exact Session.keeps_reload hhost world
  | setVariable name offer => exact Session.keeps_setVariable hhost name offer world
  | removeVariable name => rfl
  | restore data palette =>
    rw [perform]
    split
    · next hrestored => exact Session.pending_of_restore hrestored
    · rfl

theorem pending_performAll (moves : List Move) (world : World σ) :
    (performAll host moves world).rest.session.pending = world.rest.session.pending := by
  induction moves generalizing world with
  | nil => rfl
  | cons move moves ih => exact (ih _).trans (pending_perform hhost move world)

end Move

/-- A host that calls back with an action that leaves the count alone leaves it alone. -/
theorem Host.Balanced.answering {host : Host σ ε} (hhost : host.Balanced) {answer : Act σ ε Unit}
    (hanswer : answer.Keeps) (trigger : Command) : (host.answering trigger answer).Balanced where
  handle notice := (hhost.handle notice).bind fun _ => Act.Keeps.ite hanswer (Act.keeps_pure _)
  listen := hhost.listen

end Colloquy
