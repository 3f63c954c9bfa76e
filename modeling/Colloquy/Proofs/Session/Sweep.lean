import Colloquy.Proofs.Session.Course

/-!
# Sweeps

A sweep runs commands in order until one of them closes the session or jumps. What it comes to
depends on the graph and the variables alone (`Sweep.of`).

A course of commands is a sweep and what comes of it: first `Course.asides`, which change nothing
of the session but its variables, and then the beats of leaving the node, if a command does
(`commands_eq`).
-/

namespace Colloquy

/-- A command that closes the session or asks for a jump leaves the variables alone. -/
theorem Command.leaves_of_turn (graph : Graph) {command : Command} {store : Store}
    (hturn : command.turn graph store ≠ .stays) : command.leaves store = store := by
  unfold turn at hturn
  unfold leaves
  split
  · next hwork =>
    rw [hwork] at hturn
    exact absurd rfl hturn
  · rfl

/-- A command only jumps to a node that there is. -/
theorem Command.indexOf?_of_turn {graph : Graph} {command : Command} {store : Store} {tag : String}
    {index : Nat} (hturn : command.turn graph store = .departs (.toward tag index)) :
    graph.indexOf? tag = some index := by
  unfold turn at hturn
  split at hturn
  · cases hturn
  · cases hturn
  · split at hturn
    · cases hturn
    · next hindex =>
      cases hturn
      exact hindex

/-- What running commands comes to. -/
structure Sweep where
  /-- The commands that ran, in order. -/
  ran : List Command
  /-- The variables after them. -/
  store : Store
  /-- How the last of them took the session away, if it did. -/
  exit? : Option Exit

namespace Sweep

/-- Runs commands in order until one of them closes the session or jumps. -/
def of (graph : Graph) : List Command → Store → Sweep
  | [], store => ⟨[], store, none⟩
  | command :: rest, store =>
    match command.turn graph store with
    | .departs exit => ⟨[command], store, some exit⟩
    | _ =>
      let sweep := of graph rest (command.leaves store)
      { sweep with ran := command :: sweep.ran }

variable {graph : Graph} {commands : List Command} {store : Store}

/-- The commands that run are some of the first ones. -/
theorem ran_prefix : (of graph commands store).ran <+: commands := by
  induction commands generalizing store with
  | nil => exact List.prefix_rfl
  | cons command rest ih =>
    rw [of]
    split
    · simp
    · simpa using ih

/-- All commands run if none of them closes the session or jumps. -/
theorem ran_of_exit?_eq_none (hstays : (of graph commands store).exit? = none) :
    (of graph commands store).ran = commands := by
  induction commands generalizing store with
  | nil => rfl
  | cons command rest ih =>
    rw [of] at hstays ⊢
    split at hstays
    · cases hstays
    · exact congrArg (command :: ·) (ih hstays)

theorem indexOf?_of_exit? {tag : String} {index : Nat}
    (hexit : (of graph commands store).exit? = some (.toward tag index)) :
    graph.indexOf? tag = some index := by
  induction commands generalizing store with
  | nil => cases hexit
  | cons command rest ih =>
    rw [of] at hexit
    split at hexit
    · next hturn =>
      cases hexit
      exact Command.indexOf?_of_turn hturn
    · exact ih hexit

end Sweep

namespace Beat

/-- A beat that leaves everything but the variables of a session alone. -/
def Aside : Beat → Prop
  | .ran _ => True
  | .missed _ => True
  | _ => False

/-- The command that runs in a beat. -/
def ran? : Beat → Option Command
  | .ran command => some command
  | _ => none

end Beat

namespace Course

section Asides

variable (graph : Graph) (list : List Command)

/-- The beats of commands, without those of leaving the node. -/
def asides : List Command → Store → List Beat
  | [], _ => []
  | command :: rest, store =>
    match command.turn graph store with
    | .stays => .ran command :: asides rest (command.leaves store)
    | .misses tag => .ran command :: .missed tag :: asides rest store
    | .departs _ => [.ran command]

theorem aside_of_mem_asides (store : Store) : ∀ beat ∈ asides graph list store, beat.Aside := by
  induction list generalizing store with
  | nil => simp [asides]
  | cons command rest ih =>
    rw [asides]
    cases command.turn graph store with
    | stays => simpa [Beat.Aside] using ih _
    | misses tag => simpa [Beat.Aside] using ih _
    | departs exit => simp [Beat.Aside]

/-- The commands of a sweep are those of its beats. -/
theorem filterMap_ran?_asides (store : Store) :
    (asides graph list store).filterMap Beat.ran? = (Sweep.of graph list store).ran := by
  induction list generalizing store with
  | nil => rfl
  | cons command rest ih =>
    rw [asides, Sweep.of]
    cases hturn : command.turn graph store with
    | stays => simp [Beat.ran?, ih]
    | misses tag =>
      rw [Command.leaves_of_turn graph (by simp [hturn])]
      simpa [List.filterMap_cons, Beat.ran?] using ih store
    | departs exit => rfl

/-- Asides change the variables as the sweep says, and nothing else. -/
theorem replay_asides (session : Session) :
    Beat.replay session (asides graph list session.store) =
      Session.keepStore (Sweep.of graph list session.store).store session := by
  induction list generalizing session with
  | nil => rfl
  | cons command rest ih =>
    rw [asides, Sweep.of]
    cases hturn : command.turn graph session.store with
    | stays => exact ih (Session.keepStore (command.leaves session.store) session)
    | misses tag =>
      change Beat.replay (Session.keepStore (command.leaves session.store) session)
          (asides graph rest session.store) =
        Session.keepStore (Sweep.of graph rest (command.leaves session.store)).store session
      rw [Command.leaves_of_turn graph (by simp [hturn])]
      exact ih session
    | departs exit =>
      exact congrArg (Session.keepStore · session)
        (Command.leaves_of_turn graph (by simp [hturn]))

end Asides

/-- The beats of leaving the node. -/
def leaving (leap : String → Nat → Session → List Beat) (session : Session) : Exit → List Beat
  | .close => [.finished]
  | .toward tag index => leap tag index session

section Commands

variable {staging : Staging} {leap : String → Nat → Session → List Beat} {session : Session}

/-- A course of commands is a sweep, and the beats of leaving the node if it does. -/
theorem commands_eq (list : List Command) (session : Session) :
    commands staging leap list session =
      let sweep := Sweep.of staging.graph list session.store
      (asides staging.graph list session.store ++
        sweep.exit?.elim [] (leaving leap (Session.keepStore sweep.store session)),
        sweep.exit?.isSome) := by
  induction list generalizing session with
  | nil => rfl
  | cons command rest ih =>
    rw [commands, asides, Sweep.of]
    cases hturn : command.turn staging.graph session.store with
    | stays =>
      rw [ih]
      rfl
    | misses tag =>
      rw [ih, Beat.apply, Command.leaves_of_turn staging.graph (by simp [hturn])]
      rfl
    | departs exit =>
      cases exit with
      | close => rfl
      | toward tag index => rfl

/-- Commands that leave the session at its node change nothing but the variables. -/
theorem exists_keepStore_commands {list : List Command}
    (hstays : (commands staging leap list session).2 = false) :
    ∃ store, Beat.replay session (commands staging leap list session).1 =
      Session.keepStore store session := by
  rw [commands_eq] at hstays ⊢
  dsimp only at hstays ⊢
  rw [Option.isSome_eq_false_iff, Option.isNone_iff_eq_none] at hstays
  rw [hstays, Option.elim_none, List.append_nil, replay_asides]
  exact ⟨_, rfl⟩

theorem exists_keepStore_entry {placed : Placed} {started : Bool}
    (hstays : (entry staging leap placed started session).2 = false) :
    ∃ store, Beat.replay session (entry staging leap placed started session).1 =
      Session.keepStore store session := by
  by_cases hruns : (placed.node.hasChoices && ! started) = true
  · rw [entry, if_pos hruns] at hstays ⊢
    exact exists_keepStore_commands hstays
  · rw [entry, if_neg hruns]
    exact ⟨session.store, rfl⟩

/-- Commands that run because the player goes on leave the node on screen. -/
theorem exists_keepStore_pending {placed : Placed}
    (hstays : (pending staging placed session).2 = false) :
    ∃ store hasRun, Beat.replay session (pending staging placed session).1 =
      { session with store, hasRun } := by
  by_cases hruns : session.hasRun = true
  · rw [pending, if_pos hruns]
    exact ⟨session.store, session.hasRun, rfl⟩
  · rw [pending, if_neg hruns] at hstays ⊢
    obtain ⟨store, hstore⟩ := exists_keepStore_commands hstays
    refine ⟨store, true, ?_⟩
    rw [after, List.singleton_append, Beat.replay_cons, hstore]
    rfl

end Commands

/-! ## Entering nodes -/

section Entering

variable {staging : Staging} {leap : String → Nat → Session → List Beat} {session : Session}
  {index : Nat} {placed : Placed} {again : Bool}

theorem entering_eq (hplace : staging.at? index = some placed) (again : Bool) (session : Session) :
    entering staging leap index again session =
      let course := entry staging leap placed (again && session.hasRun)
        ((Beat.entered index placed again).apply session)
      .entered index placed again ::
        (course.1 ++ if course.2 then [] else [.shown placed.node]) := by
  simp only [entering, hplace]
  rfl

/-- A node that is entered is shown at once if its commands do not run before. -/
theorem entering_of_not_runs (hplace : staging.at? index = some placed)
    (hruns : (placed.node.hasChoices && ! (again && session.hasRun)) = false) :
    entering staging leap index again session =
      [.entered index placed again, .shown placed.node] := by
  rw [entering_eq hplace, entry, if_neg (hruns ▸ Bool.false_ne_true)]
  rfl

/-- A node whose commands run when it is entered is shown after them, unless they leave it. -/
theorem entering_of_runs (hplace : staging.at? index = some placed)
    (hruns : (placed.node.hasChoices && ! (again && session.hasRun)) = true) :
    let sweep := Sweep.of staging.graph placed.node.commands session.store
    let swept := Session.keepStore sweep.store ((Beat.entered index placed again).apply session)
    entering staging leap index again session = .entered index placed again ::
      (asides staging.graph placed.node.commands session.store ++
        sweep.exit?.elim [.shown placed.node] (leaving leap swept)) := by
  intro sweep swept
  rw [entering_eq hplace, entry, if_pos hruns, commands_eq]
  change .entered index placed again ::
    ((asides staging.graph placed.node.commands session.store ++
        sweep.exit?.elim [] (leaving leap swept)) ++
      if sweep.exit?.isSome then [] else [.shown placed.node]) = _
  cases sweep.exit? with
  | none => simp
  | some exit => simp

/-- How many more jumps may be begun depends on the session before the entry only. -/
theorem enter_eq (staging : Staging) (index : Nat) (again : Bool) (session : Session) :
    enter staging index again session =
      entering staging (leaping staging (Session.maxJumps - session.pending))
        index again session := by
  rw [enter]
  cases hplace : staging.at? index with
  | none => simp only [entering, hplace]
  | some placed =>
    cases hruns : placed.node.hasChoices && ! (again && session.hasRun) with
    | false => rw [entering_of_not_runs hplace hruns, entering_of_not_runs hplace hruns]
    | true =>
      rw [entering_of_runs hplace hruns, entering_of_runs hplace hruns]
      -- Commands begin no jump, so that as many may be begun after them as before.
      congr 3

end Entering

/-- The next node is one of the graph. -/
theorem lt_size_of_following? {staging : Staging} {placed : Placed} {wrap : Bool}
    {session : Session} {index : Nat}
    (h : following? staging placed wrap session = some index) : index < staging.graph.size := by
  rw [following?] at h
  dsimp only at h
  split at h
  · cases h
  · generalize Session.firstOther session.index placed.mark _ _ = place at h
    split at h
    · cases h
    · next hinside =>
      cases h
      exact Nat.lt_of_not_le hinside

end Course

end Colloquy
