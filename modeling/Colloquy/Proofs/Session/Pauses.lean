import Colloquy.Proofs.Session.Answers

/-!
# Where a move tells the host of a command

A command that a session does not carry out itself is told to the host. At that point, a move has
performed some of its beats, and some of it is left: the commands after that one, and what the
move was about (`Pause`). `Move.Pauses` says where a move has such pauses, and `Move.exists_pause`
that every command that runs in a move is told in one of them.

What is left of a move depends on the session that the host hands back (`Pause.resumed`). It need
not be the one that the host was given.
-/

namespace Colloquy

/-! ## What a host does -/

/-- What a host does to a session before it returns. -/
inductive Detour where
  | stop
  | jump (tag : String)

namespace Detour

/-- The beats of a detour. -/
def beats (session : Session) : Detour → List Beat
  | .stop => [.finished]
  | .jump tag => Course.seeking tag session

theorem orderly (detour : Detour) (session : Session) : Orderly session (detour.beats session) := by
  cases detour with
  | stop => exact Orderly.single trivial rfl
  | jump tag =>
    rw [beats, ← Departure.beats_seeking]
    exact Orderly.departure session _

end Detour

/-! ## Where a command is told to the host -/

namespace Course

/-- When a node is entered, and `left` more jumps may be begun, a command runs: after some beats,
in a node that has some commands left, within a number of jumps that have been begun. -/
inductive Meets (staging : Staging) (trigger : Command) : (left index : Nat) → Session →
    (before : List Beat) → Node → (rest : List Command) → (jumps : Nat) → Prop
  | here {left index : Nat} {session : Session} {placed : Placed} {first rest : List Command} :
      staging.at? index = some placed → placed.node.hasChoices = true →
      placed.node.commands = first ++ trigger :: rest → trigger ∉ first →
      (Sweep.of staging.graph first session.store).exit? = none →
      Meets staging trigger left index session
        (.entered index placed false :: asides staging.graph first session.store) placed.node rest 0
  | beyond {left index next jumps : Nat} {session : Session} {placed : Placed} {tag : String}
      {before : List Beat} {node : Node} {rest : List Command} {sweep : Sweep} :
      staging.at? index = some placed → placed.node.hasChoices = true →
      Sweep.of staging.graph placed.node.commands session.store = sweep → trigger ∉ sweep.ran →
      sweep.exit? = some (.toward tag next) →
      Meets staging trigger left next (Beat.leapt.apply (Session.keepStore sweep.store
        ((Beat.entered index placed false).apply session))) before node rest jumps →
      Meets staging trigger (left + 1) index session (.entered index placed false ::
        (asides staging.graph placed.node.commands session.store ++ .leapt :: before)) node rest
        (jumps + 1)

end Course

/-- The beats of going on from the node on screen when its commands have run. -/
def Course.proceeding (staging : Staging) (wrap : Bool) (session : Session) : List Beat :=
  match session.current with
  | none => []
  | some placed =>
    if placed.node.hasChoices then [] else advancing staging placed wrap session

/-- What a move was about when it told the host of a command. -/
inductive Errand where
  /-- It was to show a node, within a number of jumps. -/
  | shows (node : Node) (jumps : Nat)
  /-- It was to go on to the next node. -/
  | goesOn (wrap : Bool)

/-- Where a move stands when it tells the host of a command. -/
structure Pause where
  /-- The beats of the move up to the command. -/
  before : List Beat
  /-- The commands after it. -/
  rest : List Command
  /-- How many more jumps these may begin. -/
  left : Nat
  errand : Errand

/-- A move tells the host of a command: when the player goes on, when a node is entered, or in a
jump of a command. -/
inductive Move.Pauses (staging : Staging) (trigger : Command) (session : Session) :
    Move → Pause → Prop
  | own {wrap : Bool} {placed : Placed} {first rest : List Command} :
      (Move.next wrap).starts? session = some (staging, placed) →
      placed.node.commands = first ++ trigger :: rest → trigger ∉ first →
      (Sweep.of staging.graph first session.store).exit? = none →
      Pauses staging trigger session (.next wrap)
        ⟨.called (.next wrap) :: .begun :: Course.asides staging.graph first session.store, rest,
          Session.maxJumps, .goesOn wrap⟩
  | enters {move : Move} {index jumps : Nat} {before : List Beat} {node : Node}
      {rest : List Command} :
      move.departure session = .enters index → Beat.Without trigger (move.prelude session) →
      Course.Meets staging trigger Session.maxJumps index
        (Beat.replay session (move.prelude session)) before node rest jumps →
      Pauses staging trigger session move
        ⟨.called move :: (move.prelude session ++ before), rest, Session.maxJumps - jumps,
          .shows node jumps⟩
  | leaps {move : Move} {tag : String} {index jumps : Nat} {before : List Beat} {node : Node}
      {rest : List Command} :
      move.departure session = .leaps tag index → Beat.Without trigger (move.prelude session) →
      Course.Meets staging trigger (Session.maxJumps - 1) index
        (Beat.leapt.apply (Beat.replay session (move.prelude session))) before node rest jumps →
      Pauses staging trigger session move
        ⟨.called move :: (move.prelude session ++ .leapt :: before), rest,
          Session.maxJumps - 1 - jumps, .shows node (jumps + 1)⟩

namespace Pause

/-- The course of the commands that are left. -/
def course (staging : Staging) (pause : Pause) (session : Session) : Course :=
  Course.commands staging (Course.leaping staging pause.left) pause.rest session

/-- What a move does after a pause, in a session that the host may have changed. -/
def resumed (staging : Staging) (pause : Pause) (session : Session) : List Beat :=
  let course := pause.course staging session
  course.1 ++
    match pause.errand with
    | .shows node jumps => (if course.2 then [] else [.shown node]) ++ List.replicate jumps .landed
    | .goesOn wrap =>
      if course.2 then [] else Course.proceeding staging wrap (Beat.replay session course.1)

/-- The player was to go on from a node, but nothing is on screen any more. -/
def Stranded (staging : Staging) (pause : Pause) (session : Session) : Prop :=
  (∃ wrap, pause.errand = .goesOn wrap) ∧ (pause.course staging session).2 = false ∧
    session.current = none

/-- A node that is shown after a pause leaves the session where the detour has left it. -/
theorem current_resumed {staging : Staging} {pause : Pause} {session : Session} {node : Node}
    {jumps : Nat} (herrand : pause.errand = .shows node jumps)
    (hstays : (pause.course staging session).2 = false) :
    .shown node ∈ pause.resumed staging session ∧
      (Beat.replay session (pause.resumed staging session)).current = session.current := by
  obtain ⟨store, hstore⟩ := Course.exists_keepStore_commands hstays
  have hcourse : Beat.replay session (pause.course staging session).1 =
      Session.keepStore store session := hstore
  have hresumed : pause.resumed staging session = (pause.course staging session).1 ++
      ([.shown node] ++ List.replicate jumps .landed) := by
    rw [resumed, herrand]
    simp only [hstays, Bool.false_eq_true, if_false]
  obtain ⟨pending, hlandings⟩ := Beat.replay_landings (Session.keepStore store session) jumps
  refine ⟨hresumed ▸ by simp, ?_⟩
  rw [hresumed, Beat.replay_append, hcourse, Beat.replay_append]
  change (Beat.replay (Session.keepStore store session) (List.replicate jumps .landed)).current = _
  rw [hlandings]
  rfl

end Pause

/-- A move to another node changes nothing directly. -/
theorem Move.opening_of_goes {move : Move} {session other : Session}
    (hgoes : (move.departure other).Goes) : move.opening session = session := by
  cases move with
  | bind staging forget => exact hgoes.elim
  | reset forget => exact hgoes.elim
  | removeVariable name => exact hgoes.elim
  | restore data palette => exact hgoes.elim
  | setVariable name offer =>
    rw [departure] at hgoes
    split at hgoes <;> exact hgoes.elim
  | _ => rfl

/-- Only a player that goes on comes to a jump of a command. -/
theorem Move.exists_next_of_leaps {staging : Staging} {move : Move} {session : Session}
    {tag : String} {index : Nat}
    (hbound : session.staging = some staging)
    (hdeparture : move.departure session = .leaps tag index) :
    ∃ wrap placed, move = .next wrap ∧ session.current = some placed ∧
      ((Move.next wrap).sweep? session).bind Sweep.exit? = some (.toward tag index) := by
  have hseeking : ∀ target, Departure.seeking target session ≠ .leaps tag index := by
    intro target h
    simp only [Departure.seeking, hbound] at h
    split at h <;> cases h
  cases move with
  | start =>
    simp only [departure, hbound] at hdeparture
    split at hdeparture <;> cases hdeparture
  | jumpTo place =>
    simp only [departure, hbound] at hdeparture
    split at hdeparture <;> cases hdeparture
  | jump target => exact (hseeking target hdeparture).elim
  | select place =>
    rw [departure] at hdeparture
    split at hdeparture
    · cases hdeparture
    · split at hdeparture
      · cases hdeparture
      · exact (hseeking _ hdeparture).elim
  | setVariable name offer =>
    rw [departure] at hdeparture
    split at hdeparture <;> cases hdeparture
  | next wrap =>
    cases hcurrent : session.current with
    | none =>
      simp only [departure, hbound, hcurrent] at hdeparture
      split at hdeparture <;> cases hdeparture
    | some placed =>
      refine ⟨wrap, placed, rfl, rfl, ?_⟩
      simp only [departure, hbound, hcurrent] at hdeparture
      cases hexit : ((Move.next wrap).sweep? session).bind Sweep.exit? with
      | none =>
        rw [hexit, Option.elim_none, Departure.advancing] at hdeparture
        split at hdeparture
        · cases hdeparture
        · split at hdeparture <;> cases hdeparture
      | some exit =>
        rw [hexit] at hdeparture
        cases exit <;> cases hdeparture
        rfl
  | _ => cases hdeparture

/-! ### Every command that runs is told somewhere -/

theorem Sweep.exists_split {graph : Graph} {trigger : Command} {list : List Command} {store : Store}
    (hforeign : trigger.Foreign) (hran : trigger ∈ (of graph list store).ran) :
    ∃ first rest, list = first ++ trigger :: rest ∧ trigger ∉ first ∧
      (of graph first store).exit? = none := by
  induction list generalizing store with
  | nil => cases hran
  | cons command list ih =>
    by_cases hsame : command = trigger
    · subst hsame
      exact ⟨[], list, rfl, List.not_mem_nil, rfl⟩
    · rw [of] at hran
      split at hran
      · exact (hsame (List.mem_singleton.1 hran).symm).elim
      · next hturn =>
        obtain ⟨first, rest, rfl, hfirst, hstays⟩ :=
          ih ((List.mem_cons.1 hran).resolve_left fun h => hsame h.symm)
        refine ⟨command :: first, rest, rfl, ?_, ?_⟩
        · exact fun hmem => (List.mem_cons.1 hmem).elim (fun h => hsame h.symm) hfirst
        · rw [of]
          split
          · next hdeparts => exact (hturn _ hdeparts).elim
          · exact hstays

theorem Sweep.mem_ran_of_asides {graph : Graph} {command : Command} {list : List Command}
    {store : Store} (h : .ran command ∈ Course.asides graph list store) :
    command ∈ (of graph list store).ran := by
  rw [← Course.filterMap_ran?_asides]
  exact List.mem_filterMap.2 ⟨_, h, rfl⟩

namespace Course

variable {staging : Staging} {trigger : Command} {left index : Nat} {session : Session}

/-- A command that runs when a node is entered is one of the node, or it runs in a jump from
there. -/
theorem meets_or_leaps (hforeign : trigger.Foreign) {leap : String → Nat → Session → List Beat}
    (left : Nat) (hran : .ran trigger ∈ entering staging leap index false session) :
    (∃ before node rest, Meets staging trigger left index session before node rest 0) ∨
      ∃ placed tag next, staging.at? index = some placed ∧ placed.node.hasChoices = true ∧
        let sweep := Sweep.of staging.graph placed.node.commands session.store
        trigger ∉ sweep.ran ∧ sweep.exit? = some (.toward tag next) ∧
          .ran trigger ∈ leap tag next (Session.keepStore sweep.store
            ((Beat.entered index placed false).apply session)) := by
  cases hplace : staging.at? index with
  | none =>
    rw [entering, hplace] at hran
    cases hran
  | some placed =>
    cases hruns : placed.node.hasChoices && ! (false && session.hasRun) with
    | false =>
      rw [entering_of_not_runs hplace hruns] at hran
      simp at hran
    | true =>
      have hchoices : placed.node.hasChoices = true := by simpa using hruns
      rw [entering_of_runs hplace hruns] at hran
      by_cases hmem : trigger ∈ (Sweep.of staging.graph placed.node.commands session.store).ran
      · obtain ⟨first, rest, hcommands, hfirst, hstays⟩ := Sweep.exists_split hforeign hmem
        exact .inl ⟨_, _, _, .here hplace hchoices hcommands hfirst hstays⟩
      · refine .inr ⟨placed, ?_⟩
        have hafter :=
          (List.mem_append.1 ((List.mem_cons.1 hran).resolve_left (by simp))).resolve_left
          fun hasides => hmem (Sweep.mem_ran_of_asides hasides)
        cases hexit : (Sweep.of staging.graph placed.node.commands session.store).exit? with
        | none =>
          rw [hexit] at hafter
          simp at hafter
        | some exit =>
          rw [hexit] at hafter
          cases exit with
          | close => simp [leaving] at hafter
          | toward tag next => exact ⟨tag, next, rfl, hchoices, hmem, hexit, hafter⟩

theorem exists_meets (hforeign : trigger.Foreign)
    (hran : .ran trigger ∈ entering staging (leaping staging left) index false session) :
    ∃ before node rest jumps, Meets staging trigger left index session before node rest jumps := by
  induction left generalizing index session with
  | zero =>
    rcases meets_or_leaps hforeign 0 hran with ⟨before, node, rest, hmeets⟩ |
      ⟨placed, tag, next, -, -, -, -, hleaps⟩
    · exact ⟨before, node, rest, 0, hmeets⟩
    · simp [leaping] at hleaps
  | succ left ih =>
    rcases meets_or_leaps hforeign (left + 1) hran with ⟨before, node, rest, hmeets⟩ |
      ⟨placed, tag, next, hplace, hchoices, hnot, hexit, hleaps⟩
    · exact ⟨before, node, rest, 0, hmeets⟩
    · rw [leaping, List.cons_append] at hleaps
      have henters :=
        (List.mem_append.1 ((List.mem_cons.1 hleaps).resolve_left (by simp))).resolve_right
        (by simp)
      obtain ⟨before, node, rest, jumps, hmeets⟩ := ih henters
      exact ⟨_, node, rest, jumps + 1, .beyond hplace hchoices rfl hnot hexit hmeets⟩

theorem exists_of_mem_inGraph {beats : Staging → List Beat} {beat : Beat}
    (h : beat ∈ inGraph session beats) :
    ∃ staging, session.staging = some staging ∧ beat ∈ beats staging := by
  rw [inGraph] at h
  split at h
  · cases h
  · next staging hbound => exact ⟨staging, hbound, h⟩

end Course

/-- A command that runs in a move is told to the host in a pause of it. -/
theorem Move.exists_pause {trigger : Command} (hforeign : trigger.Foreign) {move : Move}
    {session : Session} (hsettled : session.Settled) (hran : .ran trigger ∈ move.beats session) :
    ∃ staging pause, session.staging = some staging ∧
      move.Pauses staging trigger session pause := by
  let opened := move.opening session
  have hopened : opened.Sound := move.sound_opening hsettled.sound
  have horderly := Orderly.prelude opened move
  have hsequel : .ran trigger ∈ move.prelude opened ++
      (move.departure opened).beats (Beat.replay opened (move.prelude opened)) := by
    rw [beats, sequel_eq] at hran
    exact (List.mem_cons.1 hran).resolve_left (by simp)
  by_cases hprelude : .ran trigger ∈ move.prelude opened
  · -- The player goes on, and the command is one of the node on screen.
    rw [prelude] at hprelude
    cases hstarts : move.starts? opened with
    | none =>
      rw [hstarts] at hprelude
      cases hprelude
    | some start =>
      obtain ⟨staging, placed⟩ := start
      rw [hstarts] at hprelude
      have hasides := (List.mem_cons.1 hprelude).resolve_left (by simp)
      obtain ⟨first, rest, hcommands, hfirst, hstays⟩ :=
        Sweep.exists_split hforeign (Sweep.mem_ran_of_asides hasides)
      cases move with
      | next wrap =>
        exact ⟨staging, _, (starts?_eq_some hstarts).1, .own hstarts hcommands hfirst hstays⟩
      | _ => cases hstarts
  · have hdeparture := (List.mem_append.1 hsequel).resolve_left hprelude
    have hpending : (Beat.replay opened (move.prelude opened)).pending = 0 := by
      rw [horderly.pending, move.pending_opening, hsettled.pending]
    have hsame : (move.departure opened).Goes → opened = session := opening_of_goes
    cases hkind : move.departure opened with
    | rests => simp [hkind, Departure.beats] at hdeparture
    | misses tag => simp [hkind, Departure.beats] at hdeparture
    | unasked => simp [hkind, Departure.beats] at hdeparture
    | ends => simp [hkind, Departure.beats] at hdeparture
    | reshows =>
      rw [hkind, Departure.beats,
        Course.reloading_eq (horderly.fit.sound_replay hopened)] at hdeparture
      cases hcurrent : (Beat.replay opened (move.prelude opened)).current with
      | none => simp [hcurrent] at hdeparture
      | some placed => simp [hcurrent] at hdeparture
    | enters index =>
      have hopening : opened = session := hsame (by rw [hkind]; trivial)
      rw [hkind, Departure.beats] at hdeparture
      obtain ⟨staging, hbound, henters⟩ := Course.exists_of_mem_inGraph hdeparture
      rw [Course.enter_eq, hpending] at henters
      obtain ⟨before, node, rest, jumps, hmeets⟩ := Course.exists_meets hforeign henters
      rw [horderly.staging, hopening] at hbound
      rw [hopening] at hkind hprelude hmeets
      exact ⟨staging, _, hbound, .enters hkind hprelude hmeets⟩
    | leaps tag index =>
      have hopening : opened = session := hsame (by rw [hkind]; trivial)
      rw [hkind, Departure.beats] at hdeparture
      obtain ⟨staging, hbound, hleaps⟩ := Course.exists_of_mem_inGraph hdeparture
      rw [Course.jumping, hpending, show Session.maxJumps - 0 = Session.maxJumps - 1 + 1 from rfl,
        Course.leaping, List.cons_append] at hleaps
      have henters := (List.mem_append.1
        ((List.mem_cons.1 hleaps).resolve_left (by simp))).resolve_right (by simp)
      obtain ⟨before, node, rest, jumps, hmeets⟩ := Course.exists_meets hforeign henters
      rw [horderly.staging, hopening] at hbound
      rw [hopening] at hkind hprelude hmeets
      exact ⟨staging, _, hbound, .leaps hkind hprelude hmeets⟩

end Colloquy
