import Colloquy.Proofs.Session.Journal

/-!
# Jumps from node to node

A command of a node with choices may jump to another such node, and so on. `Leads` says where this
comes to, for any number of jumps; nothing bounds it, and it need not end. A session begins no
more than `maxJumps` jumps in a move: if the jumps end before, so does the move, and if not, the
session is closed (`redirects_bounded`).
-/

namespace Colloquy

/-! ## Where jumps lead -/

/-- What a number of jumps comes to. -/
inductive Halt where
  /-- A node is shown. -/
  | shown (index : Nat) (placed : Placed) (store : Store)
  /-- A command closes the session. -/
  | closed (store : Store)
  /-- A command asks for one more jump. -/
  | asks (tag : String) (store : Store)

/-- The commands of a node with choices, and what they come to. -/
structure Sweeps (staging : Staging) (index : Nat) (placed : Placed) (store : Store)
    (sweep : Sweep) : Prop where
  place : staging.at? index = some placed
  hasChoices : placed.node.hasChoices = true
  sweep : Sweep.of staging.graph placed.node.commands store = sweep

/-- Entering the node at a place comes to something after a number of jumps. In every node with
choices on the way, the commands run in order until one of them closes the session or jumps. The
list has all that run. -/
inductive Leads (staging : Staging) : Nat → Nat → Store → List Command → Halt → Prop
  | plain {index : Nat} {placed : Placed} {store : Store} :
    staging.at? index = some placed → placed.node.hasChoices = false →
    Leads staging 0 index store [] (.shown index placed store)
  | stays {index : Nat} {placed : Placed} {store : Store} {sweep : Sweep} :
    Sweeps staging index placed store sweep → sweep.exit? = none →
    Leads staging 0 index store sweep.ran (.shown index placed sweep.store)
  | closes {index : Nat} {placed : Placed} {store : Store} {sweep : Sweep} :
    Sweeps staging index placed store sweep → sweep.exit? = some .close →
    Leads staging 0 index store sweep.ran (.closed sweep.store)
  | asks {index : Nat} {placed : Placed} {store : Store} {sweep : Sweep} {tag : String}
    {next : Nat} :
    Sweeps staging index placed store sweep → sweep.exit? = some (.toward tag next) →
    Leads staging 0 index store sweep.ran (.asks tag sweep.store)
  | jumps {index : Nat} {placed : Placed} {store : Store} {sweep : Sweep} {tag : String}
      {next : Nat} {count : Nat} {ran : List Command} {halt : Halt} :
    Sweeps staging index placed store sweep → sweep.exit? = some (.toward tag next) →
    Leads staging count next sweep.store ran halt →
    Leads staging (count + 1) index store (sweep.ran ++ ran) halt

namespace Halt

/-- Nothing more is asked for. -/
def Final : Halt → Prop
  | .asks _ _ => False
  | _ => True

/-- What a session comes to that may begin a number of jumps: an end, or the demand for one jump too
many. -/
def Within (left jumps : Nat) : Halt → Prop
  | .asks _ _ => jumps = left
  | _ => jumps ≤ left

/-- What a session is like when it has come to something. One more jump than may be begun closes
it. -/
def Holds (session : Session) : Halt → Prop
  | .shown index placed store =>
    session.current = some placed ∧ session.index = index ∧ session.store = store
  | .closed store => session.Idle ∧ session.store = store
  | .asks _ store => session.Idle ∧ session.store = store

/-- What the handler is told at last. -/
def told : Halt → List (Notice × Store)
  | .shown _ placed store => (Session.presentation store placed.node).map (·, store)
  | .closed store => [(.completed, store)]
  | .asks _ store => [(.completed, store)]

end Halt

/-- Entering a node comes to an end at once, or to the demand for a jump. -/
theorem Leads.final_or_sweeps {staging : Staging} {index : Nat} (store : Store)
    (hindex : index < staging.graph.size) :
    (∃ ran halt, Leads staging 0 index store ran halt ∧ halt.Final) ∨
      ∃ placed sweep tag next, Sweeps staging index placed store sweep ∧
        sweep.exit? = some (.toward tag next) := by
  obtain ⟨placed, hplace⟩ := Staging.exists_at? hindex
  cases hchoices : placed.node.hasChoices with
  | false => exact .inl ⟨_, _, .plain hplace hchoices, trivial⟩
  | true =>
    have hsweeps : Sweeps staging index placed store _ := ⟨hplace, hchoices, rfl⟩
    cases hexit : (Sweep.of staging.graph placed.node.commands store).exit? with
    | none => exact .inl ⟨_, _, .stays hsweeps hexit, trivial⟩
    | some exit =>
      cases exit with
      | close => exact .inl ⟨_, _, .closes hsweeps hexit, trivial⟩
      | toward tag next => exact .inr ⟨placed, _, tag, next, hsweeps, hexit⟩

theorem Halt.Final.within {halt : Halt} {left jumps : Nat} (hfinal : halt.Final)
    (hjumps : jumps ≤ left) : halt.Within left jumps := by
  cases halt with
  | asks tag store => exact hfinal.elim
  | _ => exact hjumps

theorem Halt.Within.le {halt : Halt} {left jumps : Nat} (h : halt.Within left jumps) :
    jumps ≤ left := by
  cases halt with
  | asks tag store => exact Nat.le_of_eq h
  | _ => exact h

theorem Halt.within_succ {halt : Halt} {left jumps : Nat} :
    halt.Within (left + 1) (jumps + 1) ↔ halt.Within left jumps := by
  cases halt with
  | asks tag store => exact Nat.succ_inj
  | _ => exact Nat.succ_le_succ_iff

/-- Within the jumps that may be begun, entering a node comes to an end, or to the demand for one
more. -/
theorem Leads.exists_within {staging : Staging} (left : Nat) {index : Nat} (store : Store)
    (hindex : index < staging.graph.size) :
    ∃ jumps ran halt, Leads staging jumps index store ran halt ∧ halt.Within left jumps := by
  induction left generalizing index store with
  | zero =>
    rcases final_or_sweeps store hindex with
      ⟨ran, halt, hleads, hfinal⟩ | ⟨placed, sweep, tag, next, h, hexit⟩
    · exact ⟨0, ran, halt, hleads, hfinal.within (Nat.le_refl 0)⟩
    · exact ⟨0, _, _, .asks h hexit, rfl⟩
  | succ left ih =>
    rcases final_or_sweeps store hindex with
      ⟨ran, halt, hleads, hfinal⟩ | ⟨placed, sweep, tag, next, h, hexit⟩
    · exact ⟨0, ran, halt, hleads, hfinal.within (Nat.zero_le _)⟩
    · have hnext : staging.graph.indexOf? tag = some next :=
        Sweep.indexOf?_of_exit? (h.sweep ▸ hexit)
      obtain ⟨jumps, ran, halt, hleads, hwithin⟩ :=
        ih sweep.store (Graph.lt_size_of_indexOf? hnext)
      exact ⟨_, _, _, .jumps h hexit hleads, Halt.within_succ.2 hwithin⟩

/-! ## Beats that come to something -/

namespace Beat

/-- A beat in which a jump begins. -/
def leaps : Beat → Bool
  | .leapt => true
  | _ => false

/-- A beat that neither shows a node nor ends the session. -/
def Passing : Beat → Prop
  | .shown _ => False
  | .finished => False
  | _ => True

theorem Aside.passing {beat : Beat} (h : beat.Aside) : beat.Passing := by
  cases beat <;> trivial

theorem Aside.not_leaps {beat : Beat} (h : beat.Aside) : ¬ beat.leaps = true := by
  cases beat with
  | ran command => exact Bool.false_ne_true
  | missed tag => exact Bool.false_ne_true
  | _ => exact h.elim

end Beat

/-- What may be told on the way: what a command prints, or a command that the host is to carry
out. -/
def Notice.Remark (notice : Notice) : Prop :=
  notice.kind = .print ∨ notice.kind = .command

/-- A signal that tells the handler a remark, or nothing. -/
def Signal.Remark : Signal → Prop
  | .tell notice => notice.Remark
  | _ => True

/-- A command tells the handler what it prints, or itself, or nothing. -/
theorem Command.remark_of_work {command : Command} {store store' : Store} {signals : List Signal}
    (hwork : command.work store = .plain signals store') : ∀ signal ∈ signals, signal.Remark := by
  rcases signals_of_work hwork with rfl | ⟨level, message, -, rfl⟩ | ⟨message, text, rfl⟩ | rfl
  all_goals simp [Signal.Remark, Notice.Remark, Notice.kind]

theorem Beat.Passing.remark {session : Session} {beat : Beat} (hpassing : beat.Passing) :
    ∀ signal ∈ beat.signals session, signal.Remark := by
  cases beat with
  | ran command =>
    rw [signals]
    split
    · next hwork => exact Command.remark_of_work hwork
    · simp
  | shown node => exact hpassing.elim
  | finished => exact hpassing.elim
  | _ => simp [signals, Signal.Remark]

/-- All that is told in beats on the way is remarks. -/
theorem Beat.remark_of_passing {session : Session} {beats : List Beat}
    (hpassing : ∀ beat ∈ beats, beat.Passing) : ∀ told ∈ heardIn session beats, told.1.Remark := by
  induction beats generalizing session with
  | nil => simp [heardIn]
  | cons beat beats ih =>
    obtain ⟨hfirst, hrest⟩ := List.forall_mem_cons.1 hpassing
    rw [heardIn, List.forall_mem_append]
    refine ⟨fun told htold => ?_, ih hrest⟩
    obtain ⟨notice, hnotice, rfl⟩ := List.mem_map.1 htold
    obtain ⟨signal, hsignal, hsome⟩ := List.mem_filterMap.1 hnotice
    have hremark := hfirst.remark signal hsignal
    cases signal with
    | tell other =>
      cases hsome
      exact hremark
    | publish other => cases hsome
    | log level message => cases hsome

/-- Beats begin a number of jumps, run commands in order, and come to something. What is told
before is remarks. -/
structure Ends (session : Session) (beats : List Beat) (jumps : Nat) (ran : List Command)
    (halt : Halt) : Prop where
  jumps : beats.countP Beat.leaps = jumps
  ran : beats.filterMap Beat.ran? = ran
  holds : halt.Holds (Beat.replay session beats)
  heard : ∃ remarks, Beat.heardIn session beats = remarks ++ halt.told ∧
    ∀ told ∈ remarks, told.1.Remark

namespace Ends

open Course

variable {session : Session} {first second beats : List Beat} {jumps : Nat} {ran : List Command}
  {halt : Halt}

theorem after (hfirst : ∀ beat ∈ first, beat.Passing)
    (h : Ends (Beat.replay session first) second jumps ran halt) :
    Ends session (first ++ second) (first.countP Beat.leaps + jumps)
      (first.filterMap Beat.ran? ++ ran) halt := by
  obtain ⟨remarks, hheard, hremarks⟩ := h.heard
  refine ⟨?_, ?_, ?_, Beat.heardIn session first ++ remarks, ?_, ?_⟩
  · rw [List.countP_append, h.jumps]
  · rw [List.filterMap_append, h.ran]
  · rw [Beat.replay_append]
    exact h.holds
  · rw [Beat.heardIn_append, hheard, List.append_assoc]
  · exact List.forall_mem_append.2 ⟨Beat.remark_of_passing hfirst, hremarks⟩

theorem landed (h : Ends session beats jumps ran halt) :
    Ends session (beats ++ [.landed]) jumps ran halt := by
  obtain ⟨remarks, hheard, hremarks⟩ := h.heard
  refine ⟨?_, ?_, ?_, remarks, ?_, hremarks⟩
  · rw [List.countP_append, h.jumps]
    rfl
  · rw [List.filterMap_append, h.ran]
    exact List.append_nil _
  · rw [Beat.replay_append]
    have hholds := h.holds
    cases halt with
    | shown index placed store => exact hholds
    | closed store => exact ⟨⟨hholds.1.current, hholds.1.index, hholds.1.hasRun⟩, hholds.2⟩
    | asks tag store => exact ⟨⟨hholds.1.current, hholds.1.index, hholds.1.hasRun⟩, hholds.2⟩
  · rw [Beat.heardIn_append, hheard]
    exact List.append_nil _

/-- A jump begins before and ends afterwards. -/
theorem leapt (h : Ends (Beat.replay session [.leapt]) beats jumps ran halt) :
    Ends session (.leapt :: beats ++ [.landed]) (jumps + 1) ran halt := by
  have hleapt : ∀ beat ∈ [Beat.leapt], beat.Passing := by simp [Beat.Passing]
  rw [Nat.add_comm]
  exact (after hleapt h).landed

theorem shown {placed : Placed} (hcurrent : session.current = some placed) :
    Ends session [.shown placed.node] 0 [] (.shown session.index placed session.store) := by
  refine ⟨rfl, rfl, ⟨hcurrent, rfl, rfl⟩, [], ?_, by simp⟩
  rw [Beat.heardIn, Beat.told, Beat.signals, Beat.filterMap_told_presenting, Beat.heardIn,
    List.append_nil]
  rfl

theorem finished : Ends session [.finished] 0 [] (.closed session.store) :=
  ⟨rfl, rfl, ⟨.rewound session, rfl⟩, [], rfl, by simp⟩

theorem tripped (tag : String) :
    Ends session [.tripped tag, .finished] 0 [] (.asks tag session.store) :=
  ⟨rfl, rfl, ⟨.rewound session, rfl⟩, [], rfl, by simp⟩

/-- The commands of a node with choices come first when it is entered. -/
theorem entering {staging : Staging} {leap : String → Nat → Session → List Beat} {index : Nat}
    {placed : Placed} {sweep : Sweep} {swept : Session}
    (h : Sweeps staging index placed session.store sweep)
    (hswept : swept =
      Session.keepStore sweep.store ((Beat.entered index placed false).apply session))
    (hrest : Ends swept (sweep.exit?.elim [.shown placed.node] (leaving leap swept))
      jumps ran halt) :
    Ends session (entering staging leap index false session) jumps (sweep.ran ++ ran) halt := by
  obtain ⟨hplace, hchoices, rfl⟩ := h
  let first := Beat.entered index placed false ::
    asides staging.graph placed.node.commands session.store
  have hasides := aside_of_mem_asides staging.graph placed.node.commands session.store
  have hpassing : ∀ beat ∈ first, beat.Passing :=
    List.forall_mem_cons.2 ⟨trivial, fun beat hbeat => (hasides beat hbeat).passing⟩
  have hjumps : first.countP Beat.leaps = 0 := by
    rw [List.countP_eq_zero]
    exact List.forall_mem_cons.2
      ⟨Bool.false_ne_true, fun beat hbeat => (hasides beat hbeat).not_leaps⟩
  have hran : first.filterMap Beat.ran? =
      (Sweep.of staging.graph placed.node.commands session.store).ran :=
    filterMap_ran?_asides staging.graph placed.node.commands session.store
  have hreplay : Beat.replay session first = swept :=
    (replay_asides staging.graph placed.node.commands
      ((Beat.entered index placed false).apply session)).trans hswept.symm
  rw [← hreplay] at hrest
  have hafter := after hpassing hrest
  rw [hjumps, hran, Nat.zero_add, hreplay] at hafter
  rw [entering_of_runs hplace (by simp [hchoices]), ← List.cons_append, ← hswept]
  exact hafter

end Ends

/-- Jumps within the number that may be begun come to what they lead to. -/
theorem Leads.ends {staging : Staging} {jumps index : Nat} {store : Store} {ran : List Command}
    {halt : Halt} (h : Leads staging jumps index store ran halt) {left : Nat} {session : Session}
    (hstore : session.store = store) (hwithin : halt.Within left jumps) :
    Ends session (Course.entering staging (Course.leaping staging left) index false session)
      jumps ran halt := by
  induction h generalizing left session with
  | @plain index placed store hplace hchoices =>
    subst hstore
    rw [Course.entering_of_not_runs hplace (by simp [hchoices])]
    have hentered : ∀ beat ∈ [Beat.entered index placed false], beat.Passing := by
      simp [Beat.Passing]
    exact Ends.after hentered (Ends.shown rfl)
  | @stays index placed store sweep hsweeps hexit =>
    subst hstore
    rw [← List.append_nil sweep.ran]
    refine Ends.entering hsweeps rfl ?_
    rw [hexit]
    exact Ends.shown rfl
  | @closes index placed store sweep hsweeps hexit =>
    subst hstore
    rw [← List.append_nil sweep.ran]
    refine Ends.entering hsweeps rfl ?_
    rw [hexit]
    exact Ends.finished
  | @asks index placed store sweep tag next hsweeps hexit =>
    subst hstore
    obtain rfl : 0 = left := hwithin
    rw [← List.append_nil sweep.ran]
    refine Ends.entering hsweeps rfl ?_
    rw [hexit]
    exact Ends.tripped tag
  | @jumps index placed store sweep tag next count ran halt hsweeps hexit _ ih =>
    subst hstore
    cases left with
    | zero => cases halt <;> cases hwithin
    | succ left =>
      refine Ends.entering hsweeps rfl ?_
      rw [hexit]
      let swept := Session.keepStore sweep.store ((Beat.entered index placed false).apply session)
      have hnext : Ends (Beat.replay swept [.leapt]) _ count ran halt :=
        ih rfl (Halt.within_succ.1 hwithin)
      exact hnext.leapt

/-! ## Moves -/

namespace Departure

/-- What a departure comes to after a number of jumps, given the variables. -/
def Reaches (staging : Staging) (store : Store) : Departure → Nat → List Command → Halt → Prop
  | .ends, jumps, ran, halt => jumps = 0 ∧ ran = [] ∧ halt = .closed store
  | .enters index, jumps, ran, halt => Leads staging jumps index store ran halt
  | .leaps _ index, jumps, ran, halt =>
    ∃ more, jumps = more + 1 ∧ Leads staging more index store ran halt
  | _, _, _, _ => False

variable {staging : Staging} {session : Session} {departure : Departure}

/-- A session may begin a jump. -/
theorem exists_maxJumps : ∃ left, Session.maxJumps = left + 1 :=
  ⟨_, rfl⟩

/-- Within the jumps that may be begun, a departure comes to an end, or to the demand for one
more. -/
theorem exists_within (store : Store) (hinside : departure.Inside staging.graph)
    (hgoes : departure.Goes) :
    ∃ jumps ran halt, departure.Reaches staging store jumps ran halt ∧
      halt.Within Session.maxJumps jumps := by
  cases departure with
  | ends => exact ⟨0, [], .closed store, ⟨rfl, rfl, rfl⟩, Nat.zero_le _⟩
  | enters index => exact Leads.exists_within Session.maxJumps store hinside
  | leaps tag index =>
    obtain ⟨left, hmax⟩ := exists_maxJumps
    obtain ⟨jumps, ran, halt, hleads, hwithin⟩ :=
      Leads.exists_within left store (Graph.lt_size_of_indexOf? hinside)
    exact ⟨jumps + 1, ran, halt, ⟨jumps, rfl, hleads⟩, hmax ▸ Halt.within_succ.2 hwithin⟩
  | _ => exact hgoes.elim

/-- A departure comes to what it leads to within the jumps that may be begun. -/
theorem ends_of_reaches (hbound : session.staging = some staging) (hpending : session.pending = 0)
    {jumps : Nat} {ran : List Command} {halt : Halt}
    (hreaches : departure.Reaches staging session.store jumps ran halt)
    (hwithin : halt.Within Session.maxJumps jumps) :
    Ends session (departure.beats session) jumps ran halt := by
  have hleft : Session.maxJumps - session.pending = Session.maxJumps := by
    rw [hpending, Nat.sub_zero]
  cases departure with
  | ends =>
    obtain ⟨rfl, rfl, rfl⟩ := hreaches
    exact Ends.finished
  | enters index =>
    simp only [beats, Course.inGraph, hbound]
    rw [Course.enter_eq, hleft]
    exact Leads.ends hreaches rfl hwithin
  | leaps tag index =>
    obtain ⟨more, rfl, hleads⟩ := hreaches
    obtain ⟨left, hmax⟩ := exists_maxJumps
    rw [hmax] at hwithin hleft
    simp only [beats, Course.inGraph, hbound, Course.jumping, hmax, hleft]
    have hmore : Ends (Beat.replay session [.leapt]) _ more ran halt :=
      hleads.ends rfl (Halt.within_succ.1 hwithin)
    exact hmore.leapt
  | _ => exact hreaches.elim

/-- A departure begins no more jumps than it may. -/
theorem countP_leaps_le (hsound : session.Sound) (hpending : session.pending = 0)
    (hinside : ∀ staging, session.staging = some staging → departure.Inside staging.graph) :
    (departure.beats session).countP Beat.leaps ≤ Session.maxJumps := by
  have hgoes : ∀ staging, session.staging = some staging → departure.Goes →
      (departure.beats session).countP Beat.leaps ≤ Session.maxJumps := by
    intro staging hbound hgoes
    obtain ⟨jumps, ran, halt, hreaches, hwithin⟩ :=
      exists_within session.store (hinside staging hbound) hgoes
    rw [(ends_of_reaches hbound hpending hreaches hwithin).jumps]
    exact hwithin.le
  cases hbound : session.staging with
  | some staging =>
    cases departure with
    | ends => exact hgoes staging hbound trivial
    | enters index => exact hgoes staging hbound trivial
    | leaps tag index => exact hgoes staging hbound trivial
    | reshows =>
      rw [beats, Course.reloading_eq hsound]
      cases session.current <;> exact Nat.zero_le _
    | _ => exact Nat.zero_le _
  | none =>
    cases departure with
    | enters index => simp [beats, Course.inGraph, hbound]
    | leaps tag index => simp [beats, Course.inGraph, hbound]
    | reshows => simp [beats, Course.reloading, Course.inGraph, hbound]
    | _ => exact Nat.zero_le _

end Departure

namespace Move

variable {session : Session} {staging : Staging}

theorem passing_prelude (move : Move) (session : Session) :
    ∀ beat ∈ move.prelude session, beat.Passing ∧ ¬ beat.leaps = true :=
  move.forall_mem_prelude ⟨trivial, Bool.false_ne_true⟩
    (fun _ haside => ⟨haside.passing, haside.not_leaps⟩) session

theorem filterMap_ran?_prelude (move : Move) (session : Session) :
    (move.prelude session).filterMap Beat.ran? = (move.sweep? session).elim [] Sweep.ran := by
  rw [prelude, sweep?]
  cases move.starts? session with
  | none => rfl
  | some start => exact Course.filterMap_ran?_asides _ _ _

theorem store_prelude (move : Move) (session : Session) :
    (Beat.replay session (move.prelude session)).store =
      (move.sweep? session).elim session.store Sweep.store := by
  rw [prelude, sweep?]
  cases move.starts? session with
  | none => rfl
  | some start => exact congrArg Session.store (Course.replay_asides _ _ (Beat.begun.apply session))

/-- A move comes to what its departure comes to. The commands that it has run first come before
the others. -/
theorem ends_beats {move : Move} (hbound : (move.opening session).staging = some staging)
    (hpending : session.pending = 0) {jumps : Nat} {ran : List Command} {halt : Halt}
    (hreaches : (move.departure (move.opening session)).Reaches staging
      ((move.sweep? (move.opening session)).elim (move.opening session).store Sweep.store)
      jumps ran halt) (hwithin : halt.Within Session.maxJumps jumps) :
    Ends session (move.beats session) jumps
      ((move.sweep? (move.opening session)).elim [] Sweep.ran ++ ran) halt := by
  let opened := move.opening session
  let first := Beat.called move :: move.prelude opened
  have hprelude := move.passing_prelude opened
  have horderly := Orderly.prelude opened move
  have hpassing : ∀ beat ∈ first, beat.Passing :=
    List.forall_mem_cons.2 ⟨trivial, fun beat hbeat => (hprelude beat hbeat).1⟩
  have hjumps : first.countP Beat.leaps = 0 := by
    rw [List.countP_eq_zero]
    exact List.forall_mem_cons.2 ⟨Bool.false_ne_true, fun beat hbeat => (hprelude beat hbeat).2⟩
  have hran : first.filterMap Beat.ran? = (move.sweep? opened).elim [] Sweep.ran :=
    move.filterMap_ran?_prelude opened
  rw [← move.store_prelude] at hreaches
  have hdeparture : Ends (Beat.replay session first) _ jumps ran halt :=
    Departure.ends_of_reaches (horderly.staging.trans hbound)
      (horderly.pending.trans ((move.pending_opening session).trans hpending)) hreaches hwithin
  have hafter := Ends.after hpassing hdeparture
  rw [hjumps, hran, Nat.zero_add] at hafter
  rw [beats, sequel_eq, ← List.cons_append]
  exact hafter

/-- A move begins no more jumps than it may. -/
theorem countP_leaps_le (move : Move) (hsettled : session.Settled) :
    (move.beats session).countP Beat.leaps ≤ Session.maxJumps := by
  let opened := move.opening session
  have horderly := Orderly.prelude opened move
  have hprelude : (move.prelude opened).countP Beat.leaps = 0 :=
    List.countP_eq_zero.2 fun beat hbeat => (move.passing_prelude opened beat hbeat).2
  have hinside : ∀ staging, (Beat.replay opened (move.prelude opened)).staging = some staging →
      (move.departure opened).Inside staging.graph :=
    fun staging hbound => move.inside_departure (horderly.staging.symm.trans hbound)
  have hdeparture := Departure.countP_leaps_le
    (horderly.fit.sound_replay (move.sound_opening hsettled.sound))
    (horderly.pending.trans ((move.pending_opening session).trans hsettled.pending)) hinside
  rw [beats, List.countP_cons_of_neg Bool.false_ne_true, sequel_eq, List.countP_append, hprelude,
    Nat.zero_add]
  exact hdeparture

end Move

/-- In front of a host that does not call back, a move begins at most `maxJumps` jumps, and all of
them are ended when it returns, even if the host has failed in the middle. If its departure leads
to an end within these jumps, it comes to that end; if not, the attempt at one more jump closes
the session, and nothing has been shown. -/
theorem redirects_bounded {σ ε : Type} {host : Host σ ε} {heard : σ → List (Notice × Store)}
    (hhost : host.Aloof) (hheard : host.Records heard) {world : World σ}
    (hreached : Reached ε world) (move : Move) :
    let session := world.rest.session
    let opened := move.opening session
    let sweep? := move.sweep? opened
    let store := sweep?.elim opened.store Sweep.store
    let ranFirst := sweep?.elim [] Sweep.ran
    let departure := move.departure opened
    let beats := move.beats session
    let outcome := move.perform host world
    let after := outcome.2.rest
    beats.countP Beat.leaps ≤ Session.maxJumps ∧ after.session.pending = 0 ∧
      (∃ done, done <+: beats ∧ after.session = { Beat.replay session done with pending := 0 }) ∧
      (outcome.1 = .ok () → after.session = Beat.replay session beats ∧
        heard after.host = heard world.rest.host ++ Beat.heardIn session beats) ∧
      (∀ calm, host.Quiet calm → calm world.bus world.rest.host →
        (move.refusal? session : Option (Setback ε)) = none → outcome.1 = .ok ()) ∧
      ∀ staging, opened.staging = some staging →
        (∀ jumps ran halt, departure.Reaches staging store jumps ran halt → halt.Final →
          jumps ≤ Session.maxJumps → Ends session beats jumps (ranFirst ++ ran) halt) ∧
        (departure.Goes → (∀ jumps ran halt, departure.Reaches staging store jumps ran halt →
          halt.Final → Session.maxJumps < jumps) →
          ∃ ran tag last, departure.Reaches staging store Session.maxJumps ran (.asks tag last) ∧
            Ends session beats Session.maxJumps (ranFirst ++ ran) (.asks tag last)) := by
  intro session opened sweep? store ranFirst departure beats outcome after
  have hsettled : session.Settled := hreached.settled
  refine ⟨move.countP_leaps_le hsettled, (Session.settled_perform hhost move hsettled).pending,
    Session.perform_prefix hhost move hsettled, Session.perform_ok hhost hheard hsettled,
    fun calm hquiet hcalm hrefusal => (Session.perform_quiet hquiet hsettled hcalm hrefusal).1,
    fun staging hbound => ⟨fun jumps ran halt hreaches hfinal hjumps => ?_, fun hgoes hfar => ?_⟩⟩
  · exact Move.ends_beats hbound hsettled.pending hreaches (hfinal.within hjumps)
  · obtain ⟨jumps, ran, halt, hreaches, hwithin⟩ :=
      Departure.exists_within store (move.inside_departure hbound) hgoes
    have hends := Move.ends_beats hbound hsettled.pending hreaches hwithin
    cases halt with
    | asks tag last =>
      obtain rfl : jumps = Session.maxJumps := hwithin
      exact ⟨ran, tag, last, hreaches, hends⟩
    | shown index placed last =>
        exact absurd hwithin.le (Nat.not_le.2 (hfar _ _ _ hreaches trivial))
    | closed last => exact absurd hwithin.le (Nat.not_le.2 (hfar _ _ _ hreaches trivial))

/-- A node that jumps to itself before it is shown is never shown. -/
theorem redirects_bounded_self :
    let graph : Graph := ⟨[
      { tag := "a", commands := [⟨"jump", some "a"⟩], choices := [⟨"On", "a"⟩] }], by decide⟩
    let world : World (List (Notice × Store)) :=
      { bus := {}, rest := { session := { staging := some (.ofGraph graph) }, host := [] } }
    let after := (Move.start.perform Host.recorder world).2.rest
    after.session.Idle ∧ (Move.start.beats world.rest.session).countP Beat.leaps = 64 ∧
      ∃ remarks store, after.host = remarks ++ [(.completed, store)] ∧
        ∀ told ∈ remarks, told.1.Remark := by
  intro graph world after
  let staging : Staging := .ofGraph graph
  -- From the only place of the graph, the commands jump to that place, whatever the variables are.
  have hsweeps : ∀ {index placed store sweep}, index = 0 → Sweeps staging index placed store sweep →
      sweep.exit? = some (.toward "a" 0) := by
    rintro index placed store sweep rfl ⟨hplace, -, rfl⟩
    rw [← Option.some.inj hplace]
    rfl
  have hloop : ∀ {jumps index store ran halt}, Leads staging jumps index store ran halt →
      index = 0 → ¬ halt.Final := by
    intro jumps index store ran halt hleads
    induction hleads with
    | plain hplace hchoices =>
      rintro rfl
      rw [← Option.some.inj hplace] at hchoices
      cases hchoices
    | stays h hexit =>
      intro hindex
      rw [hsweeps hindex h] at hexit
      cases hexit
    | closes h hexit =>
      intro hindex
      rw [hsweeps hindex h] at hexit
      cases hexit
    | asks h hexit => exact fun _ => id
    | jumps h hexit _ ih =>
      intro hindex
      rw [hsweeps hindex h] at hexit
      cases hexit
      exact ih rfl
  have hreached : Reached Unit world := .fresh ⟨_, _, rfl⟩
  obtain ⟨-, -, -, hok, hquiet, hends⟩ :=
    redirects_bounded Host.quiet_recorder.toAloof Host.records_recorder hreached .start
  obtain ⟨hsession, hheard⟩ := hok (hquiet _ Host.quiet_recorder ⟨rfl, rfl, rfl⟩ rfl)
  obtain ⟨ran, tag, last, -, htripped⟩ := (hends staging rfl).2 trivial
    fun jumps ran halt hleads hfinal => (hloop hleads rfl hfinal).elim
  obtain ⟨remarks, hremarks, htold⟩ := htripped.heard
  refine ⟨?_, htripped.jumps, remarks, last, ?_, htold⟩
  · exact hsession ▸ htripped.holds.1
  · rw [hremarks] at hheard
    exact hheard

end Colloquy
