import Colloquy.Proofs.Session.Journal

/-!
# Linear graphs

A graph is linear if no node offers choices and no command ends the session or jumps. A player who
goes on sees its nodes in order, each with the variables that the commands of the nodes before it
have left behind, and then the end, or the first node again.

`Beat.visit` is what one node comes to: it is entered and shown, and when the player goes on, its
commands run. A session goes on from one visit to the next (`beats_next`), so what a player does
is a list of visits (`journal_going`, `journal_through`).
-/

namespace Colloquy

/-! ## Commands that stay -/

/-- A command that neither ends the session nor jumps, whatever the variables are. -/
def Command.Stays (command : Command) : Prop :=
  command.name ∉ ["close", "closeif", "jump", "jumpif"]

instance : DecidablePred Command.Stays := fun command =>
  inferInstanceAs (Decidable (command.name ∉ ["close", "closeif", "jump", "jumpif"]))

/-- The variables after some commands. -/
def Store.after (store : Store) (commands : List Command) : Store :=
  commands.foldl (fun store command => command.leaves store) store

/-- What the handler is told when a command runs. -/
def Command.told (command : Command) (store : Store) : List Notice :=
  match command.work store with
  | .plain signals _ => signals.filterMap Signal.told?
  | _ => []

/-- What the handler is told when commands run, each time with the variables of that moment. -/
def Command.toldAll : List Command → Store → List (Notice × Store)
  | [], _ => []
  | command :: commands, store =>
    (command.told store).map (·, store) ++ toldAll commands (command.leaves store)

/-- What the handler is told when nodes are shown and their commands run, each time with the
variables of that moment. -/
def Node.toldAll : List Node → Store → List (Notice × Store)
  | [], _ => []
  | node :: nodes, store =>
    (Session.presentation store node).map (·, store) ++ Command.toldAll node.commands store ++
      toldAll nodes (store.after node.commands)

/-- No node offers choices, and no command ends the session or jumps. -/
structure Graph.Linear (graph : Graph) : Prop where
  nonempty : 0 < graph.size
  choices : ∀ node ∈ graph.nodes, node.hasChoices = false
  commands : ∀ node ∈ graph.nodes, ∀ command ∈ node.commands, command.Stays

section Commands

variable {command : Command} {list : List Command}

theorem Command.Stays.work_eq (h : command.Stays) (store : Store) :
    ∃ signals, command.work store = .plain signals (command.leaves store) := by
  have hplain : ∃ signals store', command.work store = .plain signals store' := by
    unfold Command.Stays at h
    unfold Command.work
    split <;> simp_all
  obtain ⟨signals, store', hwork⟩ := hplain
  exact ⟨signals, by rw [Command.leaves, hwork]⟩

theorem Command.Stays.turn_eq (h : command.Stays) (graph : Graph) (store : Store) :
    command.turn graph store = .stays := by
  obtain ⟨signals, hwork⟩ := h.work_eq store
  rw [Command.turn, hwork]

/-- Commands that stay run one after the other, and that is all. -/
theorem Course.asides_of_stays (hlist : ∀ command ∈ list, command.Stays) (graph : Graph)
    (store : Store) : asides graph list store = list.map .ran := by
  induction list generalizing store with
  | nil => rfl
  | cons command list ih =>
    rw [List.forall_mem_cons] at hlist
    rw [asides, hlist.1.turn_eq, List.map_cons, ih hlist.2]

theorem Sweep.of_stays (hlist : ∀ command ∈ list, command.Stays) (graph : Graph) (store : Store) :
    Sweep.of graph list store = ⟨list, store.after list, none⟩ := by
  induction list generalizing store with
  | nil => rfl
  | cons command list ih =>
    rw [List.forall_mem_cons] at hlist
    rw [Sweep.of, hlist.1.turn_eq]
    dsimp only
    rw [ih hlist.2]
    rfl

theorem Beat.replay_ran (list : List Command) (session : Session) :
    Beat.replay session (list.map .ran) = Session.keepStore (session.store.after list) session := by
  induction list generalizing session with
  | nil => rfl
  | cons command list ih => exact ih _

theorem Beat.told_ran (command : Command) (session : Session) :
    (Beat.ran command).told session = command.told session.store := by
  unfold told signals Command.told
  dsimp only
  cases command.work session.store <;> rfl

theorem Beat.heardIn_ran (list : List Command) (session : Session) :
    Beat.heardIn session (list.map .ran) = Command.toldAll list session.store := by
  induction list generalizing session with
  | nil => rfl
  | cons command list ih =>
    rw [List.map_cons, Beat.heardIn, ih, told_ran]
    rfl

end Commands

/-! ## Visits -/

namespace Beat

/-- A node comes on screen and is shown. -/
def arriving (index : Nat) (placed : Placed) : List Beat :=
  [.entered index placed false, .shown placed.node]

/-- The player goes on, and the commands of the node on screen run. -/
def clearing (wrap : Bool) (node : Node) : List Beat :=
  .called (.next wrap) :: .begun :: node.commands.map .ran

/-- A node comes on screen and is shown; the player goes on, and its commands run. -/
def visit (wrap : Bool) (place : Nat × Placed) : List Beat :=
  arriving place.1 place.2 ++ clearing wrap place.2.node

end Beat

/-- The session with a node on screen whose commands have not run. -/
def Session.showing (session : Session) (index : Nat) (placed : Placed) (store : Store) : Session :=
  { session with index, current := some placed, hasRun := false, store }

section Visits

variable {session : Session} {index : Nat} {placed : Placed} {store : Store} {wrap : Bool}

theorem Beat.replay_arriving (hchoices : placed.node.hasChoices = false) :
    Beat.replay session (arriving index placed) = session.showing index placed session.store := by
  simp [arriving, Beat.apply, Session.showing, hchoices]

theorem Beat.heardIn_arriving :
    Beat.heardIn session (arriving index placed) =
      (Session.presentation session.store placed.node).map (·, session.store) := by
  simp [arriving, Beat.heardIn, Beat.told, Beat.signals, Beat.apply, filterMap_told_presenting]

theorem Beat.replay_clearing (node : Node) :
    Beat.replay session (clearing wrap node) =
      { session with hasRun := true, store := session.store.after node.commands } := by
  rw [clearing, replay_cons, replay_cons, replay_ran]
  rfl

theorem Beat.heardIn_clearing (node : Node) :
    Beat.heardIn session (clearing wrap node) = Command.toldAll node.commands session.store := by
  rw [clearing, heardIn, heardIn, heardIn_ran]
  rfl

end Visits

/-! ## Which node comes next -/

/-- Nodes with one mark are one node, and no node stands at two places. So no mark but its own is
that of the node on screen, and the search for the next node ends where it starts. -/
theorem Session.firstOther_eq {graph : Graph} {marks : List Nat}
    (hlength : marks.length = graph.size)
    (hidentity : ∀ i j : Nat, marks[i]? = marks[j]? → graph.nodes[i]? = graph.nodes[j]?)
    {cursor mark : Nat} (hmark : marks[cursor]? = some mark) (start : Nat) :
    firstOther cursor mark start (marks.drop start) = start := by
  cases hrest : marks.drop start with
  | nil => rfl
  | cons other rest =>
    have hother : marks[start]? = some other := by
      rw [← List.head?_drop, hrest]
      rfl
    rw [firstOther, if_neg]
    intro hskip
    rw [Bool.and_eq_true, decide_eq_true_iff, decide_eq_true_iff] at hskip
    obtain ⟨hne, rfl⟩ := hskip
    have hplace : start < graph.nodes.length := by
      have hstart := (List.getElem?_eq_some_iff.mp hother).1
      rwa [hlength] at hstart
    have htags : (graph.nodes.map (·.tag))[start]? = (graph.nodes.map (·.tag))[cursor]? := by
      rw [List.getElem?_map, List.getElem?_map, hidentity start cursor (hother.trans hmark.symm)]
    exact hne ((List.getElem?_inj (by simpa using hplace) graph.nodup).mp htags)

/-- The place after the last one of a graph is the first one. -/
theorem succ_mod_eq {index size : Nat} (hindex : index < size) :
    (index + 1) % size = if index + 1 < size then index + 1 else 0 := by
  split
  · next hlt => exact Nat.mod_eq_of_lt hlt
  · next hge =>
    obtain rfl : index + 1 = size := by omega
    exact Nat.mod_self _

/-- Marks that are all different tell the nodes apart. -/
theorem Staging.nodes_of_marks (staging : Staging) (i j : Nat)
    (hsame : staging.marks[i]? = staging.marks[j]?) :
    staging.graph.nodes[i]? = staging.graph.nodes[j]? := by
  have hlength : staging.marks.length = staging.graph.nodes.length := staging.sameLength
  rcases Nat.lt_or_ge i staging.marks.length with hi | hi
  · rw [(List.getElem?_inj hi staging.distinct).mp hsame]
  · rw [List.getElem?_eq_none hi, eq_comm, List.getElem?_eq_none_iff] at hsame
    rw [List.getElem?_eq_none (by omega), List.getElem?_eq_none (by omega)]

/-- The node after the one on screen is the next one, unless that was the last one. -/
theorem Course.following?_eq {staging : Staging} {placed : Placed} (session : Session)
    (hplace : staging.at? session.index = some placed) (wrap : Bool) :
    following? staging placed wrap session =
      if wrap = true ∨ session.index + 1 < staging.graph.size then
        some ((session.index + 1) % staging.graph.size)
      else none := by
  have hindex := Staging.lt_size_of_at? hplace
  have hfirst : ∀ start, Session.firstOther session.index placed.mark start
      (staging.marks.drop start) = start :=
    Session.firstOther_eq staging.sameLength staging.nodes_of_marks
      (Staging.at?_eq_some_iff.mp hplace).2
  rw [following?, succ_mod_eq hindex]
  dsimp only
  rw [hfirst]
  by_cases hlast : session.index + 1 < staging.graph.size
  · have hinside : ¬ staging.graph.size ≤ session.index + 1 := by omega
    simp [hlast, hinside]
  · have hover : staging.graph.size ≤ session.index + 1 := by omega
    have hzero : ¬ staging.graph.size ≤ 0 := by omega
    cases wrap <;> simp [hlast, hover, hzero]

/-! ## Going on -/

section Going

variable {staging : Staging} {session : Session} {placed : Placed} {store : Store} {wrap : Bool}
  {index : Nat}

theorem Graph.Linear.not_isEmpty {graph : Graph} (hlinear : graph.Linear) :
    ¬ graph.nodes.isEmpty = true := by
  rw [List.isEmpty_iff]
  exact List.ne_nil_of_length_pos hlinear.nonempty

theorem Graph.Linear.choices_at? (hlinear : staging.graph.Linear)
    (hplace : staging.at? index = some placed) : placed.node.hasChoices = false :=
  hlinear.choices _ (List.mem_of_getElem? (Staging.at?_eq_some_iff.mp hplace).1)

theorem Graph.Linear.commands_at? (hlinear : staging.graph.Linear)
    (hplace : staging.at? index = some placed) : ∀ command ∈ placed.node.commands, command.Stays :=
  hlinear.commands _ (List.mem_of_getElem? (Staging.at?_eq_some_iff.mp hplace).1)

theorem Course.enter_of_linear (hlinear : staging.graph.Linear)
    (hplace : staging.at? index = some placed) (session : Session) :
    enter staging index false session = Beat.arriving index placed := by
  rw [enter, entering_of_not_runs hplace]
  · rfl
  · rw [hlinear.choices_at? hplace]
    rfl

/-- Going on from a node runs its commands, and then leads to the next node, if there is one. -/
theorem Graph.Linear.beats_next (hlinear : staging.graph.Linear)
    (hbound : session.staging = some staging) (hplace : staging.at? index = some placed) :
    ∃ swept, swept.staging = some staging ∧
      (Move.next wrap).beats (session.showing index placed store) =
        Beat.clearing wrap placed.node ++
          Departure.beats swept
            (if wrap = true ∨ index + 1 < staging.graph.size then
              .enters ((index + 1) % staging.graph.size)
            else .ends) := by
  let shown := session.showing index placed store
  have hshown : shown.staging = some staging := hbound
  have hstarts : (Move.next wrap).starts? shown = some (staging, placed) := by
    simp [Move.starts?, shown, Session.showing, hbound]
  have hprelude : (Move.next wrap).prelude shown = .begun :: placed.node.commands.map .ran := by
    rw [Move.prelude, hstarts, Option.elim_some]
    exact congrArg (.begun :: ·) (Course.asides_of_stays (hlinear.commands_at? hplace) _ _)
  have hsweep : (Move.next wrap).sweep? shown =
      some ⟨placed.node.commands, store.after placed.node.commands, none⟩ := by
    rw [Move.sweep?, hstarts, Option.map_some]
    exact congrArg some (Sweep.of_stays (hlinear.commands_at? hplace) _ _)
  have hfollowing : Course.following? staging placed wrap shown =
      if wrap = true ∨ index + 1 < staging.graph.size then
        some ((index + 1) % staging.graph.size)
      else none := Course.following?_eq shown hplace wrap
  have hdeparture : (Move.next wrap).departure shown =
      if wrap = true ∨ index + 1 < staging.graph.size then
        .enters ((index + 1) % staging.graph.size)
      else .ends := by
    rw [Move.departure, hshown, hsweep]
    change Departure.advancing staging placed wrap shown = _
    rw [Departure.advancing, hlinear.choices_at? hplace, if_neg Bool.false_ne_true, hfollowing]
    by_cases hgoes : wrap = true ∨ index + 1 < staging.graph.size
    · rw [if_pos hgoes, if_pos hgoes]
    · rw [if_neg hgoes, if_neg hgoes]
  refine ⟨Beat.replay shown ((Move.next wrap).prelude shown), ?_, ?_⟩
  · rw [hprelude, Beat.replay_cons, Beat.replay_ran]
    exact hbound
  · change .called (.next wrap) :: (Move.next wrap).sequel shown = _
    rw [Move.sequel_eq, hdeparture, hprelude]
    rfl

theorem Graph.Linear.beats_next_enters (hlinear : staging.graph.Linear)
    (hbound : session.staging = some staging) (hplace : staging.at? index = some placed)
    (hgoes : wrap = true ∨ index + 1 < staging.graph.size) {other : Placed}
    (hother : staging.at? ((index + 1) % staging.graph.size) = some other) :
    (Move.next wrap).beats (session.showing index placed store) =
      Beat.clearing wrap placed.node ++ Beat.arriving ((index + 1) % staging.graph.size) other := by
  obtain ⟨swept, hswept, hbeats⟩ := hlinear.beats_next hbound hplace
  rw [hbeats, if_pos hgoes, Departure.beats, Course.inGraph, hswept]
  exact congrArg (_ ++ ·) (Course.enter_of_linear hlinear hother swept)

theorem Graph.Linear.beats_next_ends (hlinear : staging.graph.Linear)
    (hbound : session.staging = some staging) (hplace : staging.at? index = some placed)
    (hlast : index + 1 = staging.graph.size) :
    (Move.next false).beats (session.showing index placed store) =
      Beat.clearing false placed.node ++ [.finished] := by
  obtain ⟨swept, -, hbeats⟩ := hlinear.beats_next hbound hplace
  rw [hbeats, if_neg (by simp; omega)]
  rfl

end Going

/-! ## Lists of visits -/

/-- The places that a player comes through who goes on so many times, the first one again after
the last. -/
def Staging.lap (staging : Staging) (count : Nat) : List (Nat × Placed) :=
  (List.range count).filterMap fun step =>
    (staging.at? (step % staging.graph.size)).map (step % staging.graph.size, ·)

/-- The nodes at some places. -/
def nodesAt (places : List (Nat × Placed)) : List Node :=
  places.map (·.2.node)

/-- The variables after the commands of some nodes. -/
def Store.afterNodes (store : Store) (nodes : List Node) : Store :=
  store.after (nodes.flatMap (·.commands))

section Laps

variable {staging : Staging} {session : Session} {places : List (Nat × Placed)} {count : Nat}

theorem Staging.lap_succ {placed : Placed}
    (hplace : staging.at? (count % staging.graph.size) = some placed) :
    staging.lap (count + 1) = staging.lap count ++ [(count % staging.graph.size, placed)] := by
  rw [lap, List.range_succ, List.filterMap_append, lap]
  simp [hplace]

/-- Whoever goes on once for every node comes through the nodes in order. -/
theorem Staging.nodesAt_lap (staging : Staging) (hcount : count ≤ staging.graph.size) :
    nodesAt (staging.lap count) = staging.graph.nodes.take count := by
  induction count with
  | zero => rfl
  | succ count ih =>
    have hlt : count < staging.graph.size := hcount
    obtain ⟨placed, hplace⟩ := staging.exists_at? hlt
    have hmod : staging.at? (count % staging.graph.size) = some placed := by
      rwa [Nat.mod_eq_of_lt hlt]
    have hnode := (Staging.at?_eq_some_iff.mp hplace).1
    rw [lap_succ hmod, nodesAt, List.map_append, ← nodesAt, ih (by omega), List.take_add_one, hnode]
    rfl

theorem Graph.Linear.choices_lap (hlinear : staging.graph.Linear) :
    ∀ place ∈ staging.lap count, place.2.node.hasChoices = false := by
  intro place hmem
  obtain ⟨step, -, hstep⟩ := List.mem_filterMap.mp hmem
  obtain ⟨placed, hplace, rfl⟩ := Option.map_eq_some_iff.mp hstep
  exact hlinear.choices_at? hplace

/-- After some visits, nothing but the variables depends on what came before the last one. -/
theorem Beat.replay_visits {wrap : Bool}
    (hchoices : ∀ place ∈ places, place.2.node.hasChoices = false) (session : Session) :
    ∃ index current hasRun, Beat.replay session (places.flatMap (visit wrap)) =
      { session with
        index, current, hasRun, store := session.store.afterNodes (nodesAt places) } := by
  induction places generalizing session with
  | nil => exact ⟨session.index, session.current, session.hasRun, rfl⟩
  | cons place places ih =>
    rw [List.forall_mem_cons] at hchoices
    obtain ⟨index, current, hasRun, hrest⟩ := ih hchoices.2
      (Beat.replay session (visit wrap place))
    refine ⟨index, current, hasRun, ?_⟩
    rw [List.flatMap_cons, replay_append, hrest, visit, replay_append, replay_arriving hchoices.1,
      replay_clearing]
    simp [Session.showing, Store.afterNodes, Store.after, nodesAt, List.foldl_append]

theorem Beat.heardIn_visits {wrap : Bool}
    (hchoices : ∀ place ∈ places, place.2.node.hasChoices = false) (session : Session) :
    Beat.heardIn session (places.flatMap (visit wrap)) =
      Node.toldAll (nodesAt places) session.store := by
  induction places generalizing session with
  | nil => rfl
  | cons place places ih =>
    rw [List.forall_mem_cons] at hchoices
    rw [List.flatMap_cons, heardIn_append, ih hchoices.2, visit, heardIn_append, heardIn_arriving,
      heardIn_clearing, replay_append, replay_arriving hchoices.1, replay_clearing]
    rfl

end Laps

/-! ## Journals -/

theorem Journal.of_append_singleton (moves : List Move) (move : Move) (session : Session) :
    Journal.of (moves ++ [move]) session =
      Journal.of moves session ++ move.beats (Beat.replay session (Journal.of moves session)) := by
  induction moves generalizing session with
  | nil => simp [Journal.of]
  | cons first moves ih =>
    rw [List.cons_append, Journal.of, Journal.of, ih, Beat.replay_append, List.append_assoc]

section Journals

variable {staging : Staging} {session : Session} {wrap : Bool} {count : Nat}

/-- What a player has seen who started and went on so many times, with a node on screen now. -/
def Beat.visits (staging : Staging) (wrap : Bool) (count : Nat) : List Beat :=
  .called .start :: (staging.lap count).flatMap (visit wrap)

theorem Graph.Linear.replay_visits (hlinear : staging.graph.Linear) (wrap : Bool) (count : Nat)
    (session : Session) :
    ∃ index current hasRun, Beat.replay session (Beat.visits staging wrap count) =
      { session with
        index, current, hasRun
        store := session.store.afterNodes (nodesAt (staging.lap count)) } :=
  Beat.replay_visits hlinear.choices_lap session

theorem Graph.Linear.heardIn_visits (hlinear : staging.graph.Linear) (session : Session) :
    Beat.heardIn session (Beat.visits staging wrap count) =
      Node.toldAll (nodesAt (staging.lap count)) session.store :=
  Beat.heardIn_visits hlinear.choices_lap session

theorem Graph.Linear.replay_arriving (hlinear : staging.graph.Linear) {index : Nat}
    {placed : Placed} (hplace : staging.at? index = some placed) (session : Session) :
    Beat.replay session (Beat.visits staging wrap count ++ Beat.arriving index placed) =
      session.showing index placed (session.store.afterNodes (nodesAt (staging.lap count))) := by
  obtain ⟨oldIndex, current, hasRun, hvisits⟩ := hlinear.replay_visits wrap count session
  rw [Beat.replay_append, hvisits, Beat.replay_arriving (hlinear.choices_at? hplace)]
  rfl

theorem Beat.visits_succ {placed : Placed}
    (hplace : staging.at? (count % staging.graph.size) = some placed) :
    visits staging wrap (count + 1) =
      visits staging wrap count ++ arriving (count % staging.graph.size) placed ++
        clearing wrap placed.node := by
  rw [visits, Staging.lap_succ hplace, List.flatMap_append, List.flatMap_singleton, visit, visits]
  simp

theorem Graph.Linear.beats_start (hlinear : staging.graph.Linear)
    (hbound : session.staging = some staging) {placed : Placed}
    (hplace : staging.at? 0 = some placed) :
    Move.start.beats session = .called .start :: Beat.arriving 0 placed := by
  have hbeats : Move.start.beats session = .called .start :: Course.inGraph session fun staging =>
    if staging.graph.nodes.isEmpty then [] else Course.enter staging 0 false session := rfl
  rw [hbeats, Course.inGraph, hbound]
  dsimp only
  rw [if_neg hlinear.not_isEmpty, Course.enter_of_linear hlinear hplace]

/-- Starting and going on leads from one node to the next, and to the first one again after the
last if it wraps around. -/
theorem Graph.Linear.journal_going (hlinear : staging.graph.Linear)
    (hbound : session.staging = some staging) (hgoes : wrap = true ∨ count < staging.graph.size) :
    ∃ placed, staging.at? (count % staging.graph.size) = some placed ∧
      Journal.of (.start :: List.replicate count (.next wrap)) session =
        Beat.visits staging wrap count ++ Beat.arriving (count % staging.graph.size) placed := by
  have hpos := hlinear.nonempty
  induction count with
  | zero =>
    obtain ⟨placed, hplace⟩ := staging.exists_at? hpos
    refine ⟨placed, by rwa [Nat.zero_mod], ?_⟩
    rw [Nat.zero_mod, List.replicate_zero, Journal.of, Journal.of, List.append_nil,
      hlinear.beats_start hbound hplace]
    rfl
  | succ count ih =>
    obtain ⟨placed, hplace, hjournal⟩ := ih (hgoes.imp id (by omega))
    obtain ⟨other, hother⟩ := staging.exists_at? (Nat.mod_lt (count + 1) hpos)
    have hmod : (count % staging.graph.size + 1) % staging.graph.size =
        (count + 1) % staging.graph.size := Nat.mod_add_mod _ _ _
    have hgoes' : wrap = true ∨ count % staging.graph.size + 1 < staging.graph.size :=
      hgoes.imp id fun hlt => by rwa [Nat.mod_eq_of_lt (by omega)]
    rw [← hmod] at hother
    refine ⟨other, by rwa [← hmod], ?_⟩
    rw [List.replicate_succ', ← List.cons_append, Journal.of_append_singleton, hjournal,
      hlinear.replay_arriving hplace, hlinear.beats_next_enters hbound hplace hgoes' hother,
      Beat.visits_succ hplace, hmod, List.append_assoc, List.append_assoc, List.append_assoc]

/-- Going on from the last node ends the session. -/
theorem Graph.Linear.journal_through (hlinear : staging.graph.Linear)
    (hbound : session.staging = some staging) :
    Journal.of (.start :: List.replicate staging.graph.size (.next false)) session =
      Beat.visits staging false staging.graph.size ++ [.finished] := by
  obtain ⟨last, hlast⟩ : ∃ last, staging.graph.size = last + 1 :=
    Nat.exists_eq_add_one.mpr hlinear.nonempty
  obtain ⟨placed, hplace, hjournal⟩ := hlinear.journal_going hbound (.inr (by omega : last < _))
  have hmod : last % staging.graph.size = last := Nat.mod_eq_of_lt (by omega)
  rw [hlast, List.replicate_succ', ← List.cons_append, Journal.of_append_singleton, hjournal,
    hlinear.replay_arriving hplace, hlinear.beats_next_ends hbound hplace (by omega),
    Beat.visits_succ hplace, List.append_assoc, List.append_assoc, List.append_assoc]

end Journals

/-! ## Playing a linear graph -/

theorem Command.ne_completed_of_told {command : Command} {store : Store} :
    ∀ notice ∈ command.told store, notice ≠ .completed := by
  unfold told
  cases hwork : command.work store with
  | plain signals store' =>
    rcases signals_of_work hwork with rfl | ⟨level, message, -, rfl⟩
      | ⟨message, text, rfl⟩ | rfl <;>
      simp [Signal.told?]
  | close => simp
  | jump tag => simp

theorem Command.ne_completed_of_toldAll (list : List Command) (store : Store) :
    ∀ entry ∈ Command.toldAll list store, entry.1 ≠ .completed := by
  induction list generalizing store with
  | nil => simp [toldAll]
  | cons command list ih =>
    rw [toldAll, List.forall_mem_append, List.forall_mem_map]
    exact ⟨fun notice hnotice => ne_completed_of_told notice hnotice, ih _⟩

theorem Session.ne_completed_of_presentation {store : Store} {node : Node} :
    ∀ notice ∈ presentation store node, notice ≠ .completed := by
  unfold presentation
  split <;> simp

/-- Neither showing nodes nor running their commands says that the session has ended. -/
theorem Node.ne_completed_of_toldAll (nodes : List Node) (store : Store) :
    ∀ entry ∈ Node.toldAll nodes store, entry.1 ≠ .completed := by
  induction nodes generalizing store with
  | nil => simp [toldAll]
  | cons node nodes ih =>
    rw [toldAll, List.forall_mem_append, List.forall_mem_append, List.forall_mem_map]
    exact ⟨⟨fun notice hnotice => Session.ne_completed_of_presentation notice hnotice,
      Command.ne_completed_of_toldAll _ _⟩, ih _⟩

/-- No visit ends the session. -/
theorem Beat.ne_finished_of_visits (staging : Staging) (wrap : Bool) (count : Nat) :
    ∀ beat ∈ visits staging wrap count, beat ≠ .finished := by
  have hvisit : ∀ place, ∀ beat ∈ visit wrap place, beat ≠ .finished := by
    simp [visit, arriving, clearing]
  rw [visits, List.forall_mem_cons]
  refine ⟨by simp, fun beat hbeat => ?_⟩
  obtain ⟨place, -, hmem⟩ := List.mem_flatMap.mp hbeat
  exact hvisit place beat hmem

namespace Session

variable {σ ε : Type} {host : Host σ ε} {calm : Bus Notice.Kind String Notice → σ → Prop}
  {heard : σ → List (Notice × Store)} {world : World σ} {staging : Staging}

/-- What has come of starting and of going on so many times, with a node on screen. -/
structure PlayedTo (calm : Bus Notice.Kind String Notice → σ → Prop)
    (heard : σ → List (Notice × Store)) (world : World σ) (staging : Staging) (wrap : Bool)
    (count : Nat) (placed : Placed) (world' : World σ) : Prop where
  place : staging.at? (count % staging.graph.size) = some placed
  /-- The nodes before this one were shown, and their commands have run, one node after the
  other. -/
  performed : Performed calm heard world
    (Beat.visits staging wrap count ++ Beat.arriving (count % staging.graph.size) placed) world'
  unfinished : ∀ beat ∈ Beat.visits staging wrap count ++
    Beat.arriving (count % staging.graph.size) placed, beat ≠ .finished
  session : world'.rest.session =
    world.rest.session.showing (count % staging.graph.size) placed
      (world.rest.session.store.afterNodes (nodesAt (staging.lap count)))
  heard : heard world'.rest.host = heard world.rest.host ++
    Node.toldAll (nodesAt (staging.lap count)) world.rest.session.store ++
      (presentation world'.rest.session.store placed.node).map (·, world'.rest.session.store)
  /-- The handler has not been told of the end. -/
  untold : ∀ entry ∈ Node.toldAll (nodesAt (staging.lap count)) world.rest.session.store ++
    (presentation world'.rest.session.store placed.node).map (·, world'.rest.session.store),
    entry.1 ≠ .completed

/-- What has come of playing a graph through. -/
structure PlayedThrough (calm : Bus Notice.Kind String Notice → σ → Prop)
    (heard : σ → List (Notice × Store)) (world : World σ) (staging : Staging) (world' : World σ) :
    Prop where
  performed : Performed calm heard world
    (Beat.visits staging false staging.graph.size ++ [.finished]) world'
  inOrder : nodesAt (staging.lap staging.graph.size) = staging.graph.nodes
  unfinished : ∀ beat ∈ Beat.visits staging false staging.graph.size, beat ≠ .finished
  session : world'.rest.session = rewound { world.rest.session with
    store := world.rest.session.store.afterNodes staging.graph.nodes }
  heard : heard world'.rest.host = heard world.rest.host ++
    Node.toldAll staging.graph.nodes world.rest.session.store ++
      [(.completed, world'.rest.session.store)]
  /-- The handler is told of the end once. -/
  untold : ∀ entry ∈ Node.toldAll staging.graph.nodes world.rest.session.store,
    entry.1 ≠ .completed

theorem playedTo (hhost : host.Quiet calm) (hheard : host.Records heard)
    (hbound : world.rest.session.staging = some staging) (hlinear : staging.graph.Linear)
    (hsettled : world.rest.session.Settled) (hcalm : calm world.bus world.rest.host)
    {wrap : Bool} {count : Nat} (hgoes : wrap = true ∨ count < staging.graph.size) :
    ∃ placed, PlayedTo calm heard world staging wrap count placed
      (Move.performAll host (.start :: List.replicate count (.next wrap)) world) := by
  obtain ⟨placed, hplace, hjournal⟩ := hlinear.journal_going hbound hgoes
  have hperformed := performAll_journal hhost hheard (.start :: List.replicate count (.next wrap))
    hsettled hcalm
  rw [hjournal] at hperformed
  have hsession := hperformed.session
  rw [hlinear.replay_arriving hplace] at hsession
  refine ⟨placed, hplace, hperformed, ?_, hsession, ?_, ?_⟩
  · exact List.forall_mem_append.2 ⟨Beat.ne_finished_of_visits _ _ _, by simp [Beat.arriving]⟩
  · obtain ⟨index, current, hasRun, hvisits⟩ := hlinear.replay_visits wrap count
      world.rest.session
    rw [hperformed.heard, Beat.heardIn_append, hlinear.heardIn_visits, hvisits,
      Beat.heardIn_arriving, hsession, List.append_assoc]
    rfl
  · rw [List.forall_mem_append, List.forall_mem_map]
    exact ⟨Node.ne_completed_of_toldAll _ _,
      fun notice hnotice => ne_completed_of_presentation notice hnotice⟩

theorem playedThrough (hhost : host.Quiet calm) (hheard : host.Records heard)
    (hbound : world.rest.session.staging = some staging) (hlinear : staging.graph.Linear)
    (hsettled : world.rest.session.Settled) (hcalm : calm world.bus world.rest.host) :
    PlayedThrough calm heard world staging
      (Move.performAll host (.start :: List.replicate staging.graph.size (.next false)) world) := by
  have hnodes : nodesAt (staging.lap staging.graph.size) = staging.graph.nodes := by
    rw [staging.nodesAt_lap (Nat.le_refl _)]
    exact List.take_length
  have hperformed := performAll_journal hhost hheard
    (.start :: List.replicate staging.graph.size (.next false)) hsettled hcalm
  rw [hlinear.journal_through hbound] at hperformed
  obtain ⟨index, current, hasRun, hvisits⟩ := hlinear.replay_visits false staging.graph.size
    world.rest.session
  rw [hnodes] at hvisits
  have hsession := hperformed.session
  rw [Beat.replay_append, hvisits] at hsession
  refine ⟨hperformed, hnodes, Beat.ne_finished_of_visits _ _ _, hsession, ?_,
    Node.ne_completed_of_toldAll _ _⟩
  rw [hperformed.heard, Beat.heardIn_append, hlinear.heardIn_visits, hnodes, hvisits, hsession,
    List.append_assoc]
  rfl

theorem PlayedTo.settled {wrap : Bool} {count : Nat} {placed : Placed} {world' : World σ}
    (h : PlayedTo calm heard world staging wrap count placed world')
    (hbound : world.rest.session.staging = some staging) (hlinear : staging.graph.Linear)
    (hsettled : world.rest.session.Settled) : world'.rest.session.Settled := by
  rw [h.session]
  refine ⟨.inr ⟨staging, placed, hbound, rfl, h.place, fun hchoices => ?_⟩, hsettled.pending⟩
  rw [hlinear.choices_at? h.place] at hchoices
  cases hchoices

/-- A linear graph is played through, whatever the variables are.

* No call fails. * After starting and going on `count` times, the node on screen is the one at
place `count`; if the player wraps around, the places are counted from the first one again after
the last. The nodes before it were shown in order, each with the variables that the commands
before it have left behind, and each node's commands have run in order after it was shown and
before the next one was. The end has not come. * Going on once for every node shows every node and
then the end. * The search for a next node that is not the one on screen passes over no node,
since no node stands at two places: nodes are the same only if they have one tag. -/
theorem linear_plays_through (hhost : host.Quiet calm) (hheard : host.Records heard)
    (hbound : world.rest.session.staging = some staging) (hlinear : staging.graph.Linear)
    (hsettled : world.rest.session.Settled) (hcalm : calm world.bus world.rest.host) :
    let played := fun (wrap : Bool) (count : Nat) =>
      Move.performAll host (.start :: List.replicate count (.next wrap)) world
    ((Move.start.perform host world).1 = .ok () ∧
      ∀ wrap count, wrap = true ∨ count < staging.graph.size →
        ((Move.next wrap).perform host (played wrap count)).1 = .ok ()) ∧
    (∀ wrap count, wrap = true ∨ count < staging.graph.size →
      ∃ placed, PlayedTo calm heard world staging wrap count placed (played wrap count)) ∧
    PlayedThrough calm heard world staging (played false staging.graph.size) ∧
    ∀ (marks : List Nat), marks.length = staging.graph.size →
      (∀ i j : Nat, marks[i]? = marks[j]? → staging.graph.nodes[i]? = staging.graph.nodes[j]?) →
      ∀ cursor mark : Nat, marks[cursor]? = some mark →
        ∀ start, firstOther cursor mark start (marks.drop start) = start := by
  have hto : ∀ {wrap : Bool} {count : Nat}, wrap = true ∨ count < staging.graph.size →
      ∃ placed, PlayedTo calm heard world staging wrap count placed
        (Move.performAll host (.start :: List.replicate count (.next wrap)) world) :=
    fun hgoes => playedTo hhost hheard hbound hlinear hsettled hcalm hgoes
  refine ⟨⟨?_, fun wrap count hgoes => ?_⟩, fun _ _ hgoes => hto hgoes,
    playedThrough hhost hheard hbound hlinear hsettled hcalm,
    fun marks hlength hidentity cursor mark hmark => firstOther_eq hlength hidentity hmark⟩
  · refine (perform_quiet hhost hsettled hcalm ?_).1
    rw [Move.refusal?, hbound]
    exact if_neg hlinear.not_isEmpty
  · obtain ⟨placed, hplayed⟩ := hto hgoes
    refine (perform_quiet hhost (hplayed.settled hbound hlinear hsettled)
      hplayed.performed.calm ?_).1
    simp [Move.refusal?, hplayed.session, showing, hbound]

/-- Two nodes, the second of which says what the first one has set. -/
theorem linear_plays_through_pair :
    let graph : Graph := ⟨[{ tag := "a", commands := [⟨"set", some "price 5"⟩] },
      { tag := "b", text := "$price" }], by decide⟩
    let world : World (List (Notice × Store)) :=
      { bus := {}, rest := { session := { staging := some (.ofGraph graph) }, host := [] } }
    let played := fun (wrap : Bool) (count : Nat) =>
      Move.performAll Host.recorder (.start :: List.replicate count (.next wrap)) world
    graph.Linear ∧ world.rest.session.Settled ∧
      PlayedThrough (fun bus _ => Live.Silent bus) id world (.ofGraph graph) (played false 2) ∧
      (played false 2).rest.host.map (·.1) =
        [.speaker "", .speech "", .speaker "", .speech "5", .completed] ∧
      ∃ placed, PlayedTo (fun bus _ => Live.Silent bus) id world (.ofGraph graph) true 5 placed
        (played true 5) := by
  intro graph world played
  have hlinear : graph.Linear := ⟨by decide, by decide, by decide⟩
  have hsettled : world.rest.session.Settled := ⟨.inl ⟨rfl, rfl, rfl⟩, rfl⟩
  obtain ⟨-, hto, hthrough, -⟩ := linear_plays_through Host.quiet_recorder Host.records_recorder
    (rfl : world.rest.session.staging = some (.ofGraph graph)) hlinear hsettled ⟨rfl, rfl, rfl⟩
  refine ⟨hlinear, hsettled, hthrough, ?_, hto true 5 (.inl rfl)⟩
  decide +kernel

end Session

end Colloquy
