import Colloquy.Proofs.Bus.Accounts

/-!
# Events in turn

A listener that publishes while it is called, and a dispatch that goes on with what waits, do not
get in each other's way. `InTurn` says that nothing in an account happens inside something else:
one walk after the other, and in a walk one call after the other. Every event that is published is
taken up once, and events are taken up in the order in which they were published.

Both follow from one invariant: marks are a `Turn` if they lead in turn from one phase to another
and if the events that are taken up, and then those that wait in the end, are those that waited at
first and then those that have been published meanwhile. A task is a turn (`Runs.inTurn`). The
main statement is `taken_in_turn`.
-/

namespace Colloquy

open Bus (Deed Mark)

variable {κ ι α : Type}

/-- An event, or what it has become when listeners have consumed it. -/
def Event.Same (event other : Event κ α) : Prop :=
  other.kind = event.kind ∧ other.data = event.data

namespace Bus

/-- What is going on on a bus. -/
inductive Phase (κ ι α : Type) where
  | idle
  /-- The walk for an event is between two subscriptions. -/
  | walking (event : Event κ α)
  /-- The listener of a subscription is being called. -/
  | serving (event : Event κ α) (subscription : Subscription ι)

/-- From a phase on, things happen one after the other, and nothing is left open: the host acts
between two walks and a listener during its call, a walk begins when no other one is under way,
and a call when no other listener is being called. -/
def InTurn : Phase κ ι α → List (Mark κ ι α) → Prop
  | .idle, [] => True
  | .idle, .did none _ _ :: marks => InTurn .idle marks
  | .idle, .taken event _ :: marks => InTurn (.walking event) marks
  | .walking event, .skipped _ _ :: marks => InTurn (.walking event) marks
  | .walking event, .begun subscription told _ :: marks =>
    event.Same told ∧ InTurn (.serving event subscription) marks
  | .serving event subscription, .did (some served) _ _ :: marks =>
    served = subscription ∧ InTurn (.serving event subscription) marks
  | .serving event subscription, .ended served left _ :: marks =>
    served = subscription ∧ event.Same left ∧ InTurn (.walking event) marks
  | .walking _, .finished _ _ _ :: marks => InTurn .idle marks
  | _, _ => False

/-- The event that a mark says to be taken up. -/
def Mark.taken? : Mark κ ι α → Option (Event κ α)
  | .taken event _ => some event
  | _ => none

/-- The event that a mark says to be published. -/
def Mark.published? : Mark κ ι α → Option (Event κ α)
  | .did _ deed _ => deed.event?
  | _ => none

/-- The events that are taken up, in order. -/
def takenIn (marks : List (Mark κ ι α)) : List (Event κ α) :=
  marks.filterMap Mark.taken?

/-- The events that are published, in order. -/
def publishedIn (marks : List (Mark κ ι α)) : List (Event κ α) :=
  marks.filterMap Mark.published?

/-- Every subscription that is to go at the end of a walk is there when its turn comes. -/
def Mark.Removes : Mark κ ι α → Prop
  | .finished walked places _ => Removable walked.length places
  | _ => True

/-- Marks lead in turn from one phase, with events that wait, to another one. -/
structure Turn (phase : Phase κ ι α) (waiting : List (Event κ α)) (marks : List (Mark κ ι α))
    (phase' : Phase κ ι α) (waiting' : List (Event κ α)) : Prop where
  inTurn : ∀ rest, InTurn phase' rest → InTurn phase (marks ++ rest)
  events : takenIn marks ++ waiting' = waiting ++ publishedIn marks
  removes : ∀ mark ∈ marks, mark.Removes

namespace Turn

variable {phase phase' phase'' : Phase κ ι α} {waiting waiting' waiting'' : List (Event κ α)}
  {first second : List (Mark κ ι α)} {event : Event κ α}

theorem nil (phase : Phase κ ι α) (waiting : List (Event κ α)) :
    Turn phase waiting ([] : List (Mark κ ι α)) phase waiting :=
  ⟨fun _ h => h, (List.append_nil waiting).symm, fun _ h => nomatch h⟩

theorem append (hfirst : Turn phase waiting first phase' waiting')
    (hsecond : Turn phase' waiting' second phase'' waiting'') :
    Turn phase waiting (first ++ second) phase'' waiting'' := by
  refine ⟨fun rest hrest => ?_, ?_, fun mark hmark => ?_⟩
  · rw [List.append_assoc]
    exact hfirst.inTurn _ (hsecond.inTurn rest hrest)
  · calc takenIn (first ++ second) ++ waiting''
        = takenIn first ++ (takenIn second ++ waiting'') := by
          rw [takenIn, List.filterMap_append, List.append_assoc]; rfl
      _ = (takenIn first ++ waiting') ++ publishedIn second := by
          rw [hsecond.events, List.append_assoc]
      _ = waiting ++ publishedIn (first ++ second) := by
          rw [hfirst.events, List.append_assoc, publishedIn, publishedIn, publishedIn,
            List.filterMap_append]
  · exact (List.mem_append.1 hmark).elim (hfirst.removes mark) (hsecond.removes mark)

theorem cons {mark : Mark κ ι α} (hfirst : Turn phase waiting [mark] phase' waiting')
    (hsecond : Turn phase' waiting' second phase'' waiting'') :
    Turn phase waiting (mark :: second) phase'' waiting'' :=
  hfirst.append hsecond

/-! ## Single marks -/

theorem single {mark : Mark κ ι α}
    (hinTurn : ∀ rest, InTurn phase' rest → InTurn phase (mark :: rest))
    (hevents : mark.taken?.toList ++ waiting' = waiting ++ mark.published?.toList)
    (hremoves : mark.Removes) : Turn phase waiting [mark] phase' waiting' := by
  refine ⟨hinTurn, ?_, fun other hother => List.mem_singleton.1 hother ▸ hremoves⟩
  have htaken : takenIn [mark] = mark.taken?.toList := by
    cases h : mark.taken? <;> simp [takenIn, h]
  have hpublished : publishedIn [mark] = mark.published?.toList := by
    cases h : mark.published? <;> simp [publishedIn, h]
  rw [htaken, hpublished, hevents]

theorem hostDeed {deed : Deed κ ι α} (hdeed : deed.event? = none) (waiting : List (Event κ α))
    (bus : Bus κ ι α) : Turn .idle waiting [.did none deed bus] .idle waiting :=
  single (fun _ h => h) (by simp [Mark.taken?, Mark.published?, hdeed]) trivial

theorem hostEvent (event : Event κ α) (bus : Bus κ ι α) :
    Turn .idle [] [.did none (.publish event) bus] .idle [event] :=
  single (fun _ h => h) rfl trivial

theorem listenerDeed (event : Event κ α) (subscription : Subscription ι) (deed : Deed κ ι α)
    (waiting : List (Event κ α)) (bus : Bus κ ι α) :
    Turn (.serving event subscription) waiting [.did (some subscription) deed bus]
      (.serving event subscription) (waiting ++ deed.event?.toList) :=
  single (fun _ h => ⟨rfl, h⟩) rfl trivial

theorem taken (event : Event κ α) (waiting : List (Event κ α)) (bus : Bus κ ι α) :
    Turn .idle (event :: waiting) [.taken event bus] (.walking event) waiting :=
  single (fun _ h => h) (List.append_nil _).symm trivial

theorem skipped (event : Event κ α) (waiting : List (Event κ α)) (subscription : Subscription ι)
    (bus : Bus κ ι α) :
    Turn (.walking event) waiting [.skipped subscription bus] (.walking event) waiting :=
  single (fun _ h => h) (List.append_nil _).symm trivial

theorem begun {told : Event κ α} (h : event.Same told) (waiting : List (Event κ α))
    (subscription : Subscription ι) (bus : Bus κ ι α) :
    Turn (.walking event) waiting [.begun subscription told bus] (.serving event subscription)
      waiting :=
  single (fun _ hrest => ⟨h, hrest⟩) (List.append_nil _).symm trivial

theorem ended {left : Event κ α} (h : event.Same left) (waiting : List (Event κ α))
    (subscription : Subscription ι) (failed : Bool) :
    Turn (.serving event subscription) waiting [.ended subscription left failed] (.walking event)
      waiting :=
  single (fun _ hrest => ⟨rfl, h, hrest⟩) (List.append_nil _).symm trivial

theorem finished {walked : List (Subscription ι)} {places : List Nat}
    (h : Removable walked.length places) (event : Event κ α) (waiting : List (Event κ α))
    (bus : Bus κ ι α) :
    Turn (.walking event) waiting [.finished walked places bus] .idle waiting :=
  single (fun _ h => h) (List.append_nil _).symm h

end Turn

end Bus

/-! ## Tasks -/

namespace Live

variable {ρ : Type} [DecidableEq κ] [DecidableEq ι] {manners : Manners κ ι α ρ} {report : κ → ρ → ρ}
  {task : Task κ ι α} {live live' : Live κ ι α ρ} {marks : List (Mark κ ι α)}

theorem turn_deedMarks (event : Event κ α) (subscription : Subscription ι)
    (deeds : List (Deed κ ι α)) (bus : Bus κ ι α) :
    Bus.Turn (.serving event subscription) bus.queue (deedMarks (some subscription) bus deeds)
      (.serving event subscription) (deeds.foldl Bus.apply bus).queue := by
  induction deeds generalizing bus with
  | nil => exact .nil _ _
  | cons deed deeds ih =>
    have hdeed := Bus.Turn.listenerDeed event subscription deed bus.queue bus
    rw [← Bus.queue_apply] at hdeed
    exact hdeed.cons (ih (bus.apply deed))

theorem length_walked_apply (bus : Bus κ ι α) (deed : Deed κ ι α) :
    bus.walked.length ≤ (bus.apply deed).walked.length := by
  obtain ⟨kind, subscription, -, -, hwalked⟩ | ⟨-, hwalked⟩ := Bus.walked_apply_cases bus deed
  · rw [hwalked, Bus.length_enlist]
    exact Nat.le_succ _
  · exact Nat.le_of_eq (congrArg List.length hwalked.symm)

/-- The walked list never gets shorter while it is walked. -/
theorem length_walked_foldl (bus : Bus κ ι α) (deeds : List (Deed κ ι α)) :
    bus.walked.length ≤ (deeds.foldl Bus.apply bus).walked.length :=
  List.foldlRecOn (motive := fun between => bus.walked.length ≤ between.walked.length)
    deeds Bus.apply (Nat.le_refl _) fun between hbetween deed _ =>
      Nat.le_trans hbetween (length_walked_apply between deed)

/-- What a task does with the events: it carries it out in turn. A walk takes up none, a dispatch
its own event and perhaps all that wait, and what waits when the host has done its deeds is
nothing. -/
def Task.InTurn : Task κ ι α → Live κ ι α ρ → List (Mark κ ι α) → Live κ ι α ρ → Prop
  | .perform served _, live, marks, live' =>
    served = none → live.bus.Idle → Bus.Turn .idle [] marks .idle [] ∧ live'.bus.Idle
  | .dispatch event, live, marks, live' => live.bus.walk = none →
    Bus.Turn .idle (event :: live.bus.queue) marks .idle live'.bus.queue ∧ live'.bus.walk = none ∧
      (live.bus.queue = [] → live'.bus.queue = [])
  | .drain, live, marks, live' => live.bus.walk = none →
    Bus.Turn .idle live.bus.queue marks .idle live'.bus.queue ∧ live'.bus.Idle
  | .walk place places event _, live, marks, live' => live.bus.walk.isSome →
    Removable place places → place ≤ live.bus.walked.length →
      (∀ first : Event κ α, first.Same event →
        Bus.Turn (.walking first) live.bus.queue marks .idle live'.bus.queue) ∧
      live'.bus.walk = none

theorem Runs.inTurn (h : Runs manners report task live marks live') :
    task.InTurn live marks live' := by
  induction h with
  | rest => exact fun _ hidle => ⟨.nil _ _, hidle⟩
  | apply hdeed hdeeds ih =>
    rintro rfl hidle
    have hevent := hdeed.resolve_right (by rw [hidle.walk]; exact Bool.false_ne_true)
    obtain ⟨hturn, hidle'⟩ := ih rfl (idle_apply hidle hevent)
    exact ⟨(Bus.Turn.hostDeed hevent [] _).cons hturn, hidle'⟩
  | @publish served event deeds live first between second live' hwalk hdispatch hdeeds
      ihdispatch ihdeeds =>
    rintro rfl hidle
    obtain ⟨hfirst, hwalk', hqueue⟩ := ihdispatch hwalk
    obtain ⟨hsecond, hidle'⟩ := ihdeeds rfl ⟨hwalk', hqueue hidle.queue⟩
    rw [hidle.queue, hqueue hidle.queue] at hfirst
    exact ⟨(Bus.Turn.hostEvent event live.bus).cons (hfirst.append hsecond), hidle'⟩
  | @unheard event live hlist =>
    intro hwalk
    have hnone : Removable ([] : List (Subscription ι)).length [] := trivial
    have hfinished := Bus.Turn.finished hnone event live.bus.queue live.bus
    exact ⟨(Bus.Turn.taken event live.bus.queue live.bus).cons hfinished, hwalk, id⟩
  | @dispatch event live first between second live' hlist hwalk hdrain ihwalk ihdrain =>
    intro _
    obtain ⟨hfirst, hwalk'⟩ := ihwalk rfl trivial (Nat.zero_le _)
    obtain ⟨hsecond, hidle⟩ := ihdrain hwalk'
    have htaken := Bus.Turn.taken event live.bus.queue live.bus
    exact ⟨htaken.cons ((hfirst event ⟨rfl, rfl⟩).append hsecond), hidle.walk, fun _ => hidle.queue⟩
  | dry hqueue => exact fun hwalk => ⟨.nil _ _, hwalk, hqueue⟩
  | drain hqueue hdispatch hdrain ihdispatch ihdrain =>
    intro hwalk
    obtain ⟨hfirst, hwalk', -⟩ := ihdispatch hwalk
    obtain ⟨hsecond, hidle⟩ := ihdrain hwalk'
    rw [hqueue]
    exact ⟨hfirst.append hsecond, hidle⟩
  | finished hend =>
    intro _ hremovable hplace
    rw [queue_endWalk]
    exact ⟨fun first hfirst => .finished (hremovable.mono hplace) first _ _, walk_endWalk _ _⟩
  | skip hat hlost hwalk ih =>
    intro hwalking hremovable _
    have hplace := (List.getElem?_eq_some_iff.1 hat).1
    obtain ⟨hturn, hnone⟩ := ih (isSome_walk_take hwalking none) hremovable.cons
      (by rw [walked_take]; exact hplace)
    exact ⟨fun first hfirst => (Bus.Turn.skipped first _ _ _).cons (hturn first hfirst), hnone⟩
  | @serve place places event live subscription conduct first after second live' hat hlost
      hconduct hcall
      hwalk _ ihwalk =>
    intro hwalking hremovable _
    have hplace := (List.getElem?_eq_some_iff.1 hat).1
    obtain ⟨rfl, hafter, hwalking'⟩ := hcall.called hwalking event
    have hlength := length_walked_foldl (live.take subscription.listener).bus conduct.deeds
    rw [walked_take] at hlength
    obtain ⟨hturn, hnone⟩ := ihwalk hwalking' (hremovable.note _)
      (by rw [hafter]; exact Nat.le_trans hplace hlength)
    refine ⟨fun told htold => ?_, hnone⟩
    have hbegun := Bus.Turn.begun htold live.bus.queue subscription live.bus
    have hdeeds :=
      turn_deedMarks told subscription conduct.deeds (live.take subscription.listener).bus
    rw [← hafter] at hdeeds
    have hleft : told.Same { event with consumed := conduct.consumed } := htold
    exact hbegun.cons (hdeeds.append ((Bus.Turn.ended hleft _ _ _).cons (hturn told htold)))

/-- A host publishes an event on an idle bus, as a bus is whenever its host acts. Listeners may do
whatever they like when they are told of an event, and publish others. If the publication returns,
then walks and calls have happened one after the other, the event has been taken up first and
then, once each and in the order of their publication, those that listeners have published, every
subscription that was to go was in its place, and the bus is idle again. -/
theorem taken_in_turn {audience : Audience κ ι α ρ} {fuel bound : Nat} {event event' : Event κ α}
    (hfollows : audience.Follows fuel manners) (hidle : live.bus.Idle)
    (hpublish : publish audience bound event live = some (event', live')) :
    ∃ marks,
      Runs manners audience.report (.perform none [.publish event]) live
        (.did none (.publish event) live.bus :: marks) live' ∧
      Bus.InTurn .idle marks ∧
      Bus.takenIn marks = event :: Bus.publishedIn marks ∧
      (∀ walked places bus, .finished walked places bus ∈ marks → Removable walked.length places) ∧
      live'.bus.Idle := by
  obtain ⟨between, marks, rfl, hbetween, hdispatch⟩ := exists_runs_publish hfollows hidle hpublish
  obtain ⟨hturn, -, -⟩ := hdispatch.inTurn hidle.walk
  have hevents := hturn.events
  rw [hidle.queue, hbetween.queue, List.append_nil] at hevents
  have hmarks := List.append_nil marks ▸ hturn.inTurn [] trivial
  have hruns : Runs manners audience.report (.perform none [.publish event]) live
      (.did none (.publish event) live.bus :: (marks ++ []))
      (between.mapBus fun bus => { bus with hands := [] }) :=
    .publish hidle.walk hdispatch .rest
  rw [List.append_nil] at hruns
  exact ⟨marks, hruns, hmarks, hevents, fun walked places bus hfinished =>
    hturn.removes _ hfinished,
    hbetween.walk, hbetween.queue⟩

/-- The first listener publishes two events and fails, and a listener that is told of the first
one of them publishes a third one. -/
theorem taken_in_turn_nested :
    let manners : Manners Bool Nat Nat (List (Nat × Nat)) := fun listener event live =>
      { deeds :=
          if listener = 0 then [.publish ⟨false, 1, false⟩, .publish ⟨false, 2, false⟩]
          else if event.data = 1 then [.publish ⟨false, 3, false⟩] else []
        rest := live.rest ++ [(listener, event.data)]
        consumed := event.consumed
        failed := listener = 0 }
    let audience := Audience.ofManners manners fun _ calls => calls
    let bus : Bus Bool Nat Nat :=
      ((({} : Bus Bool Nat Nat).subscribe true { listener := 0 }).subscribe true
        { listener := 1, oneShot := true }).subscribe false { listener := 2 }
    let event : Event Bool Nat := ⟨true, 0, false⟩
    ∃ live', publish audience 5 event ⟨bus, []⟩ = some (event, live') ∧
      live'.rest = [(0, 0), (1, 0), (2, 1), (2, 2), (2, 3)] ∧
      live'.bus.list true = [{ listener := 0 }] ∧
      ∃ marks,
        Runs manners audience.report (.perform none [.publish event]) ⟨bus, []⟩
          (.did none (.publish event) bus :: marks) live' ∧
        Bus.InTurn .idle marks ∧ Bus.takenIn marks = event :: Bus.publishedIn marks ∧
        live'.bus.Idle := by
  intro manners audience bus event
  have hidle : bus.Idle := ⟨rfl, rfl⟩
  have hpublish : publish audience 5 event ⟨bus, []⟩ = some (event, _) := rfl
  obtain ⟨marks, hruns, hturn, hevents, -, hidle'⟩ :=
    taken_in_turn (Audience.follows_ofManners manners _ 0) hidle hpublish
  exact ⟨_, hpublish, rfl, rfl, marks, hruns, hturn, hevents, hidle'⟩

end Live

end Colloquy
