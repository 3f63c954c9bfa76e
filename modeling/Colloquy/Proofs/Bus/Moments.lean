import Colloquy.Proofs.Bus.Watches

/-!
# One moment after another

An account exists only of what comes to an end. Listeners may publish without end, and then there
is none. This file follows a bus from moment to moment instead. A moment is the state together
with the stage that the dispatcher is at and with what the host is still to do; `Step` leads from
one moment to the next one, in one way at most (`Step.unique`), and leaves the marks that an
account has for it. A `Course` is some steps one after the other, and courses from the same moment
go the same way (`Course.comparable`).

What a host does in order comes of a course if it comes to an end, and there are courses of any
length if no bound is enough (`attempt_performAll`). A watch that every step keeps holds at every
moment of a course (`Watch.Kept.course`).
-/

namespace Colloquy

open Bus (Deed Mark)

namespace Live

/-- What the dispatcher is at. -/
inductive Stage (κ ι α : Type) where
  /-- It is the host's turn. -/
  | host
  /-- An event is to be dispatched. -/
  | taking (event : Event κ α)
  /-- The walk for an event is to go on at a place, unless it is stopped, and has noted some
  places. -/
  | walking (place : Nat) (places : List Nat) (event : Event κ α) (stopped : Bool)
  /-- The listener of the subscription at a place is being called. It has still some deeds to do,
  and how it is to return is known. -/
  | serving (subscription : Subscription ι) (place : Nat) (places : List Nat) (event : Event κ α)
    (deeds : List (Deed κ ι α)) (consumed failed : Bool)
  /-- A dispatch is over, and the events that wait are to be taken up. -/
  | draining

/-- The state at some time, and what is to come. -/
structure Moment (κ ι α ρ : Type) where
  live : Live κ ι α ρ
  stage : Stage κ ι α
  /-- What the host is still to do. -/
  left : List (Deed κ ι α)

variable {κ ι α ρ : Type} [DecidableEq κ] [DecidableEq ι]

/-- What leads from a moment to the next one, and the marks that it leaves. -/
inductive Step (manners : Manners κ ι α ρ) (report : κ → ρ → ρ) :
    Moment κ ι α ρ → List (Mark κ ι α) → Moment κ ι α ρ → Prop
  | did {live : Live κ ι α ρ} {deed left} (hdeed : deed.event? = none) :
      Step manners report ⟨live, .host, deed :: left⟩ [.did none deed live.bus]
        ⟨live.mapBus (·.apply deed), .host, left⟩
  | published {live : Live κ ι α ρ} {event left} :
      Step manners report ⟨live, .host, .publish event :: left⟩
        [.did none (.publish event) live.bus]
        ⟨live, .taking event, left⟩
  | unheard {live : Live κ ι α ρ} {event left}
      (hlist : live.bus.lists.contains event.kind = false) :
      Step manners report ⟨live, .taking event, left⟩
        [.taken event live.bus, .finished [] [] live.bus]
        ⟨live, .draining, left⟩
  | taken {live : Live κ ι α ρ} {event left} (hlist : live.bus.lists.contains event.kind = true) :
      Step manners report ⟨live, .taking event, left⟩ [.taken event live.bus]
        ⟨live.beginWalk event.kind, .walking 0 [] event false, left⟩
  | finished {live : Live κ ι α ρ} {place places event stopped left}
      (hend : stopped = true ∨ live.bus.walked[place]? = none) :
      Step manners report ⟨live, .walking place places event stopped, left⟩
        [.finished live.bus.walked places (live.endWalk places).bus]
          ⟨live.endWalk places, .draining, left⟩
  | skipped {live : Live κ ι α ρ} {place places event left subscription}
      (hat : live.bus.walked[place]? = some subscription)
      (hlost : live.bus.isLost subscription = true) :
      Step manners report ⟨live, .walking place places event false, left⟩
        [.skipped subscription live.bus]
        ⟨live.take none, .walking (place + 1) (place :: places) event false, left⟩
  | begun {live : Live κ ι α ρ} {place places event left subscription conduct}
      (hat : live.bus.walked[place]? = some subscription)
      (hlost : live.bus.isLost subscription = false)
      (hconduct : manners subscription.listener event (live.take subscription.listener) = conduct) :
      Step manners report ⟨live, .walking place places event false, left⟩
        [.begun subscription event live.bus]
        ⟨{ live.take subscription.listener with rest := conduct.rest },
          .serving subscription place places event conduct.deeds conduct.consumed conduct.failed,
          left⟩
  | acted {live : Live κ ι α ρ} {subscription place places event deed deeds consumed failed left} :
      Step manners report
        ⟨live, .serving subscription place places event (deed :: deeds) consumed failed, left⟩
        [.did (some subscription) deed live.bus]
        ⟨live.mapBus (·.apply deed),
          .serving subscription place places event deeds consumed failed, left⟩
  | ended {live : Live κ ι α ρ} {subscription place places event consumed failed left} :
      Step manners report ⟨live, .serving subscription place places event [] consumed failed, left⟩
        [.ended subscription { event with consumed } failed]
        ⟨live.settled report event failed,
          .walking (place + 1) (subscription.noted place places) { event with consumed } consumed,
          left⟩
  | next {live : Live κ ι α ρ} {event queue left} (hqueue : live.bus.queue = event :: queue) :
      Step manners report ⟨live, .draining, left⟩ []
        ⟨live.mapBus fun bus => { bus with queue }, .taking event, left⟩
  | dry {live : Live κ ι α ρ} {left} (hqueue : live.bus.queue = []) :
      Step manners report ⟨live, .draining, left⟩ []
        ⟨live.mapBus fun bus => { bus with hands := [] }, .host, left⟩

/-- Some steps one after the other, and all marks that they leave. -/
inductive Course (manners : Manners κ ι α ρ) (report : κ → ρ → ρ) :
    Moment κ ι α ρ → List (Mark κ ι α) → Moment κ ι α ρ → Prop
  | nil (moment : Moment κ ι α ρ) : Course manners report moment [] moment
  | cons {moment next last : Moment κ ι α ρ} {first second}
      (hstep : Step manners report moment first next)
      (hcourse : Course manners report next second last) :
      Course manners report moment (first ++ second) last

variable {manners : Manners κ ι α ρ} {report : κ → ρ → ρ} {moment next last : Moment κ ι α ρ}
  {first second marks : List (Mark κ ι α)}

/-- There is no other next moment. -/
theorem Step.unique {other : Moment κ ι α ρ} (h : Step manners report moment first next)
    (hother : Step manners report moment second other) : first = second ∧ next = other := by
  cases h with
  | did hdeed =>
    cases hother with
    | did => exact ⟨rfl, rfl⟩
    | published => cases hdeed
  | published =>
    cases hother with
    | did hdeed => cases hdeed
    | published => exact ⟨rfl, rfl⟩
  | unheard hlist =>
    cases hother with
    | unheard => exact ⟨rfl, rfl⟩
    | taken hlist' => cases hlist.symm.trans hlist'
  | taken hlist =>
    cases hother with
    | unheard hlist' => cases hlist.symm.trans hlist'
    | taken => exact ⟨rfl, rfl⟩
  | finished hend =>
    cases hother with
    | finished => exact ⟨rfl, rfl⟩
    | skipped hat | begun hat => simp [hat] at hend
  | skipped hat hlost =>
    cases hother with
    | finished hend => simp [hat] at hend
    | skipped hat' =>
      obtain rfl := Option.some.inj (hat.symm.trans hat')
      exact ⟨rfl, rfl⟩
    | begun hat' hlost' =>
      obtain rfl := Option.some.inj (hat.symm.trans hat')
      cases hlost.symm.trans hlost'
  | begun hat hlost hconduct =>
    cases hother with
    | finished hend => simp [hat] at hend
    | skipped hat' hlost' =>
      obtain rfl := Option.some.inj (hat.symm.trans hat')
      cases hlost.symm.trans hlost'
    | begun hat' hlost' hconduct' =>
      obtain rfl := Option.some.inj (hat.symm.trans hat')
      obtain rfl := hconduct.symm.trans hconduct'
      exact ⟨rfl, rfl⟩
  | acted =>
    cases hother
    exact ⟨rfl, rfl⟩
  | ended =>
    cases hother
    exact ⟨rfl, rfl⟩
  | next hqueue =>
    cases hother with
    | next hqueue' =>
      obtain ⟨rfl, rfl⟩ := List.cons.inj (hqueue.symm.trans hqueue')
      exact ⟨rfl, rfl⟩
    | dry hqueue' => cases hqueue.symm.trans hqueue'
  | dry hqueue =>
    cases hother with
    | next hqueue' => cases hqueue.symm.trans hqueue'
    | dry => exact ⟨rfl, rfl⟩

namespace Course

theorem single (h : Step manners report moment first next) :
    Course manners report moment first next :=
  List.append_nil first ▸ .cons h (.nil next)

theorem append (h : Course manners report moment first next)
    (hrest : Course manners report next second last) :
    Course manners report moment (first ++ second) last := by
  induction h with
  | nil => exact hrest
  | cons hstep _ ih =>
    rw [List.append_assoc]
    exact .cons hstep (ih hrest)

/-- Courses from the same moment go the same way, one perhaps further than the other. -/
theorem comparable {other : Moment κ ι α ρ} (h : Course manners report moment first last)
    (hother : Course manners report moment second other) :
    (∃ more, second = first ++ more ∧ Course manners report last more other) ∨
      ∃ more, first = second ++ more ∧ Course manners report other more last := by
  induction h generalizing second with
  | nil moment => exact .inl ⟨second, rfl, hother⟩
  | @cons moment next last marks rest hstep hcourse ih =>
    cases hother with
    | nil => exact .inr ⟨marks ++ rest, rfl, .cons hstep hcourse⟩
    | cons hstep' hcourse' =>
      obtain ⟨rfl, rfl⟩ := hstep.unique hstep'
      obtain ⟨more, rfl, hmore⟩ | ⟨more, rfl, hmore⟩ := ih hcourse'
      · exact .inl ⟨more, (List.append_assoc ..).symm, hmore⟩
      · exact .inr ⟨more, (List.append_assoc ..).symm, hmore⟩

end Course

/-! ## Courses of what the code does -/

/-- An attempt has a result, or goes on for too long: a course leads to the result, or else there
is one that leaves as many marks as a bound asks for. -/
def Attempt (manners : Manners κ ι α ρ) (report : κ → ρ → ρ) (bound : Nat)
    (start : Moment κ ι α ρ) :
    Option (Moment κ ι α ρ) → Prop
  | some last => ∃ marks, Course manners report start marks last
  | none => ∃ marks last, Course manners report start marks last ∧ bound ≤ marks.length

namespace Attempt

variable {bound bound' : Nat} {start : Moment κ ι α ρ} {result? : Option (Moment κ ι α ρ)}

theorem zero (start : Moment κ ι α ρ) : Attempt manners report 0 start none :=
  ⟨[], start, .nil start, Nat.zero_le _⟩

theorem mono (h : Attempt manners report bound' start result?) (hle : bound ≤ bound') :
    Attempt manners report bound start result? := by
  cases result? with
  | some last => exact h
  | none =>
    obtain ⟨marks, last, hcourse, hbound⟩ := h
    exact ⟨marks, last, hcourse, Nat.le_trans hle hbound⟩

/-- Every mark that comes before an attempt counts. -/
theorem after (hcourse : Course manners report start marks moment)
    (h : Attempt manners report bound moment result?) :
    Attempt manners report (bound + marks.length) start result? := by
  cases result? with
  | some last =>
    obtain ⟨more, hmore⟩ := h
    exact ⟨_, hcourse.append hmore⟩
  | none =>
    obtain ⟨more, last, hmore, hbound⟩ := h
    exact ⟨_, last, hcourse.append hmore, by rw [List.length_append]; omega⟩

/-- An attempt that goes on from the result of another one. -/
theorem bind {β : Type} {between? : Option β} {stop : β → Moment κ ι α ρ}
    {go : β → Option (Moment κ ι α ρ)}
    (h : Attempt manners report bound start (between?.map stop))
    (hgo : ∀ between, between? = some between →
      Attempt manners report bound (stop between) (go between)) :
    Attempt manners report bound start (between?.bind go) := by
  cases between? with
  | none => exact h
  | some between =>
    obtain ⟨marks, hcourse⟩ := h
    exact ((hgo between rfl).after hcourse).mono (Nat.le_add_right ..)

end Attempt

section Attempts

variable {audience : Audience κ ι α ρ} {fuel bound count : Nat} {live : Live κ ι α ρ}
    {left : List (Deed κ ι α)}

theorem course_deeds (live : Live κ ι α ρ) (subscription : Subscription ι) (place : Nat)
    (places : List Nat) (event : Event κ α) (deeds : List (Deed κ ι α)) (consumed failed : Bool) :
    Course manners report
      ⟨live, .serving subscription place places event deeds consumed failed, left⟩
      (deedMarks (some subscription) live.bus deeds)
      ⟨live.mapBus fun bus => deeds.foldl Bus.apply bus,
        .serving subscription place places event [] consumed failed, left⟩ := by
  induction deeds generalizing live with
  | nil => exact .nil _
  | cons deed deeds ih => exact .cons .acted (ih (live.mapBus (·.apply deed)))

/-- Every subscription that a walk comes to leaves a mark. -/
theorem attempt_walk (hfollows : audience.Follows fuel manners) {place : Nat} {places : List Nat}
    {event : Event κ α} (hwalking : live.bus.walk.isSome) :
    Attempt manners audience.report count ⟨live, .walking place places event false, left⟩
      ((walkFrom audience count place places event live).map fun walked =>
        ⟨walked.2, .draining, left⟩) := by
  induction count generalizing place places event live with
  | zero => exact .zero _
  | succ count ih =>
    rw [walkFrom]
    split
    · next hat => exact ⟨_, .single (.finished (.inr hat))⟩
    · next subscription hat =>
      split
      · next hlost =>
          exact (ih (isSome_walk_take hwalking none)).after (.single (.skipped hat hlost))
      · next hlost =>
        have htaken := isSome_walk_take hwalking (some subscription.listener)
        rw [call_of_follows hfollows htaken]
        generalize hconduct :
            manners subscription.listener event (live.take subscription.listener) = conduct
        let after : Live κ ι α ρ :=
          ⟨conduct.deeds.foldl Bus.apply (live.take subscription.listener).bus, conduct.rest⟩
        let settled : Live κ ι α ρ := after.settled audience.report event conduct.failed
        let event' : Event κ α := { event with consumed := conduct.consumed }
        have hcalled :
            Course manners audience.report ⟨live, .walking place places event false, left⟩ _
            ⟨settled, .walking (place + 1) (subscription.noted place places) event'
              conduct.consumed, left⟩ :=
          .cons (.begun hat (Bool.eq_false_iff.2 hlost) hconduct)
            ((course_deeds _ subscription place places event conduct.deeds conduct.consumed
              conduct.failed).append
              (.single .ended))
        change Attempt manners audience.report (count + 1) _ (Option.map _
          (if conduct.consumed then some (event', settled.endWalk (subscription.noted place places))
            else walkFrom audience count (place + 1) (subscription.noted place places)
              event' settled))
        split
        · next hconsumed => exact ⟨_, hcalled.append (.single (.finished (.inl hconsumed)))⟩
        · next hconsumed =>
          rw [Bool.eq_false_iff.2 hconsumed] at hcalled
          have hsettled : settled.bus.walk.isSome := by
            rw [settled_bus]
            exact isSome_walk_foldl htaken _
          refine ((ih hsettled).after hcalled).mono ?_
          rw [List.length_append, List.length_singleton]
          omega

/-- An event that is dispatched leaves a mark before the attempt goes on. -/
theorem attempt_dispatch (hfollows : audience.Follows fuel manners) (event : Event κ α)
    (left : List (Deed κ ι α)) {go : Event κ α × Live κ ι α ρ → Option (Moment κ ι α ρ)}
    (hle : count ≤ bound)
    (hgo : ∀ dispatched, dispatch audience bound event live = some dispatched →
      Attempt manners audience.report count ⟨dispatched.2, .draining, left⟩ (go dispatched)) :
    Attempt manners audience.report (count + 1) ⟨live, .taking event, left⟩
      ((dispatch audience bound event live).bind go) := by
  rw [dispatch] at hgo ⊢
  split at hgo
  · next hlist =>
    rw [if_pos hlist]
    have hbegun : (live.beginWalk event.kind).bus.walk.isSome := rfl
    exact (((attempt_walk hfollows hbegun).mono hle).bind hgo).after (.single (.taken hlist))
  · next hlist =>
    rw [if_neg hlist]
    have hlist' : live.bus.lists.contains event.kind = false := Bool.eq_false_iff.2 hlist
    exact ((hgo _ rfl).after (.single (.unheard hlist'))).mono (Nat.le_succ _)

/-- The host has its turn again. -/
def Moment.ofHost (live : Live κ ι α ρ) (left : List (Deed κ ι α)) : Moment κ ι α ρ :=
  ⟨live.mapBus fun bus => { bus with hands := [] }, .host, left⟩

theorem walk_dispatch (hfollows : audience.Follows fuel manners) (hwalk : live.bus.walk = none)
    {event : Event κ α} {dispatched : Event κ α × Live κ ι α ρ}
    (h : dispatch audience bound event live = some dispatched) : dispatched.2.bus.walk = none := by
  rw [dispatch] at h
  split at h
  · exact (exists_runs_walk hfollows (by rfl) h).1
  · cases h
    exact hwalk

theorem drain_of_queue {event : Event κ α} {queue : List (Event κ α)}
    (hqueue : live.bus.queue = event :: queue) :
    drain audience bound (count + 1) live =
      (dispatch audience bound event (live.mapBus fun bus => { bus with queue })).bind
        fun dispatched =>
        drain audience bound count dispatched.2 := by
  simp only [drain, hqueue]
  cases dispatch audience bound event (live.mapBus fun bus => { bus with queue }) <;> rfl

theorem perform_publish_of_idle (hwalk : live.bus.walk = none) (event : Event κ α) :
    perform audience bound live (.publish event) =
      (dispatch audience bound event live).bind fun dispatched =>
        (drain audience bound bound dispatched.2).map
          (·.mapBus fun bus => { bus with hands := [] }) := by
  have hidle : ¬ live.bus.walk.isSome = true := by rw [hwalk]; exact Bool.false_ne_true
  rw [perform, publish, if_neg hidle]
  cases dispatch audience bound event live with
  | none => rfl
  | some dispatched => cases hdrain : drain audience bound bound dispatched.2 <;> simp [hdrain]

theorem attempt_drain (hfollows : audience.Follows fuel manners) (hle : count ≤ bound)
    (hwalk : live.bus.walk = none) :
    Attempt manners audience.report count ⟨live, .draining, left⟩
      ((drain audience bound count live).map (Moment.ofHost · left)) := by
  induction count generalizing live with
  | zero =>
    rw [drain]
    split
    · next hqueue => exact ⟨_, .single (.dry (List.isEmpty_iff.1 hqueue))⟩
    · exact .zero _
  | succ count ih =>
    cases hqueue : live.bus.queue with
    | nil =>
      rw [drain, hqueue]
      exact ⟨_, .single (.dry hqueue)⟩
    | cons event queue =>
      have hwalk' : (live.mapBus fun bus => { bus with queue }).bus.walk = none := hwalk
      rw [drain_of_queue hqueue, Option.map_bind]
      have hdispatch := attempt_dispatch hfollows event left (Nat.le_of_succ_le hle)
        fun dispatched hdispatched =>
          ih (Nat.le_of_succ_le hle) (walk_dispatch hfollows hwalk' hdispatched)
      exact hdispatch.after (.single (.next hqueue))

/-- A host that has its turn does a deed. -/
theorem attempt_perform (hfollows : audience.Follows fuel manners) (hwalk : live.bus.walk = none)
    (deed : Deed κ ι α) :
    Attempt manners audience.report bound ⟨live, .host, deed :: left⟩
      ((perform audience bound live deed).map (⟨·, .host, left⟩)) := by
  cases deed with
  | publish event =>
    have hdispatch := attempt_dispatch hfollows event left (Nat.le_refl bound)
      fun dispatched hdispatched =>
        attempt_drain hfollows (Nat.le_refl bound) (walk_dispatch hfollows hwalk hdispatched)
    rw [perform_publish_of_idle hwalk, Option.map_bind]
    simp only [Function.comp_def, Option.map_map]
    exact (hdispatch.after (.single .published)).mono (Nat.le_add_right_of_le (Nat.le_succ bound))
  | _ => exact ⟨_, .single (.did rfl)⟩

/-- What a host does one after the other, from an idle bus on, comes of a course. -/
theorem attempt_performAll (hfollows : audience.Follows fuel manners) (bound : Nat)
    (hidle : live.bus.Idle) (deeds : List (Deed κ ι α)) :
    Attempt manners audience.report bound ⟨live, .host, deeds⟩
      ((performAll audience bound deeds live).map (⟨·, .host, []⟩)) := by
  induction deeds generalizing live with
  | nil => exact ⟨_, .nil _⟩
  | cons deed deeds ih =>
    rw [performAll, List.foldlM_cons]
    refine (Option.map_bind ..).symm ▸ (attempt_perform hfollows hidle.walk deed).bind
      fun between hbetween => ?_
    have hone : performAll audience bound [deed] live = some between := by
      rw [performAll, List.foldlM_cons, hbetween]
      rfl
    exact ih (exists_account hfollows hidle hone).1

end Attempts

end Live

/-! ## Watches at moments -/

namespace Watch

open Live

variable {κ ι α ρ : Type} [DecidableEq κ] [DecidableEq ι] {watch : Watch κ ι α}
    {manners : Manners κ ι α ρ}
  {report : κ → ρ → ρ} {moment next last : Moment κ ι α ρ} {first marks : List (Mark κ ι α)}

/-- What a watch says at a moment, with what every walk keeps on its own. -/
def At (watch : Watch κ ι α) (marks : List (Mark κ ι α)) (moment : Moment κ ι α ρ) : Prop :=
  match moment.stage with
  | .host | .taking _ | .draining => moment.live.bus.Ordered ∧ watch.idle marks moment.live.bus
  | .walking place places event _ =>
    moment.live.bus.Reaches event.kind place places ∧
    watch.walking marks event place places moment.live.bus
  | .serving subscription place places event _ _ _ =>
    moment.live.bus.Reaches event.kind (place + 1) (subscription.noted place places) ∧
      watch.serving marks event subscription place places moment.live.bus

theorem Kept.step (h : watch.Kept ρ) (hstep : Step manners report moment first next)
    (hat : watch.At marks moment) : watch.At (marks ++ first) next := by
  cases hstep with
  | did hdeed => exact ⟨hat.1.apply _, h.host _ hat.2⟩
  | published => exact ⟨hat.1, h.congr (h.host (.publish _) hat.2) fun _ => rfl⟩
  | unheard hlist => exact ⟨hat.1, h.unheard hlist hat.2⟩
  | taken hlist => exact ⟨.begin hat.1 _, h.taken hat.2⟩
  | @finished live place places event stopped left hend =>
    exact ⟨live.ordered_endWalk hat.1.ordered places, h.finished hat.1 hat.2⟩
  | skipped hplace hlost => exact ⟨(hat.1.step hplace true).take none, h.skipped hat.1 hplace hat.2⟩
  | begun hplace hlost hconduct => exact ⟨(hat.1.step hplace _).take _, h.begun hat.1 hplace hat.2⟩
  | acted => exact ⟨hat.1.apply _, h.did _ hat.1 hat.2⟩
  | @ended live subscription place places event consumed failed left =>
    rw [At]
    dsimp only
    rw [settled_bus]
    exact ⟨hat.1, h.ended consumed failed hat.2⟩
  | next hqueue =>
    rw [List.append_nil]
    exact ⟨⟨hat.1.list, hat.1.walked⟩, h.congr hat.2 fun _ => rfl⟩
  | dry hqueue =>
    rw [List.append_nil]
    exact ⟨⟨hat.1.list, hat.1.walked⟩, h.congr hat.2 fun _ => rfl⟩

/-- A watch that holds at a moment holds at every moment that comes after it. -/
theorem Kept.course (h : watch.Kept ρ) (hcourse : Course manners report moment first last)
    (hat : watch.At marks moment) : watch.At (marks ++ first) last := by
  induction hcourse generalizing marks with
  | nil => simpa using hat
  | cons hstep _ ih =>
    rw [← List.append_assoc]
    exact ih (h.step hstep hat)

end Watch

end Colloquy
