import Colloquy.Proofs.Bus.Register

/-!
# Delivery

Quiet listeners leave the subscriptions alone: they may fail, consume the event, publish other
events and let go of listeners. The register of an account then says exactly whom an event
reaches, in which order, and what is left of the subscriptions (`Live.delivered_in_order`).

The dispatcher itself knows only the walked list and the places that it has noted.
`Register.Underway` is what connects the two in the middle of a walk: the tickets of the walked
kind fall into those that the event has passed, which are what the noted places leave of the first
part of the list, and those that are left, which are the other part of the list. One step of the
walk moves one ticket, or strikes it out (`Underway.pass`).
-/

namespace Colloquy

open Bus (Deed Mark)

variable {κ ι α : Type}

/-! ## Quiet deeds -/

namespace Bus

/-- A deed leaves all subscriptions alone. -/
def Deed.Quiet : Deed κ ι α → Prop
  | .publish _ => True
  | .drop _ => True
  | _ => False

variable [DecidableEq κ] [DecidableEq ι] {deeds : List (Deed κ ι α)}

theorem list_foldl_of_quiet (h : ∀ deed ∈ deeds, deed.Quiet) (bus : Bus κ ι α) (kind : κ) :
    (deeds.foldl Bus.apply bus).list kind = bus.list kind := by
  refine List.foldlRecOn (motive := fun between => between.list kind = bus.list kind) deeds
    Bus.apply rfl
    fun between hbetween deed hdeed => ?_
  rw [list_apply, ← hbetween]
  have hquiet := h deed hdeed
  cases deed with
  | publish event => rfl
  | drop listener => rfl
  | _ => cases hquiet

theorem Walks.foldl_of_quiet (h : ∀ deed ∈ deeds, deed.Quiet) {bus : Bus κ ι α} {kind : κ}
    (hwalks : bus.Walks kind) : (deeds.foldl Bus.apply bus).Walks kind := by
  refine List.foldlRecOn (motive := fun between => between.Walks kind) deeds Bus.apply hwalks
    fun between hbetween deed hdeed => hbetween.apply fun hreplaces => ?_
  have hquiet := h deed hdeed
  cases deed with
  | publish event => exact hreplaces
  | drop listener => exact hreplaces
  | _ => exact hquiet

theorem walked_foldl_of_quiet (h : ∀ deed ∈ deeds, deed.Quiet) (bus : Bus κ ι α) :
    (deeds.foldl Bus.apply bus).walked = bus.walked := by
  refine List.foldlRecOn (motive := fun between => between.walked = bus.walked) deeds Bus.apply rfl
    fun between hbetween deed hdeed => (walked_apply ?_).trans hbetween
  rintro kind subscription rfl
  cases h _ hdeed

end Bus

/-- Listeners leave all subscriptions alone. -/
def Quiet {ρ : Type} (manners : Manners κ ι α ρ) : Prop :=
  ∀ listener event live, ∀ deed ∈ (manners listener event live).deeds, deed.Quiet

namespace Register

variable [DecidableEq κ]

/-! ## In the middle of a walk -/

/-- A walk over the list of a kind has come to a place, and the subscriptions at some places have
ended. -/
structure Underway (register : Register κ ι) (bus : Bus κ ι α) (kind : κ) (place : Nat)
    (places : List Nat) (passed left : List (Ticket κ ι)) : Prop where
  sound : register.Sound
  others : ∀ other, other ≠ kind → bus.list other = (register.ranked other).map (·.subscription)
  walks : bus.Walks kind
  ranked : register.ranked kind = passed ++ left
  passed_eq : passed.map (·.subscription) = Live.removeAt ((bus.list kind).take place) places
  left_eq : left.map (·.subscription) = (bus.list kind).drop place
  place_le : place ≤ (bus.list kind).length
  removable : Removable place places

variable {register : Register κ ι} {bus bus' : Bus κ ι α} {kind : κ} {place : Nat}
    {places : List Nat}
  {passed left : List (Ticket κ ι)} {ticket : Ticket κ ι}

theorem Agrees.underway {ρ : Type} {live : Live κ ι α ρ} (h : register.Agrees live.bus) (kind : κ)
    (ahead : List (Ticket κ ι)) :
    Underway { register with ahead } (live.beginWalk kind).bus kind 0 [] []
      (register.ranked kind) where
  sound := ⟨h.sound.ascending, h.sound.below⟩
  others other _ := h.list other
  walks := live.walks_beginWalk kind
  ranked := rfl
  passed_eq := rfl
  left_eq := (h.list kind).symm
  place_le := Nat.zero_le _
  removable := trivial

/-- Where a walk has come to does not depend on anything but the lists. -/
theorem Underway.congr (h : register.Underway bus kind place places passed left)
    (hlist : ∀ kind, bus'.list kind = bus.list kind) (hwalks : bus'.Walks kind) :
    register.Underway bus' kind place places passed left where
  sound := h.sound
  others other hother := (hlist other).trans (h.others other hother)
  walks := hwalks
  ranked := h.ranked
  passed_eq := by rw [hlist]; exact h.passed_eq
  left_eq := by rw [hlist]; exact h.left_eq
  place_le := by rw [hlist]; exact h.place_le
  removable := h.removable

/-- An event that goes no further leaves the rest of the list as it is. -/
theorem Underway.halt (h : register.Underway bus kind place places passed left) :
    Underway { register with ahead := [] } bus kind place places passed left :=
  { h with sound := ⟨h.sound.ascending, h.sound.below⟩ }

/-- The subscription at the place is that of the first ticket that is left. -/
theorem Underway.next (h : register.Underway bus kind place places passed left)
    {subscription : Subscription ι} (hat : bus.walked[place]? = some subscription) :
    ∃ ticket left', left = ticket :: left' ∧ ticket.subscription = subscription := by
  rw [h.walks.walked] at hat
  obtain ⟨hplace, hget⟩ := List.getElem?_eq_some_iff.1 hat
  have hleft := h.left_eq
  rw [List.drop_eq_getElem_cons hplace, hget] at hleft
  obtain ⟨ticket, left', hcons, hticket, -⟩ := List.map_eq_cons_iff.1 hleft
  exact ⟨ticket, left', hcons, hticket⟩

/-- The subscription of the next ticket is at the place, and those of the others are behind it. -/
theorem Underway.place_lt (h : register.Underway bus kind place places passed (ticket :: left)) :
    ∃ hplace : place < (bus.list kind).length, ticket.subscription = (bus.list kind)[place] ∧
      left.map (·.subscription) = (bus.list kind).drop (place + 1) := by
  have hdrop := h.left_eq
  have hplace : place < (bus.list kind).length := by
    have hlength := congrArg List.length hdrop
    rw [List.length_map, List.length_cons, List.length_drop] at hlength
    omega
  rw [List.drop_eq_getElem_cons hplace, List.map_cons, List.cons.injEq] at hdrop
  exact ⟨hplace, hdrop⟩

/-- When the event has passed a ticket, the ticket is struck out or stays where it is. -/
theorem Underway.pass (h : register.Underway bus kind place places passed (ticket :: left))
    (hahead : register.ahead = ticket :: left) (ends : Bool) :
    (register.pass ends).Underway bus kind (place + 1) (if ends then place :: places else places)
      (if ends then passed else passed ++ [ticket]) left ∧ (register.pass ends).ahead = left := by
  obtain ⟨hplace, hat, hleft⟩ := h.place_lt
  rw [Register.pass, hahead]
  cases ends with
  | false =>
    have hget : (bus.list kind)[place]? = some ticket.subscription := by
      rw [hat, List.getElem?_eq_getElem hplace]
    have hpassed : (passed ++ [ticket]).map (·.subscription) =
        Live.removeAt ((bus.list kind).take (place + 1)) places := by
      rw [Live.removeAt_take_succ hget h.removable, List.map_append, h.passed_eq]
      rfl
    have hranked : register.ranked kind = (passed ++ [ticket]) ++ left := by
      rw [h.ranked, List.append_assoc]
      rfl
    exact ⟨⟨⟨h.sound.ascending, h.sound.below⟩, h.others, h.walks, hranked, hpassed, hleft, hplace,
      h.removable.note false⟩, rfl⟩
  | true =>
    have hsound := h.sound.keep (·.number ≠ ticket.number)
    have hmem : ticket ∈ register.ranked kind := by simp [h.ranked]
    have hothers (other : κ) (hother : other ≠ kind) := h.sound.ranked_strike_of_ne hmem hother
    have hpassed : passed.map (·.subscription) =
        Live.removeAt ((bus.list kind).take (place + 1)) (place :: places) := by
      rw [Live.removeAt_take_cons hplace, h.passed_eq]
    exact ⟨⟨⟨hsound.ascending, hsound.below⟩,
      fun other hother => (h.others other hother).trans (congrArg _ (hothers other hother).symm),
      h.walks, h.sound.ranked_strike h.ranked, hpassed, hleft, hplace, h.removable.note true⟩, rfl⟩

/-- When the walk is over, the places that it has noted are those of the tickets that have been
struck out. -/
theorem Underway.agrees_endWalk {ρ : Type} {live : Live κ ι α ρ}
    (h : register.Underway live.bus kind place places passed left) :
    register.Agrees (live.endWalk places).bus := by
  refine ⟨h.sound, fun other => ?_⟩
  by_cases hother : other = kind
  · subst hother
    have hremovable : Removable ((live.bus.list other).take place).length places := by
      rw [List.length_take_of_le h.place_le]
      exact h.removable
    have hsplit := Live.removeAt_append hremovable ((live.bus.list other).drop place)
    rw [List.take_append_drop] at hsplit
    rw [Live.list_endWalk_of_walks h.walks, h.walks.walked, hsplit, h.ranked, List.map_append,
      h.passed_eq, h.left_eq]
  · have hnot : ¬ live.bus.Walks other := fun hwalks =>
      hother (Option.some.inj (hwalks.walkKind?.symm.trans h.walks.walkKind?))
    rw [Live.list_endWalk_of_not_walks hnot]
    exact h.others other hother

/-! ## Accounts -/

variable [DecidableEq ι]

/-- Marks are as they should be after a register, and after them the lists of a bus are those of the
register. -/
structure Accounts (register : Register κ ι) (marks : List (Mark κ ι α)) (bus : Bus κ ι α) :
    Prop where
  faithful : register.Faithful marks
  agrees : (register.noteAll marks).Agrees bus

variable {marks first second : List (Mark κ ι α)}

theorem Accounts.cons {mark : Mark κ ι α} (hmark : register.Expects mark)
    (hmarks : (register.note mark).Accounts marks bus) : register.Accounts (mark :: marks) bus :=
  ⟨⟨hmark, hmarks.faithful⟩, hmarks.agrees⟩

theorem Accounts.append (hfirst : register.Faithful first)
    (hsecond : (register.noteAll first).Accounts second bus) :
    register.Accounts (first ++ second) bus := by
  induction first generalizing register with
  | nil => exact hsecond
  | cons mark first ih => exact .cons hfirst.1 (ih hfirst.2 hsecond)

/-- Deeds of a listener that is quiet leave the register alone. -/
theorem Accounts.deeds {subscription : Subscription ι} {deeds : List (Deed κ ι α)}
    (hdeeds : ∀ deed ∈ deeds, deed.Quiet) (hsecond : register.Accounts second bus) :
    register.Accounts (Live.deedMarks (some subscription) bus' deeds ++ second) bus := by
  induction deeds generalizing bus' with
  | nil => exact hsecond
  | cons deed deeds ih =>
    obtain ⟨hdeed, hdeeds⟩ := List.forall_mem_cons.1 hdeeds
    have hrecord : register.record deed = register := by
      cases deed with
      | publish event => rfl
      | drop listener => rfl
      | _ => cases hdeed
    refine .cons trivial ?_
    rw [note, hrecord]
    exact ih hdeeds

end Register

/-! ## Tasks -/

namespace Live

open Register (Agrees Accounts Underway)

variable {ρ : Type} [DecidableEq κ] [DecidableEq ι] {audience : Audience κ ι α ρ}
  {manners : Manners κ ι α ρ} {report : κ → ρ → ρ} {task : Task κ ι α} {live live' : Live κ ι α ρ}
  {marks : List (Mark κ ι α)}

/-- What a task does by the register: its marks are as they should be, and the lists agree with
the register again after it. -/
def Task.Delivers : Task κ ι α → Live κ ι α ρ → List (Mark κ ι α) → Live κ ι α ρ → Prop
  | .walk place places event stopped, live, marks, live' => ∀ (register : Register κ ι) passed left,
    register.Underway live.bus event.kind place places passed left →
      register.ahead = (if stopped then [] else left) → register.Accounts marks live'.bus
  | _, live, marks, live' =>
    ∀ register : Register κ ι, register.Agrees live.bus → register.Accounts marks live'.bus

theorem Runs.delivers (hquiet : Quiet manners) (h : Runs manners report task live marks live') :
    task.Delivers live marks live' := by
  induction h with
  | rest => exact fun register hagrees => ⟨trivial, hagrees⟩
  | apply hdeed hdeeds ih => exact fun register hagrees => .cons trivial (ih _ (hagrees.record _))
  | publish hwalk hdispatch hdeeds ihdispatch ihdeeds =>
    intro register hagrees
    have hfirst := ihdispatch register hagrees
    exact .cons trivial
      (.append hfirst.faithful (ihdeeds _ ⟨hfirst.agrees.sound, hfirst.agrees.list⟩))
  | @unheard event live hlist =>
    intro register hagrees
    have hnone : register.ranked event.kind = [] := by
      rw [← List.map_eq_nil_iff, ← hagrees.list, Bus.list_of_not_contains hlist]
    exact ⟨⟨trivial, hnone, trivial⟩, ⟨hagrees.sound.ascending, hagrees.sound.below⟩, hagrees.list⟩
  | @dispatch event live first between second live' hlist hwalk hdrain ihwalk ihdrain =>
    intro register hagrees
    have hfirst := ihwalk _ [] _ (hagrees.underway event.kind (register.ranked event.kind)) rfl
    exact .cons trivial (.append hfirst.faithful (ihdrain _ hfirst.agrees))
  | dry hqueue => exact fun register hagrees => ⟨trivial, hagrees⟩
  | drain hqueue hdispatch hdrain ihdispatch ihdrain =>
    intro register hagrees
    have hfirst := ihdispatch register ⟨hagrees.sound, hagrees.list⟩
    exact .append hfirst.faithful (ihdrain _ hfirst.agrees)
  | @finished place places event stopped live hend =>
    intro register passed left hunderway hahead
    refine ⟨⟨?_, trivial⟩, hunderway.agrees_endWalk⟩
    rw [Register.Expects, hahead]
    rcases hend with rfl | hend
    · rfl
    · have hleft := hunderway.left_eq
      rw [hunderway.walks.walked, List.getElem?_eq_none_iff] at hend
      rw [List.drop_of_length_le hend, List.map_eq_nil_iff] at hleft
      rw [hleft, ite_self]
  | @skip place places event live subscription marks live' hat hlost hwalk ih =>
    intro register passed left hunderway hahead
    obtain ⟨ticket, left', rfl, hticket⟩ := hunderway.next hat
    obtain ⟨hpassed, hahead'⟩ := hunderway.pass hahead true
    have hwalks := (live.walks_take_iff none event.kind).2 hunderway.walks
    exact .cons ⟨⟨ticket, by rw [hahead]; rfl, hticket⟩, hlost⟩
      (ih _ passed left' (hpassed.congr (fun _ => rfl) hwalks) hahead')
  | @serve place places event live subscription conduct first after second live' hat hlost
      hconduct hcall
      hwalk _ ihwalk =>
    intro register passed left hunderway hahead
    obtain ⟨ticket, left', rfl, rfl⟩ := hunderway.next hat
    obtain ⟨hpassed, hahead'⟩ := hunderway.pass hahead ticket.subscription.oneShot
    have hdue : register.Due ticket.subscription := ⟨ticket, by rw [hahead]; rfl, rfl⟩
    -- A quiet listener leaves every list as it is, so the walk stands where it stood before the
    -- call.
    have hdeeds : ∀ deed ∈ conduct.deeds, deed.Quiet := hconduct ▸ hquiet _ _ _
    obtain ⟨walk, hwalking, -⟩ := hunderway.walks
    obtain ⟨rfl, hafter, -⟩ := hcall.called (by rw [hwalking]; rfl) event
    have hlist (kind : κ) :
        (after.settled report event conduct.failed).bus.list kind = live.bus.list kind := by
      rw [hafter, Bus.list_foldl_of_quiet hdeeds]
      rfl
    have hwalks : (after.settled report event conduct.failed).bus.Walks event.kind := by
      rw [hafter]
      exact .foldl_of_quiet hdeeds ((live.walks_take_iff _ _).2 hunderway.walks)
    have hpassed' := hpassed.congr hlist hwalks
    refine .cons ⟨hdue, hlost⟩ (.deeds hdeeds (.cons hdue ?_))
    cases hconsumed : conduct.consumed with
    | true =>
      rw [hconsumed] at ihwalk
      exact ihwalk _ _ left' hpassed'.halt rfl
    | false =>
      rw [hconsumed] at ihwalk
      exact ihwalk _ _ left' hpassed' hahead'

/-! ## Quiet listeners -/

theorem isSome_walkFrom {fuel : Nat} (hfollows : audience.Follows fuel manners)
    (hquiet : Quiet manners) {count place : Nat} {places : List Nat} {event : Event κ α}
    (hwalk : live.bus.walk.isSome) (hplace : place ≤ live.bus.walked.length)
    (hcount : live.bus.walked.length < place + count) :
    (walkFrom audience count place places event live).isSome := by
  induction count generalizing place places event live with
  | zero => omega
  | succ count ih =>
    rw [walkFrom]
    split
    · rfl
    · next subscription hat =>
      have hbehind := (List.getElem?_eq_some_iff.1 hat).1
      split
      · refine ih (isSome_walk_take hwalk none) ?_ ?_ <;> rw [walked_take] <;> omega
      · have htaken := isSome_walk_take hwalk (some subscription.listener)
        have hdeeds := hquiet subscription.listener event (live.take subscription.listener)
        rw [call_of_follows hfollows htaken]
        generalize manners subscription.listener event (live.take subscription.listener) =
          conduct at hdeeds
        let after : Live κ ι α ρ :=
          ⟨conduct.deeds.foldl Bus.apply (live.take subscription.listener).bus, conduct.rest⟩
        let left : Live κ ι α ρ := after.settled audience.report event conduct.failed
        have hwalked : left.bus.walked = live.bus.walked := by
          rw [settled_bus, Bus.walked_foldl_of_quiet hdeeds, walked_take]
        have hleft : left.bus.walk.isSome := by
          rw [settled_bus]
          exact isSome_walk_foldl htaken _
        change (if conduct.consumed then some (_, left.endWalk _)
          else walkFrom audience count (place + 1) _ _ left).isSome
        split
        · rfl
        · exact ih hleft (by rw [hwalked]; omega) (by rw [hwalked]; omega)

/-- Every dispatch to quiet listeners returns. -/
theorem isSome_dispatch {fuel bound : Nat} (hfollows : audience.Follows fuel manners)
    (hquiet : Quiet manners) (live : Live κ ι α ρ) (event : Event κ α)
    (hbound : (live.bus.list event.kind).length < bound) :
    (dispatch audience bound event live).isSome := by
  rw [dispatch]
  split
  · refine isSome_walkFrom hfollows hquiet rfl (Nat.zero_le _) ?_
    rw [walked_beginWalk, Nat.zero_add]
    exact hbound
  · rfl

/-- A host subscribes, unsubscribes, clears, lets go of listeners and publishes in any order, from
a new bus on, and listeners are quiet. By the register of what has happened, every event that is
published is taken up once and in turn, and reaches the subscriptions to its kind that are in
force at that time, in their order and once each. Those that have lost their listeners are passed
over and end, the listeners of the others are called, and those for one event end; only a listener
that leaves the event consumed keeps it from those behind it, and one that fails does not. In the
end the lists of the bus are those of the register. From there every further dispatch returns. -/
theorem delivered_in_order {fuel bound : Nat} {deeds : List (Deed κ ι α)} {rest : ρ}
    (hfollows : audience.Follows fuel manners) (hquiet : Quiet manners)
    (hdeeds : performAll audience bound deeds ⟨{}, rest⟩ = some live') :
    ∃ marks,
      Runs manners audience.report (.perform none deeds) ⟨{}, rest⟩ marks live' ∧
      Bus.InTurn .idle marks ∧ Bus.takenIn marks = Bus.publishedIn marks ∧
      Register.Faithful {} marks ∧
      (∀ kind,
        live'.bus.list kind = ((Register.noteAll {} marks).ranked kind).map (·.subscription)) ∧
      ∀ bound' event, (live'.bus.list event.kind).length < bound' →
        (dispatch audience bound' event live').isSome := by
  have hnew : (⟨{}, rest⟩ : Live κ ι α ρ).bus.Idle := ⟨rfl, rfl⟩
  obtain ⟨-, marks, hruns⟩ := exists_account hfollows hnew hdeeds
  obtain ⟨hturn, -⟩ := hruns.inTurn rfl hnew
  have hmarks := List.append_nil marks ▸ hturn.inTurn [] trivial
  have hevents := List.append_nil (Bus.takenIn marks) ▸ hturn.events
  have haccounts := hruns.delivers hquiet {} Register.agrees_new
  exact ⟨marks, hruns, hmarks, hevents, haccounts.faithful, haccounts.agrees.list,
    fun bound' event => isSome_dispatch hfollows hquiet live' event⟩

/-- The first listener fails, the second one publishes an event that nothing listens for, the
third one is let go, and the last one but one consumes the event. -/
theorem delivered_in_order_consumed :
    let manners : Manners Bool Nat Nat (List (Nat × Nat)) := fun listener event live =>
      { deeds := if listener = 1 then [.publish ⟨false, event.data, false⟩] else []
        rest := live.rest ++ [(listener, event.data)]
        consumed := listener = 3
        failed := listener = 0 }
    let audience := Audience.ofManners manners fun _ calls => calls
    let deeds : List (Deed Bool Nat Nat) :=
      [.subscribe true { listener := 3 },
        .subscribe true { listener := 0, priority := 5, oneShot := true },
        .subscribe true { listener := 1, priority := 5 },
        .subscribe true { listener := 2, priority := 1 },
        .subscribe true { listener := 4, priority := -1 }, .drop 2, .publish ⟨true, 10, false⟩,
        .publish ⟨true, 11, false⟩, .unsubscribe true 3, .publish ⟨true, 12, false⟩]
    ∃ live', performAll audience 8 deeds ⟨{}, []⟩ = some live' ∧
      live'.rest = [(0, 10), (1, 10), (3, 10), (1, 11), (3, 11), (1, 12), (4, 12)] ∧
      live'.bus.list true = [{ listener := 1, priority := 5 }, { listener := 4, priority := -1 }] ∧
      ∃ marks,
        Runs manners audience.report (.perform none deeds) ⟨{}, []⟩ marks live' ∧
        Bus.InTurn .idle marks ∧ Bus.takenIn marks = Bus.publishedIn marks ∧
        Register.Faithful {} marks ∧
        ∀ kind, live'.bus.list kind =
          ((Register.noteAll {} marks).ranked kind).map (·.subscription) := by
  intro manners audience deeds
  have hquiet : Quiet manners := by
    intro listener event live deed hdeed
    simp only [manners] at hdeed
    split at hdeed
    · rw [List.mem_singleton.1 hdeed]
      trivial
    · cases hdeed
  have hdeeds : performAll audience 8 deeds ⟨{}, []⟩ = some _ := rfl
  obtain ⟨marks, hruns, hturn, hevents, hfaithful, hlists, -⟩ :=
    delivered_in_order (Audience.follows_ofManners manners _ 0) hquiet hdeeds
  exact ⟨_, hdeeds, rfl, rfl, marks, hruns, hturn, hevents, hfaithful, hlists⟩

end Live

end Colloquy
