import Colloquy.Proofs.Bus.Copies

/-!
# Subscribing while an event is dispatched

A listener may subscribe others while it is called. What it subscribes to the walked kind goes
into the list that is walked. If it goes behind the listener, an event reaches every subscription
at most once, and every lasting one that nobody ends is still there when the walk is over, the new
ones too (`reached_once_and_kept`). If it goes ahead of the listener, neither holds
(`spoilt_by_subscribing_ahead`): the subscription that is being served comes to stand where the
walk goes next, and the places that the walk has noted are those of others.

What is said of a dispatch is said of the marks between its beginning and its end. `EachDispatch`
says it of all dispatches in an account, read mark by mark, and `EachDispatch.split` of every
stretch between two marks.
-/

namespace Colloquy

open Bus (Deed Mark)

variable {κ ι α ρ : Type}

/-! ## Stretches of an account -/

/-- A mark begins or ends a dispatch. -/
def Bus.Mark.Bounds : Mark κ ι α → Prop
  | .taken _ _ => True
  | .finished _ _ _ => True
  | _ => False

/-- Something holds for every dispatch in some marks: for its event, the bus before it, the marks
of what happens meanwhile and the bus after it. The dispatch in the middle of which the marks
begin is given with what is known of it. -/
def EachDispatch (P : Event κ α → Bus κ ι α → List (Mark κ ι α) → Bus κ ι α → Prop) :
    Option (Event κ α × Bus κ ι α × List (Mark κ ι α)) → List (Mark κ ι α) → Prop
  | _, [] => True
  | _, .taken event bus :: marks => EachDispatch P (some (event, bus, [])) marks
  | none, _ :: marks => EachDispatch P none marks
  | some (event, bus, middle), .finished _ _ bus' :: marks =>
    P event bus middle bus' ∧ EachDispatch P none marks
  | some (event, bus, middle), mark :: marks =>
      EachDispatch P (some (event, bus, middle ++ [mark])) marks

namespace EachDispatch

variable {P : Event κ α → Bus κ ι α → List (Mark κ ι α) → Bus κ ι α → Prop}
  {current : Option (Event κ α × Bus κ ι α × List (Mark κ ι α))} {event : Event κ α}
  {bus bus' : Bus κ ι α} {mark : Mark κ ι α} {marks before middle after : List (Mark κ ι α)}
  {walked : List (Subscription ι)} {places : List Nat}

theorem tail (h : EachDispatch P current (mark :: marks)) :
    ∃ current', EachDispatch P current' marks := by
  cases current with
  | none => cases mark <;> exact ⟨_, h⟩
  | some current =>
    cases mark with
    | finished walked places bus => exact ⟨_, h.2⟩
    | _ => exact ⟨_, h⟩

/-- A mark that neither begins nor ends a dispatch is added to what has happened meanwhile. -/
theorem meanwhile_iff (hmark : ¬ mark.Bounds) :
    EachDispatch P (some (event, bus, middle)) (mark :: marks) ↔
      EachDispatch P (some (event, bus, middle ++ [mark])) marks := by
  cases mark with
  | taken event bus => exact absurd trivial hmark
  | finished walked places bus => exact absurd trivial hmark
  | _ => exact Iff.rfl

theorem dispatched {seen : List (Mark κ ι α)} (hmiddle : ∀ mark ∈ middle, ¬ mark.Bounds)
    (h : EachDispatch P (some (event, bus, seen))
      (middle ++ .finished walked places bus' :: after)) :
    P event bus (seen ++ middle) bus' := by
  induction middle generalizing seen with
  | nil =>
    rw [List.append_nil]
    exact h.1
  | cons mark middle ih =>
    obtain ⟨hmark, hmiddle⟩ := List.forall_mem_cons.1 hmiddle
    rw [List.append_cons]
    exact ih hmiddle ((meanwhile_iff hmark).1 h)

/-- What holds for every dispatch holds for every stretch of the marks that is one. -/
theorem split (h : EachDispatch P current
      (before ++ .taken event bus :: (middle ++ .finished walked places bus' :: after)))
    (hmiddle : ∀ mark ∈ middle, ¬ mark.Bounds) : P event bus middle bus' := by
  induction before generalizing current with
  | nil =>
    have hbegun :
        EachDispatch P (some (event, bus, []))
          (middle ++ .finished walked places bus' :: after) := by
      cases current <;> exact h
    exact hbegun.dispatched hmiddle
  | cons mark before ih =>
    obtain ⟨current', h'⟩ := h.tail
    exact ih h'

end EachDispatch

variable [DecidableEq κ] [DecidableEq ι]

namespace Bus

/-- An event reaches a subscription. -/
def Mark.reaches (subscription : Subscription ι) : Mark κ ι α → Bool
  | .skipped reached _ => reached = subscription
  | .begun reached _ _ => reached = subscription
  | _ => false

/-- Copies of a subscription to a kind are neither ended nor have they lost their listener. -/
def Mark.Spares (kind : κ) (subscription : Subscription ι) : Mark κ ι α → Prop
  | .did _ deed _ => deed.Spares kind subscription
  | .skipped reached bus => bus.Walks kind → reached ≠ subscription
  | _ => True

/-! ## What a dispatch keeps -/

/-- A dispatch is safe for subscriptions: if listeners stay behind themselves, the event reaches
every subscription at most once, and the lasting ones that nobody ends are kept, those included
that are made meanwhile. -/
def SafeDispatch (event : Event κ α) (bus : Bus κ ι α) (middle : List (Mark κ ι α))
    (bus' : Bus κ ι α) : Prop :=
  (∀ subscription first, first <+: middle → (∀ mark ∈ first, mark.StaysBehind event.kind) →
    first.countP (Mark.reaches subscription) ≤
      (bus.list event.kind).count subscription +
        first.countP (Mark.makes event.kind subscription)) ∧
  ((∀ mark ∈ middle, mark.StaysBehind event.kind) → ∀ kind (subscription : Subscription ι),
    subscription.oneShot = false → (∀ mark ∈ middle, mark.Spares kind subscription) →
      (bus'.list kind).count subscription =
        (bus.list kind).count subscription + middle.countP (Mark.makes kind subscription))

theorem safeDispatch_nil (event : Event κ α) (bus : Bus κ ι α) : SafeDispatch event bus [] bus := by
  refine ⟨fun subscription first hfirst _ => ?_, fun _ _ _ _ _ => rfl⟩
  rw [List.prefix_nil.1 hfirst]
  exact Nat.zero_le _

/-- What is known in the middle of the dispatch of an event of a kind that began on a bus. -/
structure Joined (kind : κ) (bus₀ : Bus κ ι α) (middle : List (Mark κ ι α)) (place : Nat)
    (places : List Nat) (bus : Bus κ ι α) : Prop where
  reached : ∀ subscription, Budget (Mark.StaysBehind kind) (Mark.reaches subscription)
    (Mark.makes kind subscription) ((bus₀.list kind).count subscription) middle
    (bus.ahead place subscription)
  kept : (∀ mark ∈ middle, mark.StaysBehind kind) → ∀ other (subscription : Subscription ι),
    subscription.oneShot = false → (∀ mark ∈ middle, mark.Spares other subscription) →
      (bus.list other).count subscription =
        (bus₀.list other).count subscription + middle.countP (Mark.makes other subscription) ∧
      (bus.Walks other →
        bus.behind place places subscription = (bus.walked.take place).count subscription)

namespace Joined

variable {live : Live κ ι α ρ} {bus bus₀ : Bus κ ι α} {kind : κ} {place : Nat} {places : List Nat}
  {middle : List (Mark κ ι α)} {served : Subscription ι} {event : Event κ α}

theorem begin (live : Live κ ι α ρ) (kind : κ) :
    Joined kind live.bus [] 0 [] (live.beginWalk kind).bus where
  reached _ := .nil (Nat.le_refl _)
  kept _ _ _ _ _ := ⟨rfl, fun _ => rfl⟩

/-- One step of a walk: the event has reached the subscription at its place. -/
theorem step (h : Joined kind bus₀ middle place places bus)
    (hreaches : bus.Reaches kind place places) (hat : bus.walked[place]? = some served)
    {mark : Mark κ ι α} {ends : Bool}
    (hmark : ∀ subscription, mark.reaches subscription = decide (served = subscription))
    (hmakes : ∀ other subscription, mark.makes other subscription = false)
    (hends : ∀ subscription : Subscription ι, subscription.oneShot = false →
      mark.Spares kind subscription → bus.Walks kind → served = subscription → ends = false) :
    Joined kind bus₀ (middle ++ [mark]) (place + 1)
      (if ends then place :: places else places) bus where
  reached subscription := by
    refine (h.reached subscription).concat fun _ _ => ?_
    rw [hmark, hmakes, ahead_of_getElem? hat, Bool.toNat_false]
    omega
  kept hstays other subscription hlasting hspares := by
    obtain ⟨hstays, -⟩ := List.forall_mem_append.1 hstays
    obtain ⟨hspares, hlast⟩ := List.forall_mem_append.1 hspares
    obtain ⟨hcount, hbehind⟩ := h.kept hstays other subscription hlasting hspares
    refine ⟨?_, fun hwalks => ?_⟩
    · rw [hcount, countP_concat, hmakes]
      rfl
    · have hother : other = kind := Option.some.inj (hwalks.walkKind?.symm.trans hreaches.kind)
      subst hother
      -- A copy of a lasting subscription is not noted, so both sides grow by it or neither does.
      have hstep := behind_step hat hreaches.removable ends subscription
      rw [hstep, hbehind hwalks, count_take_of_getElem? hat]
      congr 2
      by_cases hserved : served = subscription
      · rw [hends subscription hlasting (hlast mark List.mem_cons_self) hwalks hserved]
        rfl
      · simp [hserved]

/-- What a dispatch knows does not depend on the listener that it has in hand. -/
theorem take (h : Joined kind bus₀ middle place places live.bus) (listener? : Option ι) :
    Joined kind bus₀ middle place places (live.take listener?).bus where
  reached subscription := by
    rw [ahead, Live.walked_take]
    exact h.reached subscription
  kept hstays other subscription hlasting hspares := by
    rw [behind, Live.walked_take, Live.walks_take_iff]
    exact h.kept hstays other subscription hlasting hspares

/-- A deed of the listener that is being served. -/
theorem did (h : Joined kind bus₀ middle (place + 1) places bus)
    (hreaches : bus.Reaches kind (place + 1) places)
    (hat : (∀ mark ∈ middle, mark.StaysBehind kind) → bus.walked[place]? = some served)
    (deed : Deed κ ι α) :
    Joined kind bus₀ (middle ++ [.did (some served) deed bus]) (place + 1) places
      (bus.apply deed) where
  reached subscription := by
    refine (h.reached subscription).free rfl fun hstays hbehind => ?_
    rw [ahead_apply hreaches (hat hstays) hbehind]
    refine Nat.add_le_add_left ?_ _
    split
    · exact Nat.le_refl _
    · exact Nat.zero_le _
  kept hstays other subscription hlasting hspares := by
    obtain ⟨hstays, hbehind⟩ := List.forall_mem_append.1 hstays
    obtain ⟨hspares, hlast⟩ := List.forall_mem_append.1 hspares
    obtain ⟨hcount, hpassed⟩ := h.kept hstays other subscription hlasting hspares
    have hspared : deed.Spares other subscription := hlast _ List.mem_cons_self
    refine ⟨?_, fun hwalks => ?_⟩
    · rw [list_apply, hspared.count_edit, hcount, countP_concat, Nat.add_assoc]
      rfl
    · have htake := take_walked_apply hreaches (hat hstays) (hbehind _ List.mem_cons_self)
      rw [behind, htake]
      exact hpassed hwalks.of_apply

/-- A mark that says nothing of subscriptions. -/
theorem note (h : Joined kind bus₀ middle place places bus) {mark : Mark κ ι α}
    (hmark : ∀ subscription, mark.reaches subscription = false)
    (hmakes : ∀ other subscription, mark.makes other subscription = false) :
    Joined kind bus₀ (middle ++ [mark]) place places bus where
  reached subscription :=
    (h.reached subscription).free (hmark subscription) fun _ _ => Nat.le_add_right _ _
  kept hstays other subscription hlasting hspares := by
    have hkept := h.kept (List.forall_mem_append.1 hstays).1 other subscription hlasting
      (List.forall_mem_append.1 hspares).1
    rw [countP_concat, hmakes]
    exact hkept

theorem safe (h : Joined event.kind bus₀ middle place places live.bus)
    (hreaches : live.bus.Reaches event.kind place places) :
    SafeDispatch event bus₀ middle (live.endWalk places).bus := by
  refine ⟨fun subscription => (h.reached subscription).always, ?_⟩
  intro hstays kind subscription hlasting hspares
  obtain ⟨hcount, hbehind⟩ := h.kept hstays kind subscription hlasting hspares
  by_cases hwalks : live.bus.Walks kind
  · have hkind : event.kind = kind := Option.some.inj (hreaches.kind.symm.trans hwalks.walkKind?)
    subst hkind
    calc ((live.endWalk places).bus.list event.kind).count subscription
        = (live.bus.walked.take place).count subscription +
            (live.bus.walked.drop place).count subscription := by
          rw [count_endWalk hreaches hwalks, hbehind hwalks, ahead]
      _ = live.bus.walked.count subscription := by rw [← List.count_append, List.take_append_drop]
      _ = _ := by rw [hwalks.walked, hcount]
  · rw [Live.list_endWalk_of_not_walks hwalks, hcount]

end Joined

end Bus

/-- The dispatches so far were safe, and the one that is under way is so far: whatever follows, it
is enough to go on from what is known of that one. -/
def Watch.joining : Watch κ ι α :=
  let Under (marks : List (Mark κ ι α)) (kind : κ)
      (Known : Bus κ ι α → List (Mark κ ι α) → Prop) : Prop :=
    ∃ (first : Event κ α) (bus₀ : Bus κ ι α) (middle : List (Mark κ ι α)), first.kind = kind ∧
      (∀ rest, EachDispatch Bus.SafeDispatch (some (first, bus₀, middle)) rest →
        EachDispatch Bus.SafeDispatch none (marks ++ rest)) ∧
      Known bus₀ middle
  { idle := fun marks _ => ∀ rest, EachDispatch Bus.SafeDispatch none rest →
      EachDispatch Bus.SafeDispatch none (marks ++ rest)
    walking := fun marks event place places bus =>
      Under marks event.kind fun bus₀ middle => bus₀.Joined event.kind middle place places bus
    serving := fun marks event served place places bus =>
      Under marks event.kind fun bus₀ middle =>
        Bus.Joined event.kind bus₀ middle (place + 1) (served.noted place places) bus ∧
          ((∀ mark ∈ middle, mark.StaysBehind event.kind) → bus.walked[place]? = some served) }

theorem Watch.kept_joining : (Watch.joining : Watch κ ι α).Kept ρ where
  congr h _ := h
  host deed h rest hrest := by
    rw [List.append_assoc]
    exact h _ hrest
  unheard {marks bus event} _ h rest hrest := by
    rw [List.append_assoc]
    exact h _ ⟨Bus.safeDispatch_nil event bus, hrest⟩
  taken {marks event live} h := by
    refine ⟨event, live.bus, [], rfl, fun rest hrest => ?_, .begin live event.kind⟩
    rw [List.append_assoc]
    exact h _ hrest
  skipped {marks event place places served live} hreaches hat h := by
    obtain ⟨first, bus₀, middle, hfirst, hunder, hjoined⟩ := h
    have hstep : bus₀.Joined event.kind (middle ++ [.skipped served live.bus]) (place + 1)
        (if true then place :: places else places) live.bus :=
      hjoined.step hreaches hat (fun _ => rfl) (fun _ _ => rfl)
        fun subscription _ hspares hwalks hserved => absurd hserved (hspares hwalks)
    refine ⟨first, bus₀, _, hfirst, fun rest hrest => ?_, hstep.take none⟩
    rw [List.append_assoc]
    exact hunder _ ((EachDispatch.meanwhile_iff id).2 hrest)
  begun {marks event place places served live} hreaches hat h := by
    obtain ⟨first, bus₀, middle, hfirst, hunder, hjoined⟩ := h
    have hstep : bus₀.Joined event.kind (middle ++ [.begun served event live.bus]) (place + 1)
        (served.noted place places) live.bus :=
      hjoined.step hreaches hat (fun _ => rfl) (fun _ _ => rfl)
        fun subscription hlasting _ _ hserved => hserved ▸ hlasting
    refine ⟨first, bus₀, _, hfirst, fun rest hrest => ?_, hstep.take served.listener, fun _ => ?_⟩
    · rw [List.append_assoc]
      exact hunder _ ((EachDispatch.meanwhile_iff id).2 hrest)
    · rw [Live.walked_take]
      exact hat
  did {marks event place places served bus} deed hreaches h := by
    obtain ⟨first, bus₀, middle, hfirst, hunder, hjoined, hat⟩ := h
    refine ⟨first, bus₀, _, hfirst, fun rest hrest => ?_, hjoined.did hreaches hat deed,
      fun hstays => ?_⟩
    · rw [List.append_assoc]
      exact hunder _ ((EachDispatch.meanwhile_iff id).2 hrest)
    · obtain ⟨hstays, hbehind⟩ := List.forall_mem_append.1 hstays
      exact Bus.getElem?_walked_apply hreaches (hat hstays) (hbehind _ List.mem_cons_self)
  ended {marks event place places served bus} consumed failed h := by
    obtain ⟨first, bus₀, middle, hfirst, hunder, hjoined, -⟩ := h
    have hnote : bus₀.Joined event.kind
        (middle ++ [.ended served { event with consumed } failed]) (place + 1)
        (served.noted place places) bus :=
      hjoined.note (fun _ => rfl) fun _ _ => rfl
    refine ⟨first, bus₀, _, hfirst, fun rest hrest => ?_, hnote⟩
    rw [List.append_assoc]
    exact hunder _ ((EachDispatch.meanwhile_iff id).2 hrest)
  finished {marks event place places live} hreaches h := by
    obtain ⟨first, bus₀, middle, hfirst, hunder, hjoined⟩ := h
    intro rest hrest
    rw [List.append_assoc]
    rw [← hfirst] at hjoined hreaches
    exact hunder _ ⟨hjoined.safe hreaches, hrest⟩

namespace Live

variable {audience : Audience κ ι α ρ} {manners : Manners κ ι α ρ} {live' : Live κ ι α ρ}

/-- A host does what it likes from a new bus on, and so do listeners. There is an account of that,
and in every account every dispatch is safe for subscriptions: unless a listener subscribes to the
kind of the event ahead of itself, the event reaches every subscription at most once, and the
lasting ones that nobody ends and whose listeners are alive are still there when the dispatch
ends, those included that have been made meanwhile. -/
theorem reached_once_and_kept {fuel bound : Nat} {deeds : List (Deed κ ι α)} {rest : ρ}
    (hfollows : audience.Follows fuel manners)
    (hdeeds : performAll audience bound deeds ⟨{}, rest⟩ = some live') :
    (∃ marks, Runs manners audience.report (.perform none deeds) ⟨{}, rest⟩ marks live') ∧
      ∀ marks live'', Runs manners audience.report (.perform none deeds) ⟨{}, rest⟩ marks live'' →
        ∀ before event bus middle walked places bus' after,
          marks = before ++ .taken event bus :: (middle ++ .finished walked places bus' :: after) →
          (∀ mark ∈ middle, ¬ mark.Bounds) → Bus.SafeDispatch event bus middle bus' := by
  have hnew : (⟨{}, rest⟩ : Live κ ι α ρ).bus.Idle := ⟨rfl, rfl⟩
  refine ⟨(exists_account hfollows hnew hdeeds).2, ?_⟩
  intro marks live'' hruns before event bus middle walked places bus' after hmarks hmiddle
  have heach := Watch.kept_joining.holds (fun _ hrest => hrest) hruns [] trivial
  rw [List.append_nil, hmarks] at heach
  exact heach.split hmiddle

/-- The first listener is subscribed for one event and subscribes another one behind itself, to
which the event comes before it comes to the third one. -/
theorem reached_once_and_kept_behind :
    let manners : Manners Unit Nat Unit (List Nat) := fun listener event live =>
      { deeds := if listener = 0 then [.subscribe () { listener := 1 }] else []
        rest := live.rest ++ [listener]
        consumed := event.consumed }
    let audience := Audience.ofManners manners fun _ calls => calls
    let event : Event Unit Unit := ⟨(), (), false⟩
    let deeds : List (Deed Unit Nat Unit) :=
      [.subscribe () { listener := 0, oneShot := true },
        .subscribe () { listener := 2, priority := -1 }, .publish event]
    ∃ live' before bus middle walked places bus',
      performAll audience 5 deeds ⟨{}, []⟩ = some live' ∧
      live'.rest = [0, 1, 2] ∧
      live'.bus.list () = [{ listener := 1 }, { listener := 2, priority := -1 }] ∧
      Runs manners audience.report (.perform none deeds) ⟨{}, []⟩
        (before ++ .taken event bus :: (middle ++ [.finished walked places bus'])) live' ∧
      (∀ mark ∈ middle, ¬ mark.Bounds ∧ mark.StaysBehind ()) ∧
        Bus.SafeDispatch event bus middle bus' := by
  intro manners audience event deeds
  obtain ⟨live', before, bus, middle, walked, places, bus', hdeeds, hrest, hlist, hruns, hmiddle⟩ :
      ∃ live' before bus middle walked places bus',
        performAll audience 5 deeds ⟨{}, []⟩ = some live' ∧
        live'.rest = [0, 1, 2] ∧
        live'.bus.list () = [{ listener := 1 }, { listener := 2, priority := -1 }] ∧
        Runs manners audience.report (.perform none deeds) ⟨{}, []⟩
          (before ++ .taken event bus :: (middle ++ [.finished walked places bus'])) live' ∧
        ∀ mark ∈ middle, ¬ mark.Bounds ∧ mark.StaysBehind () := by
    have hruns : Runs manners audience.report (.perform none deeds) ⟨{}, []⟩ _ _ :=
      .apply (.inl rfl) (.apply (.inl rfl) (.publish rfl
        (.dispatch rfl
          (.serve rfl rfl rfl (.apply (.inr rfl) .rest)
            (.serve rfl rfl rfl .rest (.serve rfl rfl rfl .rest (.finished (.inr rfl)))))
          (.dry rfl))
        .rest))
    refine ⟨_, [_, _, _], _, [_, _, _, _, _, _, _], _, _, _, rfl, rfl, rfl, hruns, ?_⟩
    simp [Mark.Bounds, Mark.StaysBehind]
  have hsafe :=
    (reached_once_and_kept (Audience.follows_ofManners manners _ 0) hdeeds).2 _ live' hruns
  exact ⟨live', before, bus, middle, walked, places, bus', hdeeds, hrest, hlist, hruns, hmiddle,
    hsafe before event bus middle walked places bus' [] rfl fun mark hmark =>
      (hmiddle mark hmark).1⟩

/-- A listener that is subscribed for one event subscribes another one ahead of itself. If it
consumes the event, the new subscription is gone when the dispatch ends, in place of the old one.
If it does not, the event also reaches the old one a second time, and both are gone. -/
theorem spoilt_by_subscribing_ahead :
    let manners (consumed : Bool) : Manners Unit Nat Unit (List Nat) := fun listener _ live =>
      { deeds := if live.rest = [] then [.subscribe () { listener := 1, priority := 1 }] else []
        rest := live.rest ++ [listener]
        consumed }
    let deeds : List (Deed Unit Nat Unit) :=
      [.subscribe () { listener := 0, oneShot := true }, .publish ⟨(), (), false⟩]
    let performed (consumed : Bool) :=
      performAll (Audience.ofManners (manners consumed) fun _ calls => calls) 4 deeds ⟨{}, []⟩
    (∃ live', performed true = some live' ∧ live'.rest = [0] ∧
      live'.bus.list () = [{ listener := 0, oneShot := true }]) ∧
      ∃ live', performed false = some live' ∧ live'.rest = [0, 0] ∧ live'.bus.list () = [] :=
  ⟨⟨_, rfl, rfl, rfl⟩, _, rfl, rfl, rfl⟩

end Live

end Colloquy
