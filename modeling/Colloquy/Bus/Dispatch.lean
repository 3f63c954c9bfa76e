import Colloquy.Bus.Basic

/-!
# Publishing events

Publishing an event calls its listeners one after the other and returns when all have been called.
An event that a listener publishes waits until the dispatch in progress has ended; the events that
wait are dispatched in the order of their publication. A listener that fails is reported and does
not keep the others from being called.

Listeners are functions on the whole state, of which the bus is one part, so they may change the
bus and anything else. They may also publish without end. Publishing therefore takes a bound on
the number of listeners that are visited for one event and on the number of events, and has no
result if a bound is passed.

The events that wait are taken in a loop. A program that takes each of them from within the
dispatch of the one before needs a deeper stack with every event, and may run out of it; how deep
the stack is is left out.
-/

namespace Colloquy

/-- A bus and everything else that listeners may see and change. -/
structure Live (κ ι α ρ : Type) where
  bus : Bus κ ι α
  rest : ρ

/-- What comes of calling a listener. -/
structure Reply (ω : Type) where
  state : ω
  /-- Whether the event is consumed now. -/
  consumed : Bool
  /-- Whether the listener failed. -/
  failed : Bool

/-- What listeners do, and how a failure is reported. -/
structure Audience (κ ι α ρ : Type) where
  call : ι → Event κ α → Live κ ι α ρ → Reply (Live κ ι α ρ)
  report : κ → ρ → ρ

namespace Live

variable {κ ι α ρ : Type} [DecidableEq κ] [DecidableEq ι]

/-- Changes the bus. -/
def mapBus (live : Live κ ι α ρ) (change : Bus κ ι α → Bus κ ι α) : Live κ ι α ρ :=
  { live with bus := change live.bus }

/-- Notes which listener the walk has in hand. -/
def take (live : Live κ ι α ρ) (listener? : Option ι) : Live κ ι α ρ :=
  live.mapBus fun bus =>
    { bus with walk := bus.walk.map fun walk => { walk with inHand := listener? } }

/-- Starts the walk over the list of a kind. -/
def beginWalk (live : Live κ ι α ρ) (kind : κ) : Live κ ι α ρ :=
  live.mapBus fun bus => { bus with walk := some { kind } }

/-- Removes the items at some places, of which the last comes first. -/
def removeAt {β : Type} (items : List β) (places : List Nat) : List β :=
  places.foldl List.eraseIdx items

/-- Ends the walk: the subscriptions at some places, of which the last comes first, leave the walked
list. -/
def endWalk (live : Live κ ι α ρ) (places : List Nat) : Live κ ι α ρ :=
  live.mapBus fun bus =>
    match bus.walk with
    | none => bus
    | some walk =>
      let left := removeAt bus.walked places
      let hands := bus.hands ++ walk.inHand.toList ++ Bus.strong left
      let lists :=
        if walk.detached.isNone then bus.lists.insert walk.kind left else bus.lists
      { bus with lists, hands, walk := none }

/-- Walks on from a place of the list. `places` are those of the subscriptions that have ended,
the last one first. The result is the event as the listeners left it. -/
def walkFrom (audience : Audience κ ι α ρ) :
    Nat → Nat → List Nat → Event κ α → Live κ ι α ρ → Option (Event κ α × Live κ ι α ρ)
  | 0, _, _, _, _ => none
  | fuel + 1, place, places, event, live =>
    match live.bus.walked[place]? with
    | none => some (event, live.endWalk places)
    | some subscription =>
      if subscription.weak && ! live.bus.alive subscription.listener then
        walkFrom audience fuel (place + 1) (place :: places) event (live.take none)
      else
        let reply := audience.call subscription.listener event (live.take subscription.listener)
        let live :=
          if reply.failed then
            { reply.state with rest := audience.report event.kind reply.state.rest }
          else reply.state
        let event := { event with consumed := reply.consumed }
        let places := if subscription.oneShot then place :: places else places
        if event.consumed then some (event, live.endWalk places)
        else walkFrom audience fuel (place + 1) places event live

/-- Dispatches one event. -/
def dispatch (audience : Audience κ ι α ρ) (fuel : Nat) (event : Event κ α)
    (live : Live κ ι α ρ) : Option (Event κ α × Live κ ι α ρ) :=
  if live.bus.lists.contains event.kind then
    walkFrom audience fuel 0 [] event (live.beginWalk event.kind)
  else some (event, live)

/-- Dispatches the events that wait. -/
def drain (audience : Audience κ ι α ρ) (fuel : Nat) :
    Nat → Live κ ι α ρ → Option (Live κ ι α ρ)
  | 0, live => if live.bus.queue.isEmpty then some live else none
  | count + 1, live =>
    match live.bus.queue with
    | [] => some live
    | event :: queue =>
      match dispatch audience fuel event (live.mapBus fun bus => { bus with queue }) with
      | none => none
      | some (_, live) => drain audience fuel count live

/-- Publishes an event. While another event is dispatched it only joins the queue. -/
def publish (audience : Audience κ ι α ρ) (fuel : Nat) (event : Event κ α) (live : Live κ ι α ρ) :
    Option (Event κ α × Live κ ι α ρ) :=
  if live.bus.walk.isSome then
    some (event, live.mapBus fun bus => { bus with queue := bus.queue ++ [event] })
  else do
    let (event, live) ← dispatch audience fuel event live
    let live ← drain audience fuel fuel live
    return (event, live.mapBus fun bus => { bus with hands := [] })

end Live

end Colloquy
