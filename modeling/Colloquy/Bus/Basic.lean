import Colloquy.Ledger

/-!
# Event buses

A bus keeps a list of subscriptions for every kind of event. A list is ordered by priority, the
highest first, and among equals by the time of subscription.

While an event is dispatched, its list is walked, and listeners may change the bus. A subscription
goes into the list that stands for its kind at that time, which may be the walked one.
Unsubscribing and clearing put a new list in the place of the old one; a walk over the old list
goes on with it as it was. The bus therefore remembers the walk, and keeps the walked list apart
once another one has taken its place.

A weak subscription does not keep its listener alive. A listener lives as long as its owner has not
dropped it, a subscription holds it strongly, or a dispatch has it in hand.
-/

namespace Colloquy

/-- A listener's wish to hear of events. -/
structure Subscription (ι : Type) where
  listener : ι
  priority : Int := 0
  /-- The subscription ends with the first event. -/
  oneShot : Bool := false
  /-- The subscription does not keep the listener alive. -/
  weak : Bool := true
  deriving DecidableEq, Repr

/-- Something that happened. A consumed event is not passed on to later listeners. -/
structure Event (κ α : Type) where
  kind : κ
  data : α
  consumed : Bool := false
  deriving DecidableEq, Repr

/-- The names that no entry in the data of an event can have when it is published: the bus itself
and the kind of the event go under them. -/
def Event.takenNames : List String :=
  ["self", "event_type"]

/-- The first of the names of entries that is taken. -/
def Event.takenName? (names : List String) : Option String :=
  names.find? Event.takenNames.contains

/-- Says that the name of an entry is taken. -/
def Event.takenMessage (name : String) : String :=
  s!"EventBus.publish() got multiple values for argument '{name}'"

/-- A dispatch in progress. -/
structure Walk (κ ι : Type) where
  kind : κ
  /-- The walked list, once it is no longer the list of its kind. -/
  detached : Option (List (Subscription ι)) := none
  /-- The listener that was called last. -/
  inHand : Option ι := none
  deriving DecidableEq, Repr

/-- Subscriptions and events. -/
structure Bus (κ ι α : Type) where
  lists : Ledger κ (List (Subscription ι)) := .empty
  /-- Events published while another one was dispatched. -/
  queue : List (Event κ α) := []
  walk : Option (Walk κ ι) := none
  /-- Listeners that dispatches of the same publication had in hand. -/
  hands : List ι := []
  /-- Listeners that their owners have let go. -/
  dropped : List ι := []

namespace Bus

variable {κ ι α : Type} [DecidableEq κ] [DecidableEq ι]

/-- The subscriptions to a kind of events. -/
def list (bus : Bus κ ι α) (kind : κ) : List (Subscription ι) :=
  (bus.lists.get? kind).getD []

/-- Whether anything listens for a kind of events. -/
def hasSubscribers (bus : Bus κ ι α) (kind : κ) : Bool :=
  ! (bus.list kind).isEmpty

/-- The list that is being walked. -/
def walked (bus : Bus κ ι α) : List (Subscription ι) :=
  match bus.walk with
  | none => []
  | some walk => walk.detached.getD (bus.list walk.kind)

/-- The listeners that a list holds strongly. -/
def strong (subscriptions : List (Subscription ι)) : List ι :=
  (subscriptions.filter (! ·.weak)).map (·.listener)

/-- The listeners that the bus keeps alive. -/
def kept (bus : Bus κ ι α) : List ι :=
  bus.hands ++ (bus.walk.bind (·.inHand)).toList ++ strong bus.walked ++
    bus.lists.entries.flatMap fun entry => strong entry.2

/-- Whether a listener is alive. -/
def alive (bus : Bus κ ι α) (listener : ι) : Bool :=
  ! bus.dropped.contains listener || bus.kept.contains listener

/-! ## Changing subscriptions -/

/-- Puts a subscription behind all those with its priority or a higher one. -/
def enlist (subscription : Subscription ι) : List (Subscription ι) → List (Subscription ι)
  | [] => [subscription]
  | other :: rest =>
    if other.priority < subscription.priority then subscription :: other :: rest
    else other :: enlist subscription rest

/-- Adds a subscription to a kind of events. -/
def subscribe (bus : Bus κ ι α) (kind : κ) (subscription : Subscription ι) : Bus κ ι α :=
  { bus with lists := bus.lists.insert kind (enlist subscription (bus.list kind)) }

/-- Keeps the walked list apart, if it is the list of a kind whose list is about to be replaced. -/
def detach (bus : Bus κ ι α) (kind : κ) : Bus κ ι α :=
  match bus.walk with
  | some walk =>
    if walk.kind = kind && walk.detached.isNone then
      { bus with walk := some { walk with detached := some (bus.list kind) } }
    else bus
  | none => bus

/-- Ends all subscriptions of a listener to a kind of events. -/
def unsubscribe (bus : Bus κ ι α) (kind : κ) (listener : ι) : Bus κ ι α :=
  if bus.lists.contains kind then
    { bus.detach kind with
      lists := bus.lists.insert kind ((bus.list kind).filter (·.listener ≠ listener)) }
  else bus

/-- Ends all subscriptions to a kind of events. -/
def clear (bus : Bus κ ι α) (kind : κ) : Bus κ ι α :=
  { bus.detach kind with lists := bus.lists.erase kind }

/-- Ends all subscriptions. -/
def clearAll (bus : Bus κ ι α) : Bus κ ι α :=
  { bus.lists.keys.foldl detach bus with lists := .empty }

/-- Notes that a listener's owner has let it go. -/
def drop (bus : Bus κ ι α) (listener : ι) : Bus κ ι α :=
  { bus with dropped := listener :: bus.dropped }

end Bus

end Colloquy
