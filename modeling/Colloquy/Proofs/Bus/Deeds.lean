import Colloquy.Bus.Dispatch

/-!
# Deeds

A deed is one thing that is done to a bus, by a host or by a listener that is being called.
`Bus.apply` is what it does while an event is dispatched. Three views of the bus say all that
later proofs need:

* `list_apply` gives the list of every kind after a deed;
* `walked_apply_cases` gives the walked list, which only a subscription to the walked kind changes;
* `Walks` says that the walked list still is the list of its kind.

A subscription goes to one place of a list (`exists_enlist`), which in a list in order of priority
lies behind every subscription that does not come after it (`split_enlist`).
-/

namespace Colloquy

namespace Bus

variable {κ ι α : Type}

/-- One thing that is done to a bus. -/
inductive Deed (κ ι α : Type) where
  | subscribe (kind : κ) (subscription : Subscription ι)
  | unsubscribe (kind : κ) (listener : ι)
  | clear (kind : κ)
  | clearAll
  | publish (event : Event κ α)
  | drop (listener : ι)

/-! ## Subscribing in order -/

/-- The subscriptions with the highest priority come first. -/
def Descending (list : List (Subscription ι)) : Prop :=
  list.Pairwise fun first second => second.priority ≤ first.priority

/-- A subscription comes behind those with its priority or a higher one, and before the first
other. -/
theorem exists_enlist (subscription : Subscription ι) (list : List (Subscription ι)) :
    ∃ first second, list = first ++ second ∧
      enlist subscription list = first ++ subscription :: second ∧
      (∀ other ∈ first, subscription.priority ≤ other.priority) ∧
      ∀ other ∈ second.head?, other.priority < subscription.priority := by
  induction list with
  | nil => exact ⟨[], [], rfl, rfl, by simp, by simp⟩
  | cons head list ih =>
    rw [enlist]
    split
    · next hlower => exact ⟨[], head :: list, rfl, rfl, by simp, by simpa using hlower⟩
    · next hlower =>
      obtain ⟨first, second, hlist, henlist, hfirst, hsecond⟩ := ih
      refine ⟨head :: first, second, by rw [hlist]; rfl, by rw [henlist]; rfl, ?_, hsecond⟩
      intro other hother
      rcases List.mem_cons.1 hother with rfl | hother
      · exact Int.not_lt.1 hlower
      · exact hfirst other hother

/-- In a list in order of priority, all that comes behind a new subscription has a lower
priority. -/
theorem Descending.exists_enlist {list : List (Subscription ι)} (h : Descending list)
    (subscription : Subscription ι) :
    ∃ first second, list = first ++ second ∧
      enlist subscription list = first ++ subscription :: second ∧
      (∀ other ∈ first, subscription.priority ≤ other.priority) ∧
      ∀ other ∈ second, other.priority < subscription.priority := by
  obtain ⟨first, second, rfl, henlist, hfirst, hsecond⟩ := Bus.exists_enlist subscription list
  refine ⟨first, second, rfl, henlist, hfirst, fun other hother => ?_⟩
  cases second with
  | nil => cases hother
  | cons head second =>
    have hhead : head.priority < subscription.priority := hsecond head rfl
    rcases List.mem_cons.1 hother with rfl | hother
    · exact hhead
    · have hbehind := (List.pairwise_cons.1 (List.pairwise_append.1 h).2.1).1 other hother
      omega

theorem Descending.enlist {list : List (Subscription ι)} (h : Descending list)
    (subscription : Subscription ι) : Descending (enlist subscription list) := by
  obtain ⟨first, second, rfl, henlist, hfirst, hsecond⟩ := h.exists_enlist subscription
  obtain ⟨hdescFirst, hdescSecond, hacross⟩ := List.pairwise_append.1 h
  rw [henlist]
  refine List.pairwise_append.2 ⟨hdescFirst, List.pairwise_cons.2 ⟨?_, hdescSecond⟩, ?_⟩
  · exact fun other hother => Int.le_of_lt (hsecond other hother)
  · intro one hone other hother
    rcases List.mem_cons.1 hother with rfl | hother
    · exact hfirst one hone
    · exact hacross one hone other hother

theorem length_enlist (subscription : Subscription ι) (list : List (Subscription ι)) :
    (enlist subscription list).length = list.length + 1 := by
  obtain ⟨first, second, rfl, henlist, -⟩ := exists_enlist subscription list
  simp [henlist, Nat.add_assoc]

/-- What stands before the place behind a subscription stays where it is, if the new one does not
come before that subscription. What comes from that place on gains the new one. -/
theorem split_enlist {list : List (Subscription ι)} (h : Descending list)
    {subscription served : Subscription ι} {place : Nat} (hat : list[place]? = some served)
    (hbelow : subscription.priority ≤ served.priority) :
    (enlist subscription list).take (place + 1) = list.take (place + 1) ∧
      ((enlist subscription list).drop (place + 1)).Perm
        (subscription :: list.drop (place + 1)) := by
  obtain ⟨first, second, rfl, henlist, -, hsecond⟩ := h.exists_enlist subscription
  -- A place in the second part would hold a lower priority than the new subscription has.
  have hplace : place < first.length := by
    rcases Nat.lt_or_ge place first.length with hlt | hge
    · exact hlt
    · rw [List.getElem?_append_right hge] at hat
      have hlower := hsecond served (List.mem_of_getElem? hat)
      omega
  rw [henlist, List.take_append_of_le_length (by omega), List.take_append_of_le_length (by omega),
    List.drop_append_of_le_length (by omega), List.drop_append_of_le_length (by omega)]
  exact ⟨rfl, List.perm_middle⟩

/-! ## The walked list -/

/-- The walked list is the list of a kind. -/
def Walks (bus : Bus κ ι α) (kind : κ) : Prop :=
  ∃ walk, bus.walk = some walk ∧ walk.kind = kind ∧ walk.detached = none

/-- The kind of the event that is dispatched. -/
def walkKind? (bus : Bus κ ι α) : Option κ :=
  bus.walk.map (·.kind)

instance (bus : Bus κ ι α) (kind : κ) [DecidableEq κ] : Decidable (bus.Walks kind) :=
  inferInstanceAs (Decidable (∃ walk, walk ∈ bus.walk ∧ walk.kind = kind ∧ walk.detached = none))

theorem Walks.walkKind? {bus : Bus κ ι α} {kind : κ} (h : bus.Walks kind) :
    bus.walkKind? = some kind := by
  obtain ⟨walk, hwalk, rfl, -⟩ := h
  rw [Bus.walkKind?, hwalk]
  rfl

theorem isSome_walk_of_walkKind? {bus : Bus κ ι α} {kind : κ} (h : bus.walkKind? = some kind) :
    bus.walk.isSome := by
  obtain ⟨walk, hwalk, -⟩ := Option.map_eq_some_iff.1 h
  rw [hwalk]
  rfl

section Kinds

variable [DecidableEq κ] {bus : Bus κ ι α} {kind other : κ}

theorem list_insert_self (bus : Bus κ ι α) (kind : κ) (list : List (Subscription ι)) :
    ({ bus with lists := bus.lists.insert kind list } : Bus κ ι α).list kind = list := by
  rw [Bus.list, Ledger.get?_insert_self]
  rfl

theorem list_insert_of_ne (bus : Bus κ ι α) (h : other ≠ kind) (list : List (Subscription ι)) :
    ({ bus with lists := bus.lists.insert kind list } : Bus κ ι α).list other = bus.list other := by
  rw [Bus.list, Bus.list, Ledger.get?_insert_of_ne _ h]

theorem list_of_not_contains (h : bus.lists.contains kind = false) : bus.list kind = [] := by
  rw [Ledger.contains, Option.isSome_eq_false_iff, Option.isNone_iff_eq_none] at h
  rw [Bus.list, h]
  rfl

theorem Walks.walked (h : bus.Walks kind) : bus.walked = bus.list kind := by
  obtain ⟨walk, hwalk, rfl, hdetached⟩ := h
  rw [Bus.walked, hwalk]
  simp [hdetached]

/-- Two buses walk the same list if they are at the same walk and its kind has the same list. -/
theorem walked_congr {bus' : Bus κ ι α} (hwalk : bus'.walk = bus.walk)
    (hlist : ∀ kind, bus.Walks kind → bus'.list kind = bus.list kind) :
    bus'.walked = bus.walked := by
  rw [Bus.walked, Bus.walked, hwalk]
  cases hcurrent : bus.walk with
  | none => rfl
  | some walk =>
    cases hdetached : walk.detached with
    | some list => simp [hdetached]
    | none => simpa [hdetached] using hlist walk.kind ⟨walk, hcurrent, rfl, hdetached⟩

/-! ## Replacing lists -/

/-- Either nothing has to be kept apart, or the list of a kind is walked and is kept apart from
then on. -/
theorem detach_cases (bus : Bus κ ι α) (kind : κ) :
    (¬ bus.Walks kind ∧ bus.detach kind = bus) ∨
      ∃ walk, bus.walk = some walk ∧ walk.kind = kind ∧ walk.detached = none ∧
        bus.detach kind =
          { bus with walk := some { walk with detached := some (bus.list kind) } } := by
  cases hwalk : bus.walk with
  | none =>
    refine .inl ⟨fun ⟨walk, hwalk', _⟩ => ?_, by rw [detach, hwalk]⟩
    rw [hwalk] at hwalk'
    cases hwalk'
  | some walk =>
    simp only [detach, hwalk, Bool.and_eq_true, decide_eq_true_eq, Option.isNone_iff_eq_none]
    split
    · next hcond => exact .inr ⟨walk, rfl, hcond.1, hcond.2, rfl⟩
    · next hcond =>
      refine .inl ⟨fun ⟨walk', hwalk', hkind, hdetached⟩ => ?_, rfl⟩
      rw [hwalk] at hwalk'
      cases hwalk'
      exact hcond ⟨hkind, hdetached⟩

theorem lists_detach (bus : Bus κ ι α) (kind : κ) : (bus.detach kind).lists = bus.lists := by
  obtain ⟨-, hdetach⟩ | ⟨walk, -, -, -, hdetach⟩ := detach_cases bus kind <;> rw [hdetach]

theorem queue_detach (bus : Bus κ ι α) (kind : κ) : (bus.detach kind).queue = bus.queue := by
  obtain ⟨-, hdetach⟩ | ⟨walk, -, -, -, hdetach⟩ := detach_cases bus kind <;> rw [hdetach]

theorem walkKind?_detach (bus : Bus κ ι α) (kind : κ) :
    (bus.detach kind).walkKind? = bus.walkKind? := by
  obtain ⟨-, hdetach⟩ | ⟨walk, hwalk, -, -, hdetach⟩ := detach_cases bus kind
  · rw [hdetach]
  · rw [hdetach, walkKind?, walkKind?, hwalk]
    rfl

theorem walked_detach (bus : Bus κ ι α) (kind : κ) : (bus.detach kind).walked = bus.walked := by
  obtain ⟨-, hdetach⟩ | ⟨walk, hwalk, rfl, hdetached, hdetach⟩ := detach_cases bus kind
  · rw [hdetach]
  · rw [hdetach, walked, walked, hwalk]
    simp [hdetached]

/-- Only a list that is not kept apart is walked in place. -/
theorem walks_detach_iff (bus : Bus κ ι α) (kind other : κ) :
    (bus.detach kind).Walks other ↔ bus.Walks other ∧ other ≠ kind := by
  obtain ⟨hnot, hdetach⟩ | ⟨walk, hwalk, rfl, -, hdetach⟩ := detach_cases bus kind
  · rw [hdetach]
    refine ⟨fun h => ⟨h, ?_⟩, And.left⟩
    rintro rfl
    exact hnot h
  · rw [hdetach]
    constructor
    · rintro ⟨walk', hwalk', -, hdetached'⟩
      cases hwalk'
      cases hdetached'
    · rintro ⟨⟨walk', hwalk', rfl, -⟩, hne⟩
      rw [hwalk] at hwalk'
      cases hwalk'
      exact absurd rfl hne

/-- What setting one list apart leaves as it is, setting several apart leaves as it is. -/
theorem foldl_detach {β : Type} (view : Bus κ ι α → β)
    (h : ∀ bus kind, view (bus.detach kind) = view bus) (bus : Bus κ ι α) (kinds : List κ) :
    view (kinds.foldl detach bus) = view bus := by
  induction kinds generalizing bus with
  | nil => rfl
  | cons kind kinds ih => rw [List.foldl_cons, ih, h]

theorem walks_foldl_detach_iff (bus : Bus κ ι α) (kinds : List κ) (other : κ) :
    (kinds.foldl detach bus).Walks other ↔ bus.Walks other ∧ other ∉ kinds := by
  induction kinds generalizing bus with
  | nil => simp
  | cons kind kinds ih =>
    rw [List.foldl_cons, ih, walks_detach_iff, and_assoc, List.mem_cons, not_or]

theorem list_of_not_mem_keys (h : kind ∉ bus.lists.keys) : bus.list kind = [] := by
  cases hget : bus.lists.get? kind with
  | none =>
    rw [Bus.list, hget]
    rfl
  | some list => exact absurd (Entries.mem_keys_of_find? hget) h

end Kinds

/-! ## Deeds -/

section Deeds

variable [DecidableEq κ] [DecidableEq ι] {bus : Bus κ ι α} {deed : Deed κ ι α} {kind : κ}

/-- The bus after a deed that is done while an event is dispatched. An event that is published
joins those that wait. -/
def apply (bus : Bus κ ι α) : Deed κ ι α → Bus κ ι α
  | .subscribe kind subscription => bus.subscribe kind subscription
  | .unsubscribe kind listener => bus.unsubscribe kind listener
  | .clear kind => bus.clear kind
  | .clearAll => bus.clearAll
  | .publish event => { bus with queue := bus.queue ++ [event] }
  | .drop listener => bus.drop listener

/-- What a deed makes of the list of a kind. -/
def Deed.edit (kind : κ) (list : List (Subscription ι)) : Deed κ ι α → List (Subscription ι)
  | .subscribe other subscription => if other = kind then enlist subscription list else list
  | .unsubscribe other listener =>
    if other = kind then list.filter (·.listener ≠ listener) else list
  | .clear other => if other = kind then [] else list
  | .clearAll => []
  | .publish _ => list
  | .drop _ => list

/-- A deed puts another list in the place of that of a kind. -/
def Deed.Replaces (kind : κ) : Deed κ ι α → Prop
  | .unsubscribe other _ => other = kind
  | .clear other => other = kind
  | .clearAll => True
  | _ => False

/-- The event that a deed publishes. -/
def Deed.event? : Deed κ ι α → Option (Event κ α)
  | .publish event => some event
  | _ => none

theorem list_apply (bus : Bus κ ι α) (deed : Deed κ ι α) (kind : κ) :
    (bus.apply deed).list kind = deed.edit kind (bus.list kind) := by
  cases deed with
  | subscribe other subscription =>
    simp only [apply, subscribe, Deed.edit]
    split
    · next h => rw [← h, list_insert_self]
    · next h => exact list_insert_of_ne bus (Ne.symm h) _
  | unsubscribe other listener =>
    simp only [apply, unsubscribe, Deed.edit]
    by_cases hcontains : bus.lists.contains other = true
    · rw [if_pos hcontains]
      split
      · next h => rw [← h, Bus.list, Ledger.get?_insert_self]; rfl
      · next h => rw [Bus.list, Ledger.get?_insert_of_ne _ (Ne.symm h), Bus.list]
    · rw [if_neg hcontains]
      split
      · next h => rw [← h, list_of_not_contains (Bool.eq_false_iff.2 hcontains)]; rfl
      · rfl
  | clear other =>
    simp only [apply, clear, Deed.edit]
    split
    · next h => rw [← h, Bus.list, Ledger.get?_erase_self]; rfl
    · next h => rw [Bus.list, Ledger.get?_erase_of_ne _ (Ne.symm h), Bus.list]
  | clearAll => rfl
  | publish event => rfl
  | drop listener => rfl

theorem walkKind?_apply (bus : Bus κ ι α) (deed : Deed κ ι α) :
    (bus.apply deed).walkKind? = bus.walkKind? := by
  cases deed with
  | unsubscribe other listener =>
    simp only [apply, unsubscribe]
    split
    · exact walkKind?_detach bus other
    · rfl
  | clear other => exact walkKind?_detach bus other
  | clearAll => exact foldl_detach walkKind? walkKind?_detach bus _
  | _ => rfl

theorem queue_apply (bus : Bus κ ι α) (deed : Deed κ ι α) :
    (bus.apply deed).queue = bus.queue ++ deed.event?.toList := by
  cases deed with
  | unsubscribe other listener =>
    simp only [apply, unsubscribe, Deed.event?, Option.toList_none, List.append_nil]
    split
    · exact queue_detach bus other
    · rfl
  | clear other => exact (queue_detach bus other).trans (List.append_nil _).symm
  | clearAll => exact (foldl_detach Bus.queue queue_detach bus _).trans (List.append_nil _).symm
  | publish event => rfl
  | _ => exact (List.append_nil _).symm

/-- A subscription to the walked kind joins the walked list. -/
theorem walked_subscribe (h : bus.Walks kind) (subscription : Subscription ι) :
    (bus.apply (.subscribe kind subscription)).walked = enlist subscription bus.walked := by
  have h' : (bus.subscribe kind subscription).Walks kind := h
  rw [apply, h'.walked, h.walked, subscribe, list_insert_self]

/-- No other deed changes the walked list. -/
theorem walked_apply
    (h : ∀ kind subscription, deed = .subscribe kind subscription → ¬ bus.Walks kind) :
    (bus.apply deed).walked = bus.walked := by
  cases deed with
  | subscribe other subscription =>
    have hother := h other subscription rfl
    refine walked_congr rfl fun kind hwalks => list_insert_of_ne bus ?_ _
    rintro rfl
    exact hother hwalks
  | unsubscribe other listener =>
    simp only [apply, unsubscribe]
    split
    · rw [← walked_detach bus other]
      refine walked_congr rfl fun kind hwalks => ?_
      have hne := ((walks_detach_iff bus other kind).1 hwalks).2
      rw [Bus.list, Ledger.get?_insert_of_ne _ hne, Bus.list, lists_detach]
    · rfl
  | clear other =>
    rw [apply, clear, ← walked_detach bus other]
    refine walked_congr rfl fun kind hwalks => ?_
    have hne := ((walks_detach_iff bus other kind).1 hwalks).2
    rw [Bus.list, Ledger.get?_erase_of_ne _ hne, Bus.list, lists_detach]
  | clearAll =>
    rw [apply, clearAll, ← foldl_detach walked walked_detach bus bus.lists.keys]
    refine walked_congr rfl fun kind hwalks => ?_
    have habsent := ((walks_foldl_detach_iff bus _ kind).1 hwalks).2
    rw [Bus.list, Bus.list, foldl_detach Bus.lists lists_detach]
    exact (list_of_not_mem_keys habsent).symm
  | publish event => rfl
  | drop listener => rfl

/-- What a deed can do to the walked list. -/
theorem walked_apply_cases (bus : Bus κ ι α) (deed : Deed κ ι α) :
    (∃ kind subscription, deed = .subscribe kind subscription ∧ bus.Walks kind ∧
      (bus.apply deed).walked = enlist subscription bus.walked) ∨
    (∀ kind subscription, deed = .subscribe kind subscription → ¬ bus.Walks kind) ∧
      (bus.apply deed).walked = bus.walked := by
  by_cases hjoins : ∃ kind subscription, deed = .subscribe kind subscription ∧ bus.Walks kind
  · obtain ⟨kind, subscription, rfl, hwalks⟩ := hjoins
    exact .inl ⟨kind, subscription, rfl, hwalks, walked_subscribe hwalks subscription⟩
  · have hapart (kind : κ) (subscription : Subscription ι)
      (hdeed : deed = .subscribe kind subscription) :
        ¬ bus.Walks kind :=
      fun hwalks => hjoins ⟨kind, subscription, hdeed, hwalks⟩
    exact .inr ⟨hapart, walked_apply hapart⟩

/-- A list that is kept apart stays apart. -/
theorem Walks.of_apply (h : (bus.apply deed).Walks kind) : bus.Walks kind := by
  cases deed with
  | unsubscribe other listener =>
    simp only [apply, unsubscribe] at h
    split at h
    · exact ((walks_detach_iff bus other kind).1 h).1
    · exact h
  | clear other => exact ((walks_detach_iff bus other kind).1 h).1
  | clearAll => exact ((walks_foldl_detach_iff bus _ kind).1 h).1
  | _ => exact h

/-- Only a deed that replaces the walked list sets it apart. -/
theorem Walks.apply (h : bus.Walks kind) (hdeed : ¬ deed.Replaces kind) :
    (bus.apply deed).Walks kind := by
  cases deed with
  | unsubscribe other listener =>
    simp only [Bus.apply, unsubscribe]
    split
    · exact (walks_detach_iff bus other kind).2 ⟨h, Ne.symm hdeed⟩
    · exact h
  | clear other => exact (walks_detach_iff bus other kind).2 ⟨h, Ne.symm hdeed⟩
  | clearAll => exact absurd trivial hdeed
  | _ => exact h

end Deeds

end Bus

end Colloquy
