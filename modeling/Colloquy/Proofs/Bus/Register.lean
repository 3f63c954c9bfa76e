import Colloquy.Proofs.Bus.Turns

/-!
# The register of an account

A register says which subscriptions are in force after an account: every subscription has a ticket
with its number, and a ticket is struck out when its kind is cleared, its listener unsubscribed,
or when a dispatch has reached it and it was for one event or had lost its listener.
`Register.ranked` puts the tickets of a kind in the order in which an event is to reach them. A
register knows nothing of the lists of the bus.

`Register.Agrees` says that the lists of a bus are those of a register. Deeds of a host keep it
(`Register.Agrees.record`), because a ticket that is added or struck out leaves the others in order
(`ranked_subscribe`, `ranked_keep`).
-/

namespace Colloquy

open Bus (Deed Mark)

/-- A subscription to a kind of events, with the number of subscriptions that were made before
it. -/
structure Ticket (κ ι : Type) where
  number : Nat
  kind : κ
  subscription : Subscription ι

/-- The subscriptions that are in force, and where a dispatch has come to. -/
structure Register (κ ι : Type) where
  /-- How many subscriptions have been made. -/
  made : Nat := 0
  /-- The tickets of those in force, in the order in which they were made. -/
  standing : List (Ticket κ ι) := []
  /-- The tickets that the event at hand is still to reach, in this order. -/
  ahead : List (Ticket κ ι) := []

variable {κ ι α : Type}

/-- A ticket comes before another one: it has the higher priority or, with the same priority, the
lower number. -/
def Ticket.before (first second : Ticket κ ι) : Bool :=
  second.subscription.priority < first.subscription.priority ||
    first.subscription.priority = second.subscription.priority && first.number ≤ second.number

namespace Register

section Steps

variable [DecidableEq κ] [DecidableEq ι]

/-- The tickets of a kind in the order in which an event reaches them. -/
def ranked (register : Register κ ι) (kind : κ) : List (Ticket κ ι) :=
  (register.standing.filter (·.kind = kind)).mergeSort Ticket.before

/-- Strikes out the tickets that do not satisfy a condition. -/
def keep (register : Register κ ι) (condition : Ticket κ ι → Bool) : Register κ ι :=
  { register with standing := register.standing.filter condition }

/-- Adds a ticket. -/
def subscribe (register : Register κ ι) (kind : κ) (subscription : Subscription ι) : Register κ ι :=
  { register with
    made := register.made + 1
    standing := register.standing ++ [⟨register.made, kind, subscription⟩] }

/-- The register after a deed. -/
def record (register : Register κ ι) : Deed κ ι α → Register κ ι
  | .subscribe kind subscription => register.subscribe kind subscription
  | .unsubscribe kind listener =>
    register.keep fun ticket => ! (ticket.kind = kind && ticket.subscription.listener = listener)
  | .clear kind => register.keep fun ticket => ticket.kind ≠ kind
  | .clearAll => { register with standing := [] }
  | .publish _ => register
  | .drop _ => register

/-- The register after the event at hand has reached the next ticket. A ticket that ends is struck
out. -/
def pass (register : Register κ ι) (ends : Bool) : Register κ ι :=
  match register.ahead with
  | [] => register
  | ticket :: ahead =>
    { (if ends then register.keep (·.number ≠ ticket.number) else register) with ahead }

/-- The register after a mark. -/
def note (register : Register κ ι) : Mark κ ι α → Register κ ι
  | .did _ deed _ => register.record deed
  | .taken event _ => { register with ahead := register.ranked event.kind }
  | .skipped _ _ => register.pass true
  | .begun _ _ _ => register
  | .ended subscription event _ =>
    let passed := register.pass subscription.oneShot
    if event.consumed then { passed with ahead := [] } else passed
  | .finished _ _ _ => register

/-- The register after marks. -/
def noteAll (register : Register κ ι) (marks : List (Mark κ ι α)) : Register κ ι :=
  marks.foldl note register

/-- The next ticket that the event at hand is to reach is one of a subscription. -/
def Due (register : Register κ ι) (subscription : Subscription ι) : Prop :=
  ∃ ticket ∈ register.ahead.head?, ticket.subscription = subscription

/-- A mark is as it should be after a register: an event reaches the tickets in their order. Those
that have lost their listeners are passed over, the listeners of the others are called, and it
goes on like this until there is no ticket left. -/
def Expects (register : Register κ ι) : Mark κ ι α → Prop
  | .did _ _ _ => True
  | .taken _ _ => True
  | .skipped subscription bus => register.Due subscription ∧ bus.isLost subscription = true
  | .begun subscription _ bus => register.Due subscription ∧ bus.isLost subscription = false
  | .ended subscription _ _ => register.Due subscription
  | .finished _ _ _ => register.ahead = []

/-- All marks are as they should be, each after those before it. -/
def Faithful : Register κ ι → List (Mark κ ι α) → Prop
  | _, [] => True
  | register, mark :: marks => register.Expects mark ∧ Faithful (register.note mark) marks

end Steps

/-! ## Tickets in their order -/

/-- Numbers are given out in ascending order. -/
structure Sound (register : Register κ ι) : Prop where
  ascending : register.standing.Pairwise fun first second => first.number < second.number
  below : ∀ ticket ∈ register.standing, ticket.number < register.made

theorem before_iff (first second : Ticket κ ι) :
    first.before second = true ↔ second.subscription.priority < first.subscription.priority ∨
      first.subscription.priority = second.subscription.priority ∧
      first.number ≤ second.number := by
  simp [Ticket.before]

theorem before_trans (first second third : Ticket κ ι) (h : first.before second = true)
    (h' : second.before third = true) : first.before third = true := by
  rw [before_iff] at h h' ⊢
  omega

theorem before_total (first second : Ticket κ ι) :
    (first.before second || second.before first) = true := by
  rw [Bool.or_eq_true, before_iff, before_iff]
  omega

/-- A ticket is known by its number. -/
theorem Sound.eq_of_number {register : Register κ ι} (h : register.Sound)
    {first second : Ticket κ ι} (hfirst : first ∈ register.standing)
    (hsecond : second ∈ register.standing)
    (hnumber : first.number = second.number) : first = second := by
  obtain ⟨i, hi, rfl⟩ := List.getElem_of_mem hfirst
  obtain ⟨j, hj, rfl⟩ := List.getElem_of_mem hsecond
  have hascending := List.pairwise_iff_getElem.1 h.ascending
  rcases Nat.lt_trichotomy i j with hlt | rfl | hgt
  · exact absurd hnumber (Nat.ne_of_lt (hascending i j hi hj hlt))
  · rfl
  · exact absurd hnumber.symm (Nat.ne_of_lt (hascending j i hj hi hgt))

theorem Sound.keep {register : Register κ ι} (h : register.Sound) (condition : Ticket κ ι → Bool) :
    (register.keep condition).Sound :=
  ⟨h.ascending.filter condition, fun ticket hticket => h.below ticket (List.mem_filter.1 hticket).1⟩

theorem Sound.subscribe {register : Register κ ι} (h : register.Sound) (kind : κ)
    (subscription : Subscription ι) : (register.subscribe kind subscription).Sound := by
  refine ⟨List.pairwise_append.2 ⟨h.ascending, List.pairwise_singleton _ _, ?_⟩,
    fun ticket hticket => ?_⟩
  · intro ticket hticket other hother
    rw [List.mem_singleton.1 hother]
    exact h.below ticket hticket
  · rcases List.mem_append.1 hticket with hticket | hticket
    · exact Nat.lt_succ_of_lt (h.below ticket hticket)
    · rw [List.mem_singleton.1 hticket]
      exact Nat.lt_succ_self _

variable [DecidableEq κ] {register : Register κ ι} {kind : κ}

theorem pairwise_ranked (register : Register κ ι) (kind : κ) :
    (register.ranked kind).Pairwise fun first second => first.before second = true :=
  List.pairwise_mergeSort before_trans before_total _

theorem ranked_perm (register : Register κ ι) (kind : κ) :
    (register.ranked kind).Perm (register.standing.filter (·.kind = kind)) :=
  List.mergeSort_perm _ _

theorem mem_ranked {ticket : Ticket κ ι} :
    ticket ∈ register.ranked kind ↔ ticket ∈ register.standing ∧ ticket.kind = kind := by
  rw [(register.ranked_perm kind).mem_iff]
  simp

/-- No two tickets of a kind have the same number. -/
theorem Sound.nodup_ranked (h : register.Sound) (kind : κ) :
    (register.ranked kind).Pairwise fun first second => first.number ≠ second.number := by
  have hstanding : (register.standing.filter (·.kind = kind)).Pairwise fun first second =>
      first.number ≠ second.number := (h.ascending.filter _).imp Nat.ne_of_lt
  exact (register.ranked_perm kind).symm.pairwise hstanding Ne.symm

/-- Tickets of a kind in their order are ranked. -/
theorem Sound.ranked_eq (h : register.Sound) {tickets : List (Ticket κ ι)}
    (hperm : tickets.Perm (register.standing.filter (·.kind = kind)))
    (hbefore : tickets.Pairwise fun first second => first.before second = true) :
    register.ranked kind = tickets := by
  refine List.Perm.eq_of_pairwise (fun first second hfirst hsecond h₁ h₂ => ?_)
    (register.pairwise_ranked kind) hbefore ((register.ranked_perm kind).trans hperm.symm)
  rw [before_iff] at h₁ h₂
  have hsecond' := hperm.mem_iff.1 hsecond
  exact h.eq_of_number (mem_ranked.1 hfirst).1 (List.mem_filter.1 hsecond').1 (by omega)

/-- Tickets that are struck out leave the others in order. -/
theorem Sound.ranked_keep (h : register.Sound) (condition : Ticket κ ι → Bool) (kind : κ) :
    (register.keep condition).ranked kind = (register.ranked kind).filter condition := by
  refine (h.keep condition).ranked_eq ?_ ((register.pairwise_ranked kind).filter condition)
  have hperm := (register.ranked_perm kind).filter condition
  rw [List.filter_filter] at hperm
  rw [Register.keep, List.filter_filter]
  exact hperm.trans (by simp only [Bool.and_comm]; exact .refl _)

/-- Striking out nothing of a kind leaves its tickets as they are. -/
theorem Sound.ranked_keep_eq (h : register.Sound) {condition : Ticket κ ι → Bool}
    (hall : ∀ ticket ∈ register.standing, ticket.kind = kind → condition ticket = true) :
    (register.keep condition).ranked kind = register.ranked kind := by
  rw [h.ranked_keep, List.filter_eq_self]
  intro ticket hticket
  obtain ⟨hstanding, hkind⟩ := mem_ranked.1 hticket
  exact hall ticket hstanding hkind

/-- The ticket that is struck out is missing from the tickets of its kind. -/
theorem Sound.ranked_strike (h : register.Sound) {passed left : List (Ticket κ ι)}
    {ticket : Ticket κ ι} (hsplit : register.ranked kind = passed ++ ticket :: left) :
    (register.keep (·.number ≠ ticket.number)).ranked kind = passed ++ left := by
  have hnumbers := h.nodup_ranked kind
  rw [hsplit] at hnumbers
  obtain ⟨-, hbehind, hacross⟩ := List.pairwise_append.1 hnumbers
  have hpassed : ∀ other ∈ passed, other.number ≠ ticket.number :=
    fun other hother => hacross other hother ticket List.mem_cons_self
  have hleft : ∀ other ∈ left, other.number ≠ ticket.number :=
    fun other hother => ((List.pairwise_cons.1 hbehind).1 other hother).symm
  rw [h.ranked_keep, hsplit, List.filter_append, List.filter_cons_of_neg (by simp),
    List.filter_eq_self.2 (by simpa using hpassed), List.filter_eq_self.2 (by simpa using hleft)]

/-- Other kinds keep their tickets. -/
theorem Sound.ranked_strike_of_ne (h : register.Sound) {ticket : Ticket κ ι}
    (hticket : ticket ∈ register.ranked kind) {other : κ} (hother : other ≠ kind) :
    (register.keep (·.number ≠ ticket.number)).ranked other = register.ranked other := by
  obtain ⟨hstanding, hkind⟩ := mem_ranked.1 hticket
  refine h.ranked_keep_eq fun ticket' hstanding' hkind' => ?_
  rw [decide_eq_true_eq]
  intro hnumber
  rw [h.eq_of_number hstanding' hstanding hnumber] at hkind'
  exact hother (hkind'.symm.trans hkind)

theorem pairwise_priority (register : Register κ ι) (kind : κ) :
    Bus.Descending ((register.ranked kind).map (·.subscription)) := by
  refine List.pairwise_map.2 ((register.pairwise_ranked kind).imp fun hbefore => ?_)
  rw [before_iff] at hbefore
  omega

/-- A new ticket comes behind those with its priority or a higher one, as its subscription does. -/
theorem Sound.ranked_subscribe (h : register.Sound) (kind : κ) (subscription : Subscription ι) :
    ((register.subscribe kind subscription).ranked kind).map (·.subscription) =
      Bus.enlist subscription ((register.ranked kind).map (·.subscription)) := by
  obtain ⟨first, second, hranked, henlist, hfirst, hsecond⟩ :=
    (register.pairwise_priority kind).exists_enlist subscription
  obtain ⟨above, below, hsplit, rfl, rfl⟩ := List.map_eq_append_iff.1 hranked
  have hpairwise := register.pairwise_ranked kind
  rw [hsplit] at hpairwise
  obtain ⟨habove, hbelow, hacross⟩ := List.pairwise_append.1 hpairwise
  -- The new ticket has the highest number, so that it comes behind those with its priority.
  let ticket : Ticket κ ι := ⟨register.made, kind, subscription⟩
  have hnew : (register.subscribe kind subscription).ranked kind = above ++ ticket :: below := by
    refine (h.subscribe kind subscription).ranked_eq ?_ (List.pairwise_append.2 ⟨habove,
      List.pairwise_cons.2 ⟨fun other hother => ?_, hbelow⟩, fun one hone other hother => ?_⟩)
    · have hperm := (register.ranked_perm kind).append_right [ticket]
      rw [hsplit] at hperm
      have hfilter : (register.subscribe kind subscription).standing.filter (·.kind = kind) =
          register.standing.filter (·.kind = kind) ++ [ticket] := by
        simp [Register.subscribe, ticket]
      rw [hfilter]
      refine .trans ?_ hperm
      rw [List.append_assoc]
      have hswap : ([ticket] ++ below).Perm (below ++ [ticket]) := List.perm_append_comm
      exact hswap.append_left above
    · rw [before_iff]
      exact .inl (hsecond _ (List.mem_map_of_mem hother))
    · rcases List.mem_cons.1 hother with rfl | hother
      · have hstanding : one ∈ register.standing :=
          (mem_ranked.1 (hsplit ▸ List.mem_append_left below hone)).1
        have hpriority := hfirst _ (List.mem_map_of_mem hone)
        have hnumber := h.below one hstanding
        rw [before_iff]
        change subscription.priority < one.subscription.priority ∨
          one.subscription.priority = subscription.priority ∧ one.number ≤ register.made
        omega
      · exact hacross one hone other hother
  rw [hnew, henlist, List.map_append, List.map_cons]

/-- Another kind than that of a new ticket keeps its tickets. -/
theorem ranked_subscribe_of_ne (register : Register κ ι) {other : κ} (h : other ≠ kind)
    (subscription : Subscription ι) :
    (register.subscribe other subscription).ranked kind = register.ranked kind := by
  rw [ranked, ranked, Register.subscribe, List.filter_append,
    List.filter_cons_of_neg (by simpa using h), List.filter_nil, List.append_nil]

/-! ## Lists that agree with a register -/

/-- The lists of a bus are those of a register. -/
structure Agrees (register : Register κ ι) (bus : Bus κ ι α) : Prop where
  sound : register.Sound
  list : ∀ kind, bus.list kind = (register.ranked kind).map (·.subscription)

/-- There is nothing in a new register, and nothing on a new bus. -/
theorem agrees_new : Agrees ({} : Register κ ι) ({} : Bus κ ι α) := by
  refine ⟨⟨List.Pairwise.nil, fun ticket hticket => nomatch hticket⟩, fun kind => ?_⟩
  have hranked : ({} : Register κ ι).ranked kind = [] := by simp [ranked]
  rw [hranked]
  rfl

/-- A deed does to the lists what it does to the register. -/
theorem Agrees.record [DecidableEq ι] {bus : Bus κ ι α} (h : register.Agrees bus)
    (deed : Deed κ ι α) : (register.record deed).Agrees (bus.apply deed) := by
  have hlist := h.list
  cases deed with
  | subscribe other subscription =>
    refine ⟨h.sound.subscribe other subscription, fun kind => ?_⟩
    rw [Bus.list_apply, hlist, Deed.edit, Register.record]
    split
    · next hkind => rw [← hkind, h.sound.ranked_subscribe]
    · next hkind => rw [ranked_subscribe_of_ne register hkind]
  | unsubscribe other listener =>
    refine ⟨h.sound.keep _, fun kind => ?_⟩
    rw [Bus.list_apply, hlist, Deed.edit, Register.record]
    split
    · next hkind =>
      rw [h.sound.ranked_keep, List.filter_map]
      congr 1
      refine List.filter_congr fun ticket hticket => ?_
      simp [hkind, (mem_ranked.1 hticket).2]
    · next hkind =>
      rw [h.sound.ranked_keep_eq]
      rintro ticket - rfl
      simp [Ne.symm hkind]
  | clear other =>
    refine ⟨h.sound.keep _, fun kind => ?_⟩
    rw [Bus.list_apply, hlist, Deed.edit, Register.record]
    split
    · next hkind =>
      rw [h.sound.ranked_keep, List.filter_eq_nil_iff.2, List.map_nil]
      intro ticket hticket
      simp [hkind, (mem_ranked.1 hticket).2]
    · next hkind =>
      rw [h.sound.ranked_keep_eq]
      rintro ticket - rfl
      simpa using Ne.symm hkind
  | clearAll =>
    refine ⟨⟨List.Pairwise.nil, by simp [Register.record]⟩, fun kind => ?_⟩
    rw [Bus.list_apply]
    simp [Deed.edit, ranked, Register.record]
  | publish event => exact ⟨h.sound, hlist⟩
  | drop listener => exact ⟨h.sound, hlist⟩

end Register

end Colloquy
