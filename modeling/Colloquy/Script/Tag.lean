import Colloquy.Graph
import Colloquy.Decimal.Notation

/-!
# Tags for nodes

A node keeps the tag that its block asks for, unless another node has it. Then the tag gets the
least number, counted from one, that makes it new. There is always such a number, since the
numbered tags differ from one another and only finitely many tags are taken.
-/

namespace Colloquy.Script

/-- The tag of the first node, unless the script gives it one. -/
def startTag : String := "start"

/-- The tag of the `n`-th later node without a tag in the script, counted from zero. -/
def autoTag (n : Nat) : String :=
  "node_" ++ Nat.repr n

/-- A tag with a number. -/
def numbered (base : String) (n : Nat) : String :=
  base ++ "_" ++ Nat.repr n

/-- Different numbers are written differently. -/
theorem repr_inj {m n : Nat} (h : Nat.repr m = Nat.repr n) : m = n := by
  have digits := congrArg String.toList h
  simp only [Nat.repr_eq_ofList_toDigits, String.toList_ofList] at digits
  rw [← Nat.ofDigitChars_toDigits (b := 10) (n := m) (by omega) (by omega), digits,
    Nat.ofDigitChars_toDigits (by omega) (by omega)]

theorem numbered_inj {base : String} {m n : Nat} (h : numbered base m = numbered base n) :
    m = n := by
  have lists := congrArg String.toList h
  simp only [numbered, String.toList_append, List.append_cancel_left_eq] at lists
  exact repr_inj (String.toList_inj.1 lists)

/-- A list without repetitions is not longer than a list that has all its members. -/
theorem length_le_of_nodup_of_subset {α : Type} [DecidableEq α] {l m : List α} (distinct : l.Nodup)
    (sub : ∀ x ∈ l, x ∈ m) : l.length ≤ m.length := by
  induction l generalizing m with
  | nil => simp
  | cons x l ih =>
    obtain ⟨apart, distinct⟩ := List.nodup_cons.1 distinct
    have hx : x ∈ m := sub x (by simp)
    have := ih (m := m.erase x) distinct fun y hy => by
      have hne : y ≠ x := fun e => apart (e ▸ hy)
      exact (List.mem_erase_of_ne hne).2 (sub y (List.mem_cons_of_mem _ hy))
    have := List.length_erase_of_mem hx
    have := List.length_pos_of_mem hx
    simp only [List.length_cons]
    omega

/-- The numbers that are tried: one more than there are tags. -/
def candidates (used : List String) : List Nat :=
  (List.range (used.length + 1)).map (· + 1)

/-- The first of some different numbers that makes a tag new. A tag that was met is left out of
the rest of the search, since the other numbers make other tags. -/
def firstFree (base : String) : List Nat → List String → Option Nat
  | [], _ => none
  | n :: ns, left =>
    if numbered base n ∈ left then firstFree base ns (left.erase (numbered base n)) else some n

theorem firstFree_eq_find? {base : String} {ns : List Nat} (distinct : ns.Nodup)
    {left used : List String} (same : ∀ n ∈ ns, numbered base n ∈ left ↔ numbered base n ∈ used) :
    firstFree base ns left = ns.find? fun n => numbered base n ∉ used := by
  induction ns generalizing left with
  | nil => rfl
  | cons n ns ih =>
    obtain ⟨apart, distinct⟩ := List.nodup_cons.1 distinct
    have hn := same n (by simp)
    by_cases taken : numbered base n ∈ left
    · rw [firstFree, if_pos taken, List.find?_cons_of_neg (by simpa using hn.1 taken)]
      refine ih distinct fun m hm => ?_
      have hne : numbered base m ≠ numbered base n := fun h => apart (numbered_inj h ▸ hm)
      rw [List.mem_erase_of_ne hne]
      exact same m (List.mem_cons_of_mem _ hm)
    · rw [firstFree, if_neg taken, List.find?_cons_of_pos (by simpa using mt hn.2 taken)]

/-- The least number that makes a tag new. -/
def freshNumber? (used : List String) (base : String) : Option Nat :=
  firstFree base (candidates used) used

theorem nodup_candidates (used : List String) : (candidates used).Nodup :=
  List.pairwise_map.2 (List.nodup_range.imp fun hne heq => hne (Nat.succ.inj heq))

theorem freshNumber?_eq_find? (used : List String) (base : String) :
    freshNumber? used base = (candidates used).find? fun n => numbered base n ∉ used :=
  firstFree_eq_find? (nodup_candidates used) fun _ _ => Iff.rfl

theorem freshNumber?_isSome (used : List String) (base : String) :
    (freshNumber? used base).isSome := by
  rw [freshNumber?_eq_find?, List.find?_isSome]
  apply Classical.byContradiction
  intro none
  have taken : ∀ tag ∈ (candidates used).map (numbered base), tag ∈ used := by
    intro tag htag
    obtain ⟨n, hn, rfl⟩ := List.mem_map.1 htag
    apply Classical.byContradiction
    intro hfree
    exact none ⟨n, hn, by simpa using hfree⟩
  have distinct : ((candidates used).map (numbered base)).Nodup :=
    List.pairwise_map.2 ((nodup_candidates used).imp fun hne heq => hne (numbered_inj heq))
  have := length_le_of_nodup_of_subset distinct taken
  rw [List.length_map, candidates, List.length_map, List.length_range] at this
  omega

/-- The number that makes a tag new. -/
def freshNumber (used : List String) (base : String) : Nat :=
  (freshNumber? used base).get (freshNumber?_isSome used base)

/-- The tag of a new node whose block asks for `base`. -/
def freshTag (used : List String) (base : String) : String :=
  if base ∈ used then numbered base (freshNumber used base) else base

theorem freshTag_not_mem (used : List String) (base : String) : freshTag used base ∉ used := by
  unfold freshTag
  split
  · have found : freshNumber? used base = some (freshNumber used base) := by simp [freshNumber]
    rw [freshNumber?_eq_find?] at found
    simpa using List.find?_some found
  · assumption

end Colloquy.Script
