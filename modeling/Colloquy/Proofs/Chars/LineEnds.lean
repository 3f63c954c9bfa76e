import Mathlib.Data.List.DropRight
import Mathlib.Data.List.Infix
import Colloquy.Proofs.Chars.Trimmed

/-!
# Line ends

A line feed ends a line; a carriage return before it is dropped with the end of the line. A text
in which carriage returns stand nowhere else has the same lines whether its line ends are unified
first or not.
-/

namespace Colloquy.Chars

theorem cut_eq_splitOnP (p : Char → Bool) (cs : List Char) : cut p cs = cs.splitOnP p := by
  induction cs with
  | nil => rfl
  | cons c cs ih =>
    rw [List.splitOnP_cons_eq_if_modifyHead, ← ih, cut, List.foldr_cons, ← cut]
    split
    · rfl
    · obtain ⟨piece, rest, hcut⟩ := List.exists_cons_of_ne_nil (cut_ne_nil p cs)
      rw [hcut]
      rfl

/-- The lines of a text stand between its line feeds. What is dropped at the end of a line is its
carriage returns. -/
theorem lines_dropReturns (cs : List Char) :
    (lines cs).map dropReturns = (cs.splitOn '\n').map (·.rdropWhile (· == '\r')) := by
  rw [lines, cut_eq_splitOnP]
  rfl

/-- Every carriage return stands directly before a line feed. -/
def ReturnsPaired (cs : List Char) : Prop :=
  ∀ front back, cs = front ++ '\r' :: back → back.head? = some '\n'

theorem returnsPaired_iff {cs : List Char} : ReturnsPaired cs ↔
    ∀ rest ∈ cs.tails, rest.head? = some '\r' → rest.tail.head? = some '\n' := by
  constructor
  · intro h rest hrest hreturn
    obtain ⟨front, rfl⟩ := (List.mem_tails _ _).mp hrest
    obtain ⟨back, rfl⟩ := List.head?_eq_some_iff.mp hreturn
    exact h front back rfl
  · rintro h front back rfl
    exact h ('\r' :: back) ((List.mem_tails _ _).mpr ⟨front, rfl⟩) rfl

instance : DecidablePred ReturnsPaired := fun cs =>
  @decidable_of_iff _ _ returnsPaired_iff.symm (List.decidableBAll _ cs.tails)

theorem ReturnsPaired.of_append (front : List Char) {back : List Char}
    (h : ReturnsPaired (front ++ back)) : ReturnsPaired back := by
  intro before after heq
  exact h (front ++ before) after (by rw [heq, List.append_assoc])

/-- A character that ends no line is put before the first line. -/
theorem lines_cons {c : Char} (hc : c ≠ '\n') (cs : List Char) :
    ∃ first others, lines cs = first :: others ∧ lines (c :: cs) = (c :: first) :: others := by
  obtain ⟨first, others, hlines⟩ := List.exists_cons_of_ne_nil (lines_ne_nil cs)
  have hline : '\n' ∉ [c] := by simpa using Ne.symm hc
  exact ⟨first, others, hlines, lines_append hline hlines⟩

/-- Unifying line ends leaves the lines alone, if no carriage return stands by itself. -/
theorem lines_unifyLineEnds {cs : List Char} (hpaired : ReturnsPaired cs) :
    (lines (unifyLineEnds cs)).map dropReturns = (lines cs).map dropReturns := by
  have hend : ∀ cs, lines ('\n' :: cs) = [] :: lines cs := fun cs => cut_cons_pos rfl cs
  induction cs using unifyLineEnds.induct with
  | case1 => rfl
  | case2 cs ih =>
    have hreturn : lines (['\r'] ++ '\n' :: cs) = ['\r'] :: lines cs :=
      lines_append_newline (by decide) cs
    rw [List.singleton_append] at hreturn
    rw [unifyLineEnds, hend, hreturn, List.map_cons, List.map_cons,
      ih (hpaired.of_append ['\r', '\n'])]
    rfl
  | case3 c cs hlone ih =>
    have hc : c ≠ '\r' := by
      rintro rfl
      obtain ⟨rest, hrest⟩ := List.head?_eq_some_iff.mp (hpaired [] cs rfl)
      exact hlone rest rfl hrest
    have hrest := ih (hpaired.of_append [c])
    have hstep : unifyLineEnds (c :: cs) = c :: unifyLineEnds cs := by
      rw [unifyLineEnds, if_neg (by simpa using hc)]
      exact hlone
    rw [hstep]
    by_cases hfeed : c = '\n'
    · subst hfeed
      rw [hend, hend, List.map_cons, List.map_cons, hrest]
    · obtain ⟨first, others, hlines, hcons⟩ := lines_cons hfeed cs
      obtain ⟨first', others', hlines', hcons'⟩ := lines_cons hfeed (unifyLineEnds cs)
      rw [hlines, hlines', List.map_cons, List.map_cons, List.cons.injEq] at hrest
      rw [hcons, hcons', List.map_cons, List.map_cons, dropReturns_cons hc, dropReturns_cons hc,
        hrest.1, hrest.2]

end Colloquy.Chars
