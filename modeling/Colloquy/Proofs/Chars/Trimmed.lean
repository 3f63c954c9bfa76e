import Mathlib.Data.List.Basic
import Mathlib.Data.List.TakeWhile
import Mathlib.Tactic.Common
import Colloquy.Chars.Split

/-!
# Trimmed texts

A text is trimmed if it neither begins nor ends with a blank. Trimming makes a text trimmed and
leaves a trimmed text alone, and it only takes characters away.
-/

namespace Colloquy.Chars

/-- A text that neither begins nor ends with a blank. -/
def IsTrimmed (cs : List Char) : Prop :=
  (∀ c ∈ cs.head?, isBlank c = false) ∧ ∀ c ∈ cs.getLast?, isBlank c = false

-- The instances are named, since the one for properties of all characters would try every
-- character.
instance : DecidablePred IsTrimmed := fun cs =>
  @instDecidableAnd _ _ (Option.decidableForallMem cs.head?) (Option.decidableForallMem cs.getLast?)

/-- A text without blanks is trimmed. -/
theorem isTrimmed_of_forall {cs : List Char} (h : ∀ c ∈ cs, isBlank c = false) : IsTrimmed cs :=
  ⟨fun c hc => h c (List.mem_of_mem_head? hc), fun c hc => h c (List.mem_of_getLast? hc)⟩

theorem head?_trimStart (cs : List Char) : ∀ c ∈ (trimStart cs).head?, isBlank c = false := by
  induction cs with
  | nil => simp [trimStart]
  | cons a cs ih =>
    by_cases h : isBlank a
    · rw [trimStart, List.dropWhile_cons_of_pos h]
      exact ih
    · rw [trimStart, List.dropWhile_cons_of_neg h]
      simpa using h

theorem trimStart_of_head? {cs : List Char} (h : ∀ c ∈ cs.head?, isBlank c = false) :
    trimStart cs = cs := by
  cases cs with
  | nil => rfl
  | cons a cs =>
    have ha : isBlank a = false := h a (by simp)
    exact List.dropWhile_cons_of_neg (by simp [ha])

theorem trimEnd_eq (cs : List Char) : trimEnd cs = (trimStart cs.reverse).reverse := rfl

theorem getLast?_trimEnd (cs : List Char) : ∀ c ∈ (trimEnd cs).getLast?, isBlank c = false := by
  rw [trimEnd_eq, List.getLast?_reverse]
  exact head?_trimStart cs.reverse

theorem trimEnd_of_getLast? {cs : List Char} (h : ∀ c ∈ cs.getLast?, isBlank c = false) :
    trimEnd cs = cs := by
  rw [trimEnd_eq, trimStart_of_head? (by rwa [List.head?_reverse]), List.reverse_reverse]

/-- What is left after trimming at the end is a beginning of the text. -/
theorem trimEnd_isPrefix (cs : List Char) : trimEnd cs <+: cs := by
  rw [trimEnd_eq, ← List.reverse_suffix, List.reverse_reverse]
  exact List.dropWhile_suffix isBlank

theorem isTrimmed_trim (cs : List Char) : IsTrimmed (trim cs) := by
  refine ⟨?_, getLast?_trimEnd _⟩
  intro c hc
  obtain ⟨rest, hrest⟩ := trimEnd_isPrefix (trimStart cs)
  apply head?_trimStart cs c
  rw [← hrest, List.head?_append]
  rw [trim] at hc
  simp [Option.mem_def.mp hc]

theorem trim_of_isTrimmed {cs : List Char} (h : IsTrimmed cs) : trim cs = cs := by
  rw [trim, trimStart_of_head? h.1, trimEnd_of_getLast? h.2]

/-- What has a first and a last character that are not blank is trimmed. -/
theorem isTrimmed_append {front back : List Char} (hfront : front ≠ []) (hback : back ≠ [])
    (hfirst : ∀ c ∈ front.head?, isBlank c = false)
    (hlast : ∀ c ∈ back.getLast?, isBlank c = false) : IsTrimmed (front ++ back) := by
  constructor
  · rwa [List.head?_append_of_ne_nil _ hfront]
  · rwa [List.getLast?_append_of_ne_nil _ hback]

theorem trim_cons_blank {c : Char} {cs : List Char} (hblank : isBlank c = true)
    (htrimmed : IsTrimmed cs) :
    trim (c :: cs) = cs := by
  rw [trim, trimStart, List.dropWhile_cons_of_pos hblank, ← trimStart, ← trim,
    trim_of_isTrimmed htrimmed]

@[simp] theorem trim_trim (cs : List Char) : trim (trim cs) = trim cs :=
  trim_of_isTrimmed (isTrimmed_trim cs)

/-- Blanks at the end make no difference. -/
theorem trim_append_blanks {blanks : List Char} (hblanks : ∀ c ∈ blanks, isBlank c)
    (cs : List Char) :
    trim (cs ++ blanks) = trim cs := by
  have hend : ∀ text, trimEnd (text ++ blanks) = trimEnd text := by
    intro text
    rw [trimEnd, trimEnd, List.reverse_append,
      List.dropWhile_append_of_pos fun c hc => hblanks c (List.mem_reverse.mp hc)]
  rw [trim, trim, trimStart, trimStart, List.dropWhile_append]
  split
  · next hall =>
    rw [List.isEmpty_iff] at hall
    rw [hall, List.dropWhile_eq_nil_iff.mpr hblanks]
  · exact hend _

/-- Blanks at the start make no difference. -/
theorem trim_blanks_append {blanks : List Char} (hblanks : ∀ c ∈ blanks, isBlank c)
    (cs : List Char) :
    trim (blanks ++ cs) = trim cs := by
  rw [trim, trim, trimStart, trimStart, List.dropWhile_append_of_pos hblanks]

theorem trim_sublist (cs : List Char) : (trim cs).Sublist cs :=
  (trimEnd_isPrefix _).sublist.trans (List.dropWhile_suffix isBlank).sublist

theorem dropReturns_sublist (cs : List Char) : (dropReturns cs).Sublist cs := by
  rw [dropReturns, ← List.reverse_sublist, List.reverse_reverse]
  exact (List.dropWhile_suffix _).sublist

/-- Dropping carriage returns drops blanks at the end. -/
theorem exists_dropReturns_append (cs : List Char) :
    ∃ returns, (∀ c ∈ returns, isBlank c) ∧ dropReturns cs ++ returns = cs := by
  refine ⟨(cs.reverse.takeWhile (· == '\r')).reverse, ?_, ?_⟩
  · intro c hc
    have hreturn := List.mem_takeWhile_imp (List.mem_reverse.mp hc)
    rw [beq_iff_eq] at hreturn
    subst hreturn
    decide
  · rw [dropReturns, ← List.reverse_append, List.takeWhile_append_dropWhile, List.reverse_reverse]

/-- A character that is no carriage return shields what stands before it. -/
theorem dropReturns_cons {c : Char} (hc : c ≠ '\r') (cs : List Char) :
    dropReturns (c :: cs) = c :: dropReturns cs := by
  have hstays : [c].dropWhile (· == '\r') = [c] := List.dropWhile_cons_of_neg (by simpa using hc)
  rw [dropReturns, List.reverse_cons, List.dropWhile_append, hstays, dropReturns]
  split
  · next hall =>
    rw [List.isEmpty_iff] at hall
    rw [hall]
    rfl
  · rw [List.reverse_append]
    rfl

theorem dropReturns_of_getLast? {cs : List Char} (h : ∀ c ∈ cs.getLast?, isBlank c = false) :
    dropReturns cs = cs := by
  have hkept : cs.reverse.dropWhile (· == '\r') = cs.reverse := by
    cases hreverse : cs.reverse with
    | nil => rfl
    | cons c rest =>
      have hlast : cs.getLast? = some c := by
        rw [← List.head?_reverse, hreverse]
        rfl
      have hc : c ≠ '\r' := by
        rintro rfl
        exact absurd (h _ hlast) (by decide)
      exact List.dropWhile_cons_of_neg (by simpa using hc)
  rw [dropReturns, hkept, List.reverse_reverse]

/-- No piece of a text that is cut holds a character at which it is cut. -/
theorem not_mem_of_mem_cut {p : Char → Bool} {cs piece : List Char} (hpiece : piece ∈ cut p cs) :
    ∀ c ∈ piece, p c = false := by
  induction cs generalizing piece with
  | nil =>
    rw [cut_nil, List.mem_singleton] at hpiece
    simp [hpiece]
  | cons a cs ih =>
    by_cases h : p a
    · rw [cut_cons_pos h, List.mem_cons] at hpiece
      rcases hpiece with rfl | hpiece
      · simp
      · exact ih hpiece
    · obtain ⟨first, rest, hcut⟩ := List.exists_cons_of_ne_nil (cut_ne_nil p cs)
      have hcons : cut p (a :: cs) = (a :: first) :: rest := by
        rw [cut, List.foldr_cons, if_neg h, ← cut, hcut]
      rw [hcons, List.mem_cons] at hpiece
      rcases hpiece with rfl | hpiece
      · intro c hc
        rcases List.mem_cons.mp hc with rfl | hc
        · simpa using h
        · exact ih (hcut ▸ List.mem_cons_self) c hc
      · exact ih (hcut ▸ List.mem_cons_of_mem _ hpiece)

/-! ## Lines -/

/-- What stands before the first line feed belongs to the first line. -/
theorem lines_append {cs rest first : List Char} {others : List (List Char)} (h : '\n' ∉ cs)
    (hrest : lines rest = first :: others) : lines (cs ++ rest) = (cs ++ first) :: others := by
  induction cs with
  | nil => exact hrest
  | cons c cs ih =>
    rw [List.mem_cons, not_or] at h
    have hc : (c == '\n') = false := by simpa using Ne.symm h.1
    have htail : cut (· == '\n') (cs ++ rest) = (cs ++ first) :: others := ih h.2
    rw [lines, List.cons_append, cut, List.foldr_cons, ← cut, htail, hc]
    rfl

theorem lines_of_not_mem {cs : List Char} (h : '\n' ∉ cs) : lines cs = [cs] := by
  have hnil : lines [] = [[]] := rfl
  simpa using lines_append h hnil

theorem lines_append_newline {cs : List Char} (h : '\n' ∉ cs) (rest : List Char) :
    lines (cs ++ '\n' :: rest) = cs :: lines rest := by
  have hline : lines ('\n' :: rest) = [] :: lines rest := cut_cons_pos rfl rest
  rw [lines_append h hline, List.append_nil]

/-- The lines of rows with line feeds between them are the rows. There may be empty lines after
them. -/
theorem lines_intercalate {rows : List (List Char)} (hrows : ∀ row ∈ rows, '\n' ∉ row)
    {tail : List Char} (htail : tail = [] ∨ tail = ['\n']) :
    ∃ empty, (∀ line ∈ empty, line = []) ∧
      lines (['\n'].intercalate rows ++ tail) = rows ++ empty := by
  induction rows with
  | nil =>
    rcases htail with rfl | rfl
    · exact ⟨[[]], by simp, rfl⟩
    · exact ⟨[[], []], by simp, rfl⟩
  | cons row rows ih =>
    have hrow : '\n' ∉ row := hrows row List.mem_cons_self
    cases rows with
    | nil =>
      rw [List.intercalate_singleton]
      rcases htail with rfl | rfl
      · exact ⟨[], by simp, by rw [List.append_nil, lines_of_not_mem hrow, List.append_nil]⟩
      · exact ⟨[[]], by simp, by rw [lines_append_newline hrow, lines_of_not_mem (by simp)]; rfl⟩
    | cons next rows =>
      rw [List.forall_mem_cons] at hrows
      obtain ⟨empty, hempty, hlines⟩ := ih hrows.2
      refine ⟨empty, hempty, ?_⟩
      rw [List.intercalate_cons_cons, List.append_assoc, List.append_assoc, List.singleton_append,
        lines_append_newline hrow, hlines]
      rfl

end Colloquy.Chars
