import Colloquy.Proofs.Decimal.Digits
import Colloquy.Terminal.Player
import Mathlib.Data.List.TakeWhile
import Mathlib.Tactic.Common

/-!
# Answers at a prompt

Where choices are open, an answer picks one if it spells its number in decimal digits, of whatever
script (`pick_of_typed`), and is turned down if it has a character that is no digit at all
(`pick_of_not_digits`). There are digits that are not decimal, such as superscripts, and there are
numbers of too many digits: an answer that consists of digits and spells no number ends the
program (`pick_of_spurious`).
-/

namespace Colloquy

/-! ## Numbers without signs and blanks -/

namespace Decimal

open Chars

variable {cs : List Char}

/-- Without underscores, all decimal digits up to the first other character are read. -/
theorem moreDigits_eq (h : ∀ c ∈ cs, c ≠ '_') :
    moreDigits cs = ((cs.takeWhile isDecimal).filterMap digitValue?, cs.dropWhile isDecimal) := by
  induction cs with
  | nil => rfl
  | cons c cs ih =>
    have hc : c ≠ '_' := h c List.mem_cons_self
    cases hvalue : digitValue? c with
    | none =>
      have hother : ¬ isDecimal c = true := by simp [isDecimal, hvalue]
      have hmore : moreDigits (c :: cs) = ([], c :: cs) := by
        rw [moreDigits.eq_2 c cs fun _ _ heq _ => hc heq, hvalue]
      rw [hmore, List.takeWhile_cons_of_neg hother, List.dropWhile_cons_of_neg hother]
      rfl
    | some d =>
      have hdecimal : isDecimal c = true := by simp [isDecimal, hvalue]
      have hmore : moreDigits (c :: cs) = (d :: (moreDigits cs).1, (moreDigits cs).2) := by
        rw [moreDigits.eq_2 c cs fun _ _ heq _ => hc heq, hvalue]
      rw [hmore, List.takeWhile_cons_of_pos hdecimal, List.dropWhile_cons_of_pos hdecimal,
        List.filterMap_cons, hvalue, ih fun c hmem => h c (List.mem_cons_of_mem _ hmem)]

theorem digits_eq (h : ∀ c ∈ cs, c ≠ '_') :
    digits cs = ((cs.takeWhile isDecimal).filterMap digitValue?, cs.dropWhile isDecimal) := by
  cases cs with
  | nil => rfl
  | cons c cs =>
    rw [digits]
    cases hvalue : digitValue? c with
    | none =>
      have hother : ¬ isDecimal c = true := by simp [isDecimal, hvalue]
      rw [List.takeWhile_cons_of_neg hother, List.dropWhile_cons_of_neg hother]
      rfl
    | some d =>
      have hdecimal : isDecimal c = true := by simp [isDecimal, hvalue]
      rw [List.takeWhile_cons_of_pos hdecimal, List.dropWhile_cons_of_pos hdecimal,
        List.filterMap_cons, hvalue,
        moreDigits_eq fun c hmem => h c (List.mem_cons_of_mem _ hmem)]

theorem length_filterMap_decimal (h : ∀ c ∈ cs, isDecimal c = true) :
    (cs.filterMap digitValue?).length = cs.length := by
  induction cs with
  | nil => rfl
  | cons c cs ih =>
    obtain ⟨d, hd⟩ := Option.isSome_iff_exists.1 (h c List.mem_cons_self)
    rw [List.filterMap_cons, hd]
    exact congrArg (· + 1) (ih fun c hmem => h c (List.mem_cons_of_mem _ hmem))

section Digits

variable (h : ∀ c ∈ cs, isDigit c = true)

include h

/-- Nothing comes off a text of digits before it is read. -/
theorem trimNumber_of_digits : trimNumber cs = cs :=
  trimNumber_of_isTrimmed (isTrimmed_of_forall fun c hc => isBlank_of_isDigit (h c hc))

theorem sign_of_digits : sign cs = (false, cs) := by
  unfold sign
  split
  · exact absurd (h '-' List.mem_cons_self) (by decide)
  · exact absurd (h '+' List.mem_cons_self) (by decide)
  · rfl

/-- Of a text of digits, the decimal ones at the start are read, and no other ones may follow. -/
theorem readInt_of_digits :
    readInt cs =
      let read := cs.takeWhile isDecimal
      if read = [] then .error .malformed
      else if maxDigits < read.length then .error (.tooLong read.length)
      else if read = cs then .ok (ofDigits (read.filterMap digitValue?) : Nat)
      else .error .malformed := by
  have hunderscore : ∀ c ∈ cs, c ≠ '_' := by
    rintro c hc rfl
    exact absurd (h '_' hc) (by decide)
  have hlength :
      ((cs.takeWhile isDecimal).filterMap digitValue?).length = (cs.takeWhile isDecimal).length :=
    length_filterMap_decimal fun c hc => List.mem_takeWhile_imp hc
  have hnext : ((cs.dropWhile isDecimal).head? != some '_') = true := by
    rw [bne_iff_ne]
    intro heq
    exact hunderscore '_' ((List.dropWhile_suffix _).subset (List.mem_of_head? heq)) rfl
  have hwhole : (cs.dropWhile isDecimal).isEmpty = true ↔ cs.takeWhile isDecimal = cs := by
    rw [List.isEmpty_iff, List.dropWhile_eq_nil_iff, List.takeWhile_eq_self_iff]
  rw [readInt, trimNumber_of_digits h, sign_of_digits h]
  dsimp only
  rw [digits_eq hunderscore]
  cases hds : (cs.takeWhile isDecimal).filterMap digitValue? with
  | nil =>
    rw [hds] at hlength
    rw [if_pos (List.length_eq_zero_iff.1 hlength.symm)]
  | cons d ds =>
    rw [hds] at hlength
    have hsome : cs.takeWhile isDecimal ≠ [] := by
      intro hnil
      rw [hnil] at hlength
      cases hlength
    dsimp only
    rw [hnext, hlength, Bool.and_true, if_neg hsome]
    simp only [hwhole, decide_eq_true_eq, signed, Bool.false_eq_true, if_false]

end Digits

end Decimal

namespace Terminal

/-! ## What an answer picks -/

/-- The number that an answer spells in decimal digits of any script, with no sign and no blanks,
and not too many digits. -/
def typed? (answer : List Char) : Option Nat :=
  if answer ≠ [] ∧ answer.length ≤ Decimal.maxDigits ∧ answer.all Chars.isDecimal then
    some (Decimal.ofDigits (answer.filterMap Chars.digitValue?))
  else none

/-- An answer looks like a number: it is made of digits, which need not be decimal. -/
def LooksTyped (answer : List Char) : Prop :=
  answer ≠ [] ∧ answer.all Chars.isDigit

instance (answer : List Char) : Decidable (LooksTyped answer) :=
  inferInstanceAs (Decidable (_ ∧ _))

/-- What is wrong with an answer that looks like a number and spells none. -/
def misspelling (answer : List Char) : Decimal.IntFailure :=
  let read := answer.takeWhile Chars.isDecimal
  if Decimal.maxDigits < read.length then .tooLong read.length else .malformed

variable {answer : List Char} {number : Nat}

theorem looksTyped_of_typed (h : typed? answer = some number) : LooksTyped answer := by
  unfold typed? at h
  split at h
  · next hdigits =>
    have hall := List.all_eq_true.1 hdigits.2.2
    exact ⟨hdigits.1, List.all_eq_true.2 fun c hc => Chars.isDigit_of_isDecimal (hall c hc)⟩
  · cases h

/-- An answer that looks like a number is read as it is spelled. -/
theorem readInt_of_looksTyped (h : LooksTyped answer) :
    Decimal.readInt answer =
      match typed? answer with
      | some number => .ok number
      | none => .error (misspelling answer) := by
  rw [Decimal.readInt_of_digits (List.all_eq_true.1 h.2)]
  unfold typed? misspelling
  dsimp only
  by_cases hread : answer.takeWhile Chars.isDecimal = answer
  · have hall : answer.all Chars.isDecimal = true :=
      List.all_eq_true.2 (List.takeWhile_eq_self_iff.1 hread)
    rw [hread, if_neg h.1, if_pos rfl]
    by_cases hlong : Decimal.maxDigits < answer.length
    · rw [if_pos hlong, if_neg fun hdigits => absurd hdigits.2.1 (Nat.not_le.2 hlong), if_pos hlong]
    · rw [if_neg hlong, if_pos ⟨h.1, Nat.not_lt.1 hlong, hall⟩]
  · have hspurious : ¬ (answer ≠ [] ∧ answer.length ≤ Decimal.maxDigits ∧
        answer.all Chars.isDecimal = true) := fun hdigits =>
      hread (List.takeWhile_eq_self_iff.2 (List.all_eq_true.1 hdigits.2.2))
    rw [if_neg hread, if_neg hspurious]
    by_cases hnone : answer.takeWhile Chars.isDecimal = []
    · rw [if_pos hnone, hnone]
      rfl
    · rw [if_neg hnone]
      split <;> rfl

variable (count : Nat)

/-- A number picks the choice that it counts. -/
theorem pick_of_typed (h : typed? answer = some number) :
    pick count answer = .ok (if 1 ≤ number ∧ number ≤ count then some (number - 1) else none) := by
  have hlooks := looksTyped_of_typed h
  have hdigits : ¬ (answer.isEmpty || ! answer.all Chars.isDigit) = true := by
    simpa [hlooks.1] using hlooks.2
  rw [pick, if_neg hdigits, readInt_of_looksTyped hlooks, h]
  have hrange : (1 ≤ (number : Int) && (number : Int) ≤ count) = true ↔ 1 ≤ number ∧
      number ≤ count := by
    rw [Bool.and_eq_true, decide_eq_true_eq, decide_eq_true_eq]
    omega
  simp only [hrange, Int.toNat_natCast]

/-- Another answer picks nothing. -/
theorem pick_of_not_digits (h : ¬ LooksTyped answer) : pick count answer = .ok none := by
  refine if_pos ?_
  rw [Bool.or_eq_true, List.isEmpty_iff, Bool.not_eq_true', ← Bool.not_eq_true]
  by_cases hempty : answer = []
  · exact .inl hempty
  · exact .inr fun hall => h ⟨hempty, hall⟩

/-- An answer that looks like a number and spells none cannot be understood. -/
theorem pick_of_spurious (hlooks : LooksTyped answer) (h : typed? answer = none) :
    pick count answer = .error ⟨answer, misspelling answer⟩ := by
  have hdigits : ¬ (answer.isEmpty || ! answer.all Chars.isDigit) = true := by
    simpa [hlooks.1] using hlooks.2
  rw [pick, if_neg hdigits, readInt_of_looksTyped hlooks, h]

end Terminal

end Colloquy
