import Colloquy.Decimal.Notation
import Colloquy.Proofs.Chars.Trimmed
import Mathlib.Data.Nat.Digits.Lemmas

/-!
# Integers as they are spelled

The digits of an integer may be of any script, and single underscores may stand between them
(`Spells`). A sign may stand before them and blanks around it all. Such a text is read as the
integer that it spells if there are not too many digits (`readInt_of_spells`), and whatever is
read as an integer has so few digits that it can be written again (`natText_length_of_readInt`).
-/

namespace Colloquy

/-! ## Digits and blanks -/

namespace Chars

theorem exists_of_inRanges {ranges : List (Nat × Nat)} {code : Nat}
    (h : inRanges ranges code = true) :
    ∃ range ∈ ranges, range.1 ≤ code ∧ code ≤ range.2 := by
  induction ranges with
  | nil => cases h
  | cons range ranges ih =>
    rw [inRanges] at h
    split at h
    · cases h
    · next hlow =>
      rw [Bool.or_eq_true, decide_eq_true_eq] at h
      rcases h with hhigh | hlater
      · exact ⟨range, List.mem_cons_self, Nat.not_lt.1 hlow, hhigh⟩
      · obtain ⟨found, hfound, hcode⟩ := ih hlater
        exact ⟨found, List.mem_cons_of_mem _ hfound, hcode⟩

/-- The ranges of all digits, decimal or not. -/
def digitRanges : List (Nat × Nat) :=
  zeroDigits.map (fun first => (first, first + 9)) ++ otherDigitRanges

theorem exists_of_isDigit {c : Char} (h : isDigit c = true) :
    ∃ range ∈ digitRanges, range.1 ≤ c.toNat ∧ c.toNat ≤ range.2 := by
  rw [isDigit, Bool.or_eq_true] at h
  rcases h with hdecimal | hother
  · rw [digitValue?, Option.isSome_map, Option.isSome_iff_exists] at hdecimal
    obtain ⟨first, hfirst⟩ := hdecimal
    have hrange := List.find?_some hfirst
    rw [Bool.and_eq_true, decide_eq_true_eq, decide_eq_true_eq] at hrange
    have hmem : (first, first + 9) ∈ digitRanges :=
      List.mem_append_left _ (List.mem_map_of_mem (List.mem_of_find?_eq_some hfirst))
    exact ⟨_, hmem, hrange.1, Nat.le_of_lt_succ hrange.2⟩
  · obtain ⟨range, hrange, hcode⟩ := exists_of_inRanges hother
    exact ⟨range, List.mem_append_right _ hrange, hcode⟩

theorem digitRanges_apart : ∀ digits ∈ digitRanges, ∀ blanks ∈ blankRanges,
    digits.2 < blanks.1 ∨ blanks.2 < digits.1 := by
  decide +kernel

/-- No digit is a blank. -/
theorem isBlank_of_isDigit {c : Char} (h : isDigit c = true) : isBlank c = false := by
  rw [Bool.eq_false_iff]
  intro hblank
  obtain ⟨digits, hdigits, hcode⟩ := exists_of_isDigit h
  obtain ⟨blanks, hblanks, hcode'⟩ := exists_of_inRanges hblank
  have hapart := digitRanges_apart digits hdigits blanks hblanks
  omega

/-- A digit of a run of ten. -/
def isDecimal (c : Char) : Bool :=
  (digitValue? c).isSome

theorem isDigit_of_isDecimal {c : Char} (h : isDecimal c = true) : isDigit c = true := by
  rw [isDigit, Bool.or_eq_true]
  exact .inl h

theorem isBlank_of_digitValue? {c : Char} {d : Nat} (h : digitValue? c = some d) :
    isBlank c = false :=
  isBlank_of_isDigit (isDigit_of_isDecimal (by rw [isDecimal, h]; rfl))

end Chars

namespace Decimal

open Chars

/-- Nothing comes off a trimmed text before it is read. -/
theorem trimNumber_of_isTrimmed {cs : List Char} (h : IsTrimmed cs) : trimNumber cs = cs := by
  have hdrop :
      ∀ l : List Char, (∀ c ∈ l.head?, isBlank c = false) → l.dropWhile isOuterBlank = l := by
    intro l hl
    cases l with
    | nil => rfl
    | cons c l => exact List.dropWhile_cons_of_neg (by simp [isOuterBlank, hl c rfl])
  rw [trimNumber, hdrop cs h.1, hdrop cs.reverse (by rw [List.head?_reverse]; exact h.2),
    List.reverse_reverse]

/-! ## Runs of digits -/

/-- Characters spell digits: each is a digit of some script, with single underscores between
them. -/
inductive Spells : List Char → List Nat → Prop
  | digit {c : Char} {d : Nat} : digitValue? c = some d → Spells [c] [d]
  | cons {c : Char} {d : Nat} {cs : List Char} {ds : List Nat} :
      digitValue? c = some d → Spells cs ds → Spells (c :: cs) (d :: ds)
  | underscore {c : Char} {d : Nat} {cs : List Char} {ds : List Nat} :
      digitValue? c = some d → Spells cs ds → Spells (c :: '_' :: cs) (d :: ds)

/-- A text does not go on with digits. -/
def Stops (rest : List Char) : Prop :=
  ∀ c ∈ rest.head?, digitValue? c = none ∧ c ≠ '_'

theorem stops_nil : Stops [] := by
  simp [Stops]

theorem stops_cons {c : Char} (rest : List Char) (h : digitValue? c = none) (hc : c ≠ '_') :
    Stops (c :: rest) := by
  simp [Stops, h, hc]

theorem ne_underscore_of_digitValue? {c : Char} {d : Nat} (h : digitValue? c = some d) :
    c ≠ '_' := by
  rintro rfl
  have hnone : digitValue? '_' = none := by decide
  rw [hnone] at h
  cases h

theorem moreDigits_digit {c : Char} {d : Nat} (h : digitValue? c = some d) (cs : List Char) :
    moreDigits (c :: cs) = (d :: (moreDigits cs).1, (moreDigits cs).2) := by
  rw [moreDigits.eq_2 c cs fun _ _ heq _ => ne_underscore_of_digitValue? h heq, h]

theorem moreDigits_underscore {c : Char} {d : Nat} (h : digitValue? c = some d) (cs : List Char) :
    moreDigits ('_' :: c :: cs) = moreDigits (c :: cs) := by
  rw [moreDigits_digit h, moreDigits, h]

theorem moreDigits_of_stops {rest : List Char} (h : Stops rest) : moreDigits rest = ([], rest) := by
  cases rest with
  | nil => rfl
  | cons c cs =>
    obtain ⟨hnone, hc⟩ := h c rfl
    rw [moreDigits.eq_2 c cs fun _ _ heq _ => hc heq, hnone]

theorem Spells.head {cs : List Char} {ds : List Nat} (h : Spells cs ds) :
    ∃ c d tail, cs = c :: tail ∧ digitValue? c = some d := by
  cases h with
  | digit hd => exact ⟨_, _, _, rfl, hd⟩
  | cons hd _ => exact ⟨_, _, _, rfl, hd⟩
  | underscore hd _ => exact ⟨_, _, _, rfl, hd⟩

theorem Spells.ne_nil {cs : List Char} {ds : List Nat} (h : Spells cs ds) : ds ≠ [] := by
  cases h <;> exact List.cons_ne_nil _ _

theorem Spells.moreDigits_append {cs : List Char} {ds : List Nat} (h : Spells cs ds)
    {rest : List Char} (hrest : Stops rest) : moreDigits (cs ++ rest) = (ds, rest) := by
  induction h with
  | digit hd =>
    rw [List.singleton_append, moreDigits_digit hd, moreDigits_of_stops hrest]
  | cons hd _ ih =>
    rw [List.cons_append, moreDigits_digit hd, ih]
  | underscore hd hs ih =>
    obtain ⟨next, value, tail, rfl, hnext⟩ := hs.head
    rw [List.cons_append, moreDigits_digit hd, List.cons_append, List.cons_append,
      moreDigits_underscore hnext, ← List.cons_append, ih]

/-- Digits are read up to where they stop. -/
theorem Spells.digits_append {cs : List Char} {ds : List Nat} (h : Spells cs ds) {rest : List Char}
    (hrest : Stops rest) : digits (cs ++ rest) = (ds, rest) := by
  obtain ⟨c, d, tail, rfl, hd⟩ := h.head
  have hmore := h.moreDigits_append hrest
  rw [List.cons_append, moreDigits_digit hd] at hmore
  rw [List.cons_append, digits, hd]
  exact hmore

theorem Spells.not_isBlank {cs : List Char} {ds : List Nat} (h : Spells cs ds) :
    ∀ c ∈ cs, isBlank c = false := by
  induction h with
  | digit hd => simpa using isBlank_of_digitValue? hd
  | cons hd _ ih => simpa [isBlank_of_digitValue? hd] using ih
  | underscore hd _ ih =>
    have hunderscore : isBlank '_' = false := by decide
    simpa [isBlank_of_digitValue? hd, hunderscore] using ih

/-! ## Signs -/

/-- A text is a sign, or nothing at all; `negative` says whether it is a minus sign. -/
inductive IsSign : List Char → Bool → Prop
  | none : IsSign [] false
  | plus : IsSign ['+'] false
  | minus : IsSign ['-'] true

theorem IsSign.not_isBlank {text : List Char} {negative : Bool} (h : IsSign text negative) :
    ∀ c ∈ text, isBlank c = false := by
  cases h <;> simp <;> decide

/-- A sign is taken off what begins with a digit. -/
theorem IsSign.sign_append {text : List Char} {negative : Bool} (h : IsSign text negative)
    {c : Char} {d : Nat} (hc : digitValue? c = some d) (cs : List Char) :
    sign (text ++ c :: cs) = (negative, c :: cs) := by
  cases h with
  | plus => rfl
  | minus => rfl
  | none =>
    rw [List.nil_append, sign]
    all_goals
      rintro _ heq
      cases heq
      simp [digitValue?, zeroDigits] at hc

/-! ## Reading and writing -/

/-- A text is a decimal integer: a sign or none, and digits, not too many, which stand for the
number. -/
def IsInteger (cs : List Char) (i : Int) : Prop :=
  ∃ sign negative run ds, IsSign sign negative ∧ Spells run ds ∧ ds.length ≤ maxDigits ∧
    cs = sign ++ run ∧
    i = signed negative (Nat.ofDigits 10 ds.reverse)

theorem ofDigits_eq (ds : List Nat) : ofDigits ds = Nat.ofDigits 10 ds.reverse := by
  have hfold (n : Nat) :
      ds.foldl (fun n d => n * 10 + d) n = n * 10 ^ ds.length + Nat.ofDigits 10 ds.reverse := by
    induction ds generalizing n with
    | nil => simp
    | cons d ds ih =>
      rw [List.foldl_cons, ih, List.reverse_cons, Nat.ofDigits_append, List.length_reverse,
        List.length_cons, Nat.ofDigits_singleton]
      ring
  rw [ofDigits, hfold, Nat.zero_mul, Nat.zero_add]

/-- An integer is read as what it spells. -/
theorem readInt_of_isInteger {cs : List Char} {i : Int} (h : IsInteger cs i) :
    readInt cs = .ok i := by
  obtain ⟨text, negative, run, ds, hsign, hrun, hlength, rfl, rfl⟩ := h
  have htrimmed : IsTrimmed (text ++ run) := by
    refine isTrimmed_of_forall fun c hc => ?_
    rcases List.mem_append.1 hc with htext | hrun'
    · exact hsign.not_isBlank c htext
    · exact hrun.not_isBlank c hrun'
  obtain ⟨c, d, tail, rfl, hd⟩ := hrun.head
  have hdigits := hrun.digits_append stops_nil
  rw [List.append_nil] at hdigits
  rw [readInt, trimNumber_of_isTrimmed htrimmed, hsign.sign_append hd]
  dsimp only
  rw [hdigits]
  cases hds : ds with
  | nil => exact absurd hds hrun.ne_nil
  | cons first others =>
    have hfew : ¬ maxDigits < (first :: others).length := by
      rw [← hds]
      exact Nat.not_lt.2 hlength
    simp only [decide_eq_false hfew, Bool.false_and, Bool.false_eq_true, if_false,
      List.isEmpty_nil, if_true, ofDigits_eq]

theorem moreDigits_lt (cs : List Char) : ∀ d ∈ (moreDigits cs).1, d < 10 := by
  fun_induction moreDigits cs with
  | case1 c cs d hd ds rest heq ih => simpa [digitValue?_lt hd, heq] using ih
  | case2 => simp
  | case3 c cs _ d hd ds rest heq ih => simpa [digitValue?_lt hd, heq] using ih
  | case4 => simp
  | case5 => simp

theorem digits_lt (cs : List Char) : ∀ d ∈ (digits cs).1, d < 10 := by
  cases cs with
  | nil => simp [digits]
  | cons c cs =>
    rw [digits]
    cases hd : digitValue? c with
    | none => simp
    | some d => simpa [digitValue?_lt hd] using moreDigits_lt cs

theorem tenTo_le_tenTo {m n : Nat} (h : m ≤ n) : tenTo m ≤ tenTo n :=
  Nat.pow_le_pow_right (by decide) h

/-- Digits stand for a number below the power of ten that counts them. -/
theorem ofDigits_lt {ds : List Nat} (h : ∀ d ∈ ds, d < 10) : ofDigits ds < tenTo ds.length := by
  rw [ofDigits_eq, ← List.length_reverse]
  exact Nat.ofDigits_lt_base_pow_length (by decide) fun d hd => h d (List.mem_reverse.1 hd)

/-- A number below a power of ten has no more digits than the power counts. -/
theorem natText_length_le {n k : Nat} (hk : 0 < k) (h : n < tenTo k) : (natText n).length ≤ k :=
  Nat.toDigits_length 10 n k hk h

/-- An integer that has been read has not too many digits. -/
theorem natText_length_of_readInt {cs : List Char} {i : Int} (h : readInt cs = .ok i) :
    (natText i.natAbs).length ≤ maxDigits := by
  unfold readInt at h
  dsimp only at h
  split at h
  · cases h
  · next ds rest _ hread =>
    have hlt : ∀ d ∈ ds, d < 10 := by
      have := digits_lt (sign (trimNumber cs)).2
      rwa [hread] at this
    split at h
    · cases h
    · next hshort =>
      split at h
      · next hrest =>
        cases h
        rw [List.isEmpty_iff] at hrest
        subst hrest
        have hlength : ds.length ≤ maxDigits := by simpa using hshort
        have habs : (signed (sign (trimNumber cs)).1 (ofDigits ds)).natAbs = ofDigits ds := by
          unfold signed
          split <;> simp
        rw [habs]
        exact natText_length_le (by decide) ((ofDigits_lt hlt).trans_le (tenTo_le_tenTo hlength))
      · cases h

end Decimal

end Colloquy
