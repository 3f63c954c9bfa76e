import Colloquy.Decimal.Shortest
import Colloquy.Proofs.Decimal.Doubles

/-!
# Shortest decimals read back

The decimal number that `shortest` finds for a double is one that is read as this double
(`shortest_reads_back`). Whatever is found has been tried, so all there is to see is that
something is found: among the decimals of seventeen digits one of the two around the double is so
close to it that it is read as the double. That the digits are seventeen rests on `magnitude`, of
which only the lower bound is needed (`ten_zpow_magnitude_le`).
-/

namespace Colloquy.Decimal

open Binary

/-- The number that a decimal number stands for. -/
def Scientific.value (s : Scientific) : ℚ :=
  s.mantissa * 10 ^ s.exponent

/-! ## Scaling by powers of ten -/

theorem scaledTen_eq (num den : ℕ) (e : ℤ) :
    ((scaledTen num den e).1 : ℚ) / (scaledTen num den e).2 = num / den / 10 ^ e :=
  quotient_div_zpow (by decide) num den e rfl

theorem scaledTen_pos (num : ℕ) {den : ℕ} (h : 0 < den) (e : ℤ) : 0 < (scaledTen num den e).2 := by
  unfold scaledTen
  split
  · exact Nat.mul_pos h (tenTo_pos _)
  · exact h

/-- A scaled quotient is less than one exactly if the quotient is below the power of ten. -/
theorem scaledTen_lt_iff (num : ℕ) {den : ℕ} (h : 0 < den) (e : ℤ) :
    (scaledTen num den e).1 < (scaledTen num den e).2 ↔ (num : ℚ) / den < 10 ^ e := by
  have hpos : (0 : ℚ) < (scaledTen num den e).2 := by exact_mod_cast scaledTen_pos num h e
  rw [← @Nat.cast_lt ℚ, ← div_lt_one hpos, scaledTen_eq, div_lt_one (ten_zpow_pos e)]

/-- The whole units of a scaled quotient are the multiple of the power of ten next below the
quotient. -/
theorem scaledTen_div_bounds (num den : ℕ) (e : ℤ) :
    (((scaledTen num den e).1 / (scaledTen num den e).2 : ℕ) : ℚ) * 10 ^ e ≤ num / den ∧
      (num : ℚ) / den < ((scaledTen num den e).1 / (scaledTen num den e).2 + 1 : ℕ) * 10 ^ e := by
  have hunit := ten_zpow_pos e
  rw [← le_div_iff₀ hunit, ← div_lt_iff₀ hunit, ← scaledTen_eq, ← @Nat.floor_div_eq_div ℚ,
    Nat.cast_succ]
  exact ⟨Nat.floor_le (by positivity), Nat.lt_floor_add_one _⟩

/-! ## The magnitude -/

/-- A number of decimal places that a number with so many binary places has at least, by more than
one. -/
def fewPlaces (places : ℤ) : ℤ :=
  places * 30103 / 100000 - 2

theorem fewPlaces_range : ∀ k ∈ List.range 2201,
    tenTo (fewPlaces (k - 1100)).toNat * twoTo (-((k : ℤ) - 1100 - 1)).toNat ≤
      twoTo ((k : ℤ) - 1100 - 1).toNat * tenTo (-fewPlaces (k - 1100)).toNat := by
  decide +kernel

theorem zpow_eq_div {base : ℚ} (h : base ≠ 0) (e : ℤ) :
    base ^ e = base ^ (e.toNat : ℤ) / base ^ ((-e).toNat : ℤ) := by
  have hsplit : e = (e.toNat : ℤ) - (-e).toNat := by omega
  rw [← zpow_sub₀ h, ← hsplit]

theorem ten_zpow_fewPlaces_le {places : ℤ} (hlow : -1100 ≤ places) (hhigh : places ≤ 1100) :
    (10 : ℚ) ^ fewPlaces places ≤ 2 ^ (places - 1) := by
  have hk : ((places + 1100).toNat : ℤ) - 1100 = places := by omega
  have hrange := fewPlaces_range (places + 1100).toNat (List.mem_range.2 (by omega))
  rw [hk] at hrange
  rw [zpow_eq_div (by norm_num), zpow_eq_div two_ne_zero (places - 1),
    div_le_div_iff₀ (ten_zpow_pos _) (two_zpow_pos _), ← cast_tenTo, ← cast_tenTo, ← cast_twoTo,
    ← cast_twoTo]
  exact_mod_cast hrange

/-- The power of ten below the magnitude is no larger than the quotient. -/
theorem ten_zpow_magnitude_le {num den : ℕ} (hnum : num ≠ 0) (hden : den ≠ 0)
    (hlow : -1100 ≤ (num.log2 : ℤ) - den.log2) (hhigh : (num.log2 : ℤ) - den.log2 ≤ 1100) :
    (10 : ℚ) ^ (magnitude num den - 1) ≤ num / den := by
  have hpos := Nat.pos_of_ne_zero hden
  have hreached : ∀ p : ℤ, ¬ (scaledTen num den p).1 < (scaledTen num den p).2 →
      (10 : ℚ) ^ p ≤ num / den := by
    intro p hp
    rwa [scaledTen_lt_iff num hpos, not_lt] at hp
  have hguess :
      ((num.log2 : ℤ) - den.log2) * 30103 / 100000 - 1 = fewPlaces (num.log2 - den.log2) + 1 := by
    unfold fewPlaces
    omega
  unfold magnitude
  simp only [hguess, decide_eq_true_eq]
  generalize hfew : fewPlaces ((num.log2 : ℤ) - den.log2) = few
  split
  · rw [Int.add_sub_cancel, ← hfew]
    exact (ten_zpow_fewPlaces_le hlow hhigh).trans (quotient_log2 hnum hden).1.le
  · next hguess0 =>
    split
    · rw [Int.add_sub_cancel]
      exact hreached _ hguess0
    · next hguess1 =>
      split
      · have hstep : few + 1 + 2 - 1 = few + 1 + 1 := by omega
        rw [hstep]
        exact hreached _ hguess1
      · next hguess2 =>
        have hstep : few + 1 + 3 - 1 = few + 1 + 2 := by omega
        rw [hstep]
        exact hreached _ hguess2

/-! ## Reading back -/

variable {m : ℕ} {e : ℤ}

/-- A decimal number reads back as a double exactly if the double is the one next to it. -/
theorem readsBack_iff {bits : ℕ} (hpos : 0 < bits) (s : Scientific) :
    readsBack bits s = true ↔ s.mantissa ≠ 0 ∧ Nearest s.value bits := by
  rw [readsBack, beq_iff_eq]
  by_cases hm : s.mantissa = 0
  · have hzero : toFloat false s.mantissa s.exponent = ofBits false 0 := by
      rw [toFloat, hm]
      rfl
    rw [hzero, toBits_ofBits false (Nat.zero_le _), if_neg Bool.false_ne_true]
    exact iff_of_false hpos.ne fun h => h.1 hm
  · obtain ⟨found, hfound, hread⟩ := exists_nearest_toFloat hm s.exponent
    rw [hread, toBits_ofBits false hfound.le, if_neg Bool.false_ne_true]
    constructor
    · rintro rfl
      exact ⟨hm, hfound⟩
    · exact fun h => hfound.unique h.2

/-- What is chosen has been tried. -/
theorem readsBack_of_candidate? {num den bits : ℕ} {d : ℤ} {s : Scientific}
    (h : candidate? num den bits d = some s) : readsBack bits s = true := by
  unfold candidate? at h
  dsimp only at h
  split at h
  · next hlow hhigh =>
    cases h
    rcases roundQuotient_cases (scaledTen num den d).1
      (scaledTen num den d).2 with ⟨heq, -⟩ | ⟨heq, -⟩
    · rw [heq]
      exact hlow
    · rw [heq]
      exact hhigh
  · next hlow _ =>
    cases h
    exact hlow
  · next _ hhigh =>
    cases h
    exact hhigh
  · cases h

/-- If seventeen digits are counted, one of the two decimals around a double is read as the
double. -/
theorem candidate?_ne_none (h : Canonical m e) {num den : ℕ}
    (hvalue : (num : ℚ) / den = m * 2 ^ e) {d : ℤ} (hd : (10 : ℚ) ^ d * 10 ^ 16 ≤ m * 2 ^ e) :
    candidate? num den (place m e) d ≠ none := by
  have hunit := ten_zpow_pos d
  obtain ⟨q, hq⟩ : ∃ q, (scaledTen num den d).1 / (scaledTen num den d).2 = q := ⟨_, rfl⟩
  -- the double lies between the two decimals
  obtain ⟨hbelow, habove⟩ := scaledTen_div_bounds num den d
  rw [hvalue, hq] at hbelow habove
  have hq0 : q ≠ 0 := by
    rintro rfl
    rw [Nat.cast_succ, Nat.cast_zero, zero_add, one_mul] at habove
    linarith
  rw [Nat.cast_succ, add_mul, one_mul] at habove
  have hread : ∀ p : ℕ, p ≠ 0 → |(p : ℚ) * 10 ^ d - m * 2 ^ e| ≤ 10 ^ d / 2 →
      readsBack (place m e) ⟨p, d⟩ = true := by
    intro p hp hclose
    rw [readsBack_iff h.place_pos]
    refine ⟨hp, h.nearest_of_close (hclose.trans ?_)⟩
    rw [div_le_div_iff₀ two_pos (by norm_num)]
    linarith
  intro hnone
  unfold candidate? at hnone
  dsimp only at hnone
  rw [hq] at hnone
  rcases le_total (2 * ((m : ℚ) * 2 ^ e - q * 10 ^ d)) (10 ^ d) with hlow | hhigh
  · rw [hread q hq0 (by rw [abs_le]; constructor <;> linarith)] at hnone
    split at hnone <;> simp_all
  · rw [hread (q + 1) (Nat.succ_ne_zero q)
      (by rw [abs_le, Nat.cast_succ, add_mul, one_mul]; constructor <;> linarith)] at hnone
    split at hnone <;> simp_all

/-! ## Zeros at the end -/

theorem dropZeros_value (fuel : ℕ) (s : Scientific) : (dropZeros fuel s).value = s.value := by
  induction fuel generalizing s with
  | zero => rfl
  | succ fuel ih =>
    rw [dropZeros]
    split
    · next hzero =>
      rw [ih]
      rw [Bool.and_eq_true, beq_iff_eq] at hzero
      have hten : s.mantissa = s.mantissa / 10 * 10 :=
        (Nat.div_mul_cancel (Nat.dvd_of_mod_eq_zero hzero.1)).symm
      unfold Scientific.value
      dsimp only
      conv_rhs => rw [hten]
      rw [ten_zpow_add, Nat.cast_mul, zpow_one]
      push_cast
      ring
    · rfl

theorem dropZeros_ne_zero (fuel : ℕ) {s : Scientific} (h : s.mantissa ≠ 0) :
    (dropZeros fuel s).mantissa ≠ 0 := by
  induction fuel generalizing s with
  | zero => exact h
  | succ fuel ih =>
    rw [dropZeros]
    split
    · next hzero =>
      rw [Bool.and_eq_true, beq_iff_eq] at hzero
      exact ih (by dsimp only; omega)
    · exact h

/-! ## The shortest decimal -/

/-- The quotient of two natural numbers that a double is. -/
theorem exists_quotient (m : ℕ) (e : ℤ) : ∃ num den : ℕ,
    (if 0 ≤ e then (m * twoTo e.toNat, 1) else (m, twoTo (-e).toNat)) = (num, den) ∧
      (m ≠ 0 → num ≠ 0) ∧ 0 < den ∧ (num : ℚ) / den = m * 2 ^ e := by
  split
  · next h =>
    refine ⟨_, _, rfl, fun hm => Nat.mul_ne_zero hm (twoTo_pos _).ne', Nat.one_pos, ?_⟩
    rw [Nat.cast_mul, cast_twoTo_toNat h, Nat.cast_one, div_one]
  · next h =>
    refine ⟨_, _, rfl, id, twoTo_pos _, ?_⟩
    rw [cast_twoTo_toNat (by omega), zpow_neg, div_inv_eq_mul]

/-- The binary places of a finite double are in the range of doubles. -/
theorem log2_range (h : Canonical m e) {num den : ℕ} (hnum : num ≠ 0) (hden : den ≠ 0)
    (hvalue : (num : ℚ) / den = m * 2 ^ e) :
    -1100 ≤ (num.log2 : ℤ) - den.log2 ∧ (num.log2 : ℤ) - den.log2 ≤ 1100 := by
  obtain ⟨hlow, hhigh⟩ := quotient_log2 hnum hden
  rw [hvalue] at hlow hhigh
  have hunit := two_zpow_pos e
  have hone : (1 : ℚ) ≤ m := by exact_mod_cast h.positive
  have hleast : (2 : ℚ) ^ e ≤ m * 2 ^ e := le_mul_of_one_le_left hunit.le hone
  have hmost : (m : ℚ) * 2 ^ e ≤ 2 ^ (53 + e) := by
    rw [two_zpow_add]
    exact mul_le_mul_of_nonneg_right (by linarith [h.add_one_le]) hunit.le
  have hl := (zpow_lt_zpow_iff_right₀ (one_lt_two : (1 : ℚ) < 2)).1 (hlow.trans_le hmost)
  have hh := (zpow_lt_zpow_iff_right₀ (one_lt_two : (1 : ℚ) < 2)).1 (hleast.trans_lt hhigh)
  have hmin := h.least
  have hmax := h.most
  unfold minExponent at hmin
  omega

/-- The shortest decimal of a double is read as the double. -/
theorem shortest_reads_back (h : Canonical m e) :
    (shortest m e).mantissa ≠ 0 ∧ Nearest (shortest m e).value (place m e) := by
  obtain ⟨num, den, heq, hnum, hden, hvalue⟩ := exists_quotient m e
  replace hnum := hnum h.positive.ne'
  have hexact : Nearest (num / den) (place m e) := by
    refine h.nearest_of_close ?_
    rw [hvalue, sub_self, abs_zero]
    have := two_zpow_pos e
    positivity
  have hbits : nearestBits num den = place m e := (nearest_nearestBits hnum hden.ne').unique hexact
  unfold shortest
  rw [heq]
  dsimp only
  rw [hbits]
  cases hfound : (List.range 17).findSome? fun k =>
      candidate? num den (place m e) (magnitude num den - (k + 1 : ℕ)) with
  | none =>
    rw [List.findSome?_eq_none_iff] at hfound
    obtain ⟨hlow, hhigh⟩ := log2_range h hnum hden.ne' hvalue
    refine absurd (hfound 16 (by decide)) (candidate?_ne_none h hvalue ?_)
    rw [← hvalue]
    refine le_trans (le_of_eq ?_) (ten_zpow_magnitude_le hnum hden.ne' hlow hhigh)
    rw [← zpow_natCast (10 : ℚ) 16, ← ten_zpow_add]
    congr 1
    omega
  | some s =>
    obtain ⟨k, -, hk⟩ := List.exists_of_findSome?_eq_some hfound
    obtain ⟨hs, hnearest⟩ := (readsBack_iff h.place_pos s).1 (readsBack_of_candidate? hk)
    exact ⟨dropZeros_ne_zero 20 hs, by rwa [dropZeros_value]⟩

end Colloquy.Decimal
