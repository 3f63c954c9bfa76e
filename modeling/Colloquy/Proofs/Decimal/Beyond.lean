import Colloquy.Decimal.Binary

/-!
# Integers beyond the doubles

The largest double is `2 ^ 1024 - 2 ^ 971`. An integer is rounded to a double unless its magnitude
is at least half a unit above that: then the nearest double is infinite (`ofInt?_eq_none_iff`).

For an integer with `l + 1` binary digits the exponent of the double is `l - 52`
(`exponentOf_one`), so the comparison with the bits of infinity depends on `l` alone unless `l` is
1023, and there on the quotient by `2 ^ 971`.
-/

namespace Colloquy.Binary

/-- An integer is nearer to infinity than to the largest double. -/
def Beyond (i : Int) : Prop :=
  twoTo 1024 - twoTo 970 ≤ i.natAbs

theorem twoTo_pos (n : Nat) : 0 < twoTo n :=
  Nat.pow_pos (by decide)

theorem twoTo_add (m n : Nat) : twoTo (m + n) = twoTo m * twoTo n :=
  Nat.pow_add 2 m n

theorem twoTo_succ (n : Nat) : twoTo (n + 1) = 2 * twoTo n := by
  rw [twoTo_add, Nat.mul_comm]
  rfl

theorem twoTo_le_twoTo {m n : Nat} (h : m ≤ n) : twoTo m ≤ twoTo n :=
  Nat.pow_le_pow_right (by decide) h

theorem twoTo_log2_le {n : Nat} (h : n ≠ 0) : twoTo n.log2 ≤ n :=
  Nat.log2_self_le h

theorem lt_twoTo_log2 (n : Nat) : n < twoTo (n.log2 + 1) :=
  Nat.lt_log2_self

/-- Rounding gives one of the two natural numbers next to a quotient, and the upper one exactly
from the middle on, where the middle goes to the even one. -/
theorem roundQuotient_cases (num den : Nat) :
    (roundQuotient num den = num / den ∧
        (2 * (num % den) < den ∨ 2 * (num % den) = den ∧ num / den % 2 = 0)) ∨
      (roundQuotient num den = num / den + 1 ∧
        (den < 2 * (num % den) ∨ 2 * (num % den) = den ∧ num / den % 2 = 1)) := by
  unfold roundQuotient
  dsimp only
  split
  · next hless => exact .inl ⟨rfl, .inl hless⟩
  · split
    · next hmore => exact .inr ⟨rfl, .inl hmore⟩
    · have hmiddle : 2 * (num % den) = den := by omega
      rcases Nat.mod_two_eq_zero_or_one (num / den) with heven | hodd
      · exact .inl ⟨by omega, .inr ⟨hmiddle, heven⟩⟩
      · exact .inr ⟨by omega, .inr ⟨hmiddle, hodd⟩⟩

theorem scaled_one_of_nonneg (n : Nat) {e : Int} (h : 0 ≤ e) :
    scaled n 1 e = (n, twoTo e.toNat) := by
  rw [scaled, if_pos h, Nat.one_mul]

theorem scaled_one_of_neg (n : Nat) {e : Int} (h : ¬ 0 ≤ e) :
    scaled n 1 e = (n * twoTo (-e).toNat, 1) := by
  rw [scaled, if_neg h]

/-- The exponent of an integer is given by the number of its binary digits. -/
theorem exponentOf_one {n : Nat} (h : n ≠ 0) : exponentOf n 1 = (n.log2 : Int) - 52 := by
  have hlog : Nat.log2 1 = 0 := by decide
  have hlow : (n.log2 : Int) - (Nat.log2 1 : Nat) - 53 = (n.log2 : Int) - 53 := by
    rw [hlog]
    omega
  have hquotient : ¬ (scaled n 1 ((n.log2 : Int) - 53)).1 / (scaled n 1 ((n.log2 : Int) - 53)).2 <
      twoTo 53 := by
    rw [Nat.not_lt]
    by_cases hsign : 0 ≤ (n.log2 : Int) - 53
    · have hexponent : 53 + ((n.log2 : Int) - 53).toNat = n.log2 := by omega
      rw [scaled_one_of_nonneg n hsign, Nat.le_div_iff_mul_le (twoTo_pos _), ← twoTo_add, hexponent]
      exact twoTo_log2_le h
    · rw [scaled_one_of_neg n hsign, Nat.div_one]
      calc
        twoTo 53 ≤ twoTo (n.log2 + (-((n.log2 : Int) - 53)).toNat) := twoTo_le_twoTo (by omega)
        _ = twoTo n.log2 * twoTo (-((n.log2 : Int) - 53)).toNat := twoTo_add _ _
        _ ≤ n * twoTo (-((n.log2 : Int) - 53)).toNat := Nat.mul_le_mul_right _ (twoTo_log2_le h)
  unfold exponentOf
  simp only [hlow]
  rw [if_neg hquotient]
  unfold minExponent
  omega

/-- The bits of the double nearest to an integer. -/
theorem nearestBits_one {n : Nat} (h : n ≠ 0) :
    nearestBits n 1 =
      min ((n.log2 + 1022) * twoTo 52 +
        roundQuotient (scaled n 1 ((n.log2 : Int) - 52)).1 (scaled n 1 ((n.log2 : Int) - 52)).2)
        infinityBits := by
  have hplace : ((n.log2 : Int) - 52 - minExponent).toNat = n.log2 + 1022 := by
    unfold minExponent
    omega
  unfold nearestBits
  rw [if_neg (by simpa using h)]
  simp only [exponentOf_one h, hplace]

/-- The quotient that is rounded has fifty-three binary digits. -/
theorem quotient_bounds {n : Nat} (h : n ≠ 0) :
    twoTo 52 ≤ (scaled n 1 ((n.log2 : Int) - 52)).1 / (scaled n 1 ((n.log2 : Int) - 52)).2 ∧
      (scaled n 1 ((n.log2 : Int) - 52)).1 / (scaled n 1 ((n.log2 : Int) - 52)).2 < twoTo 53 := by
  have hlow := twoTo_log2_le h
  have hhigh := lt_twoTo_log2 n
  by_cases hsign : 0 ≤ (n.log2 : Int) - 52
  · rw [scaled_one_of_nonneg n hsign]
    have hexponent : 52 + ((n.log2 : Int) - 52).toNat = n.log2 := by omega
    have hexponent' : 53 + ((n.log2 : Int) - 52).toNat = n.log2 + 1 := by omega
    constructor
    · rw [Nat.le_div_iff_mul_le (twoTo_pos _), ← twoTo_add, hexponent]
      exact hlow
    · rw [Nat.div_lt_iff_lt_mul (twoTo_pos _), ← twoTo_add, hexponent']
      exact hhigh
  · rw [scaled_one_of_neg n hsign, Nat.div_one]
    have hexponent : n.log2 + (-((n.log2 : Int) - 52)).toNat = 52 := by omega
    have hexponent' : n.log2 + 1 + (-((n.log2 : Int) - 52)).toNat = 53 := by omega
    rw [← hexponent, twoTo_add, ← hexponent', twoTo_add]
    exact ⟨Nat.mul_le_mul_right _ hlow, Nat.mul_lt_mul_of_pos_right hhigh (twoTo_pos _)⟩

/-- With 1024 binary digits, an integer is rounded up to the power of two above it from the middle
of the last interval on. -/
theorem roundQuotient_last {n : Nat} (h : n < twoTo 1024) :
    twoTo 53 ≤ roundQuotient n (twoTo 971) ↔ twoTo 1024 - twoTo 970 ≤ n := by
  have hunit : twoTo 971 = 2 * twoTo 970 := twoTo_succ 970
  have htop : twoTo 1024 = twoTo 971 * twoTo 53 := twoTo_add 971 53
  have heven : twoTo 53 = 2 * twoTo 52 := twoTo_succ 52
  have hpos := twoTo_pos 970
  have hsplit := Nat.div_add_mod n (twoTo 971)
  have hrest := Nat.mod_lt n (twoTo_pos 971)
  have hquotient : n / twoTo 971 < twoTo 53 := by
    rw [Nat.div_lt_iff_lt_mul (twoTo_pos _), Nat.mul_comm, ← htop]
    exact h
  by_cases hlast : n / twoTo 971 + 1 = twoTo 53
  · -- the quotient is the last one with fifty-three digits, which is odd
    have hmul : twoTo 971 * (n / twoTo 971) + twoTo 971 = twoTo 1024 := by
      rw [htop, ← hlast, Nat.mul_succ]
    have hcases := roundQuotient_cases n (twoTo 971)
    omega
  · have hmul : twoTo 971 * (n / twoTo 971 + 2) ≤ twoTo 1024 := by
      rw [htop]
      exact Nat.mul_le_mul_left _ (by omega)
    rw [Nat.mul_add] at hmul
    have hcases := roundQuotient_cases n (twoTo 971)
    omega

/-- Exactly the integers beyond the doubles have the bits of infinity. -/
theorem nearestBits_one_eq_infinityBits_iff (n : Nat) :
    nearestBits n 1 = infinityBits ↔ twoTo 1024 - twoTo 970 ≤ n := by
  have hinfinity : infinityBits = 2047 * twoTo 52 := rfl
  have hdigits : twoTo 53 = 2 * twoTo 52 := twoTo_succ 52
  have htop : twoTo 1024 = 2 * twoTo 1023 := twoTo_succ 1023
  have hunit : twoTo 970 < twoTo 1023 := by
    have hdouble : twoTo 971 = 2 * twoTo 970 := twoTo_succ 970
    have hle : twoTo 971 ≤ twoTo 1023 := twoTo_le_twoTo (by decide)
    have hpos := twoTo_pos 970
    omega
  have hpos := twoTo_pos 52
  by_cases hzero : n = 0
  · have hbits : nearestBits n 1 = 0 := by
      rw [hzero]
      rfl
    omega
  have hlow := twoTo_log2_le hzero
  have hhigh := lt_twoTo_log2 n
  obtain ⟨hleast, hmost⟩ := quotient_bounds hzero
  have hcases := roundQuotient_cases (scaled n 1 ((n.log2 : Int) - 52)).1
    (scaled n 1 ((n.log2 : Int) - 52)).2
  have hmin : ∀ a b : Nat, min a b = b ↔ b ≤ a := by omega
  rw [nearestBits_one hzero, hinfinity, hmin]
  rcases Nat.lt_trichotomy n.log2 1023 with hless | hlast | hmore
  · have hplace : (n.log2 + 1022) * twoTo 52 ≤ 2044 * twoTo 52 := Nat.mul_le_mul_right _ (by omega)
    have hsmall : twoTo (n.log2 + 1) ≤ twoTo 1023 := twoTo_le_twoTo (by omega)
    omega
  · have hexponent : ((n.log2 : Int) - 52).toNat = 971 := by omega
    have hbelow : n < twoTo 1024 := by
      rwa [hlast] at hhigh
    rw [scaled_one_of_nonneg n (by omega), hexponent, ← roundQuotient_last hbelow, hlast, hdigits]
    dsimp only
    omega
  · have hplace : 2046 * twoTo 52 ≤ (n.log2 + 1022) * twoTo 52 := Nat.mul_le_mul_right _ (by omega)
    have hlarge : twoTo 1024 ≤ twoTo n.log2 := twoTo_le_twoTo (by omega)
    omega

/-- An integer is rounded to a double exactly if it is not beyond them. -/
theorem ofInt?_eq_none_iff {i : Int} : ofInt? i = none ↔ Beyond i := by
  unfold ofInt? Beyond
  rw [← nearestBits_one_eq_infinityBits_iff]
  dsimp only
  split
  · next h => exact iff_of_true rfl (by simpa using h)
  · next h => exact iff_of_false (by simp) (by simpa using h)

end Colloquy.Binary
