import Colloquy.Proofs.Decimal.Beyond
import Mathlib.Algebra.Order.Field.Power
import Mathlib.Data.Rat.Cast.Order
import Mathlib.Tactic

/-!
# Rounding to the nearest double

The bits of the double next to a positive number are given by two things: the exponent of the
double (`IsExponent`) and the multiple of that power of two next to the number, ties to even
(`IsNext`). Each is unique, so the bits depend on the number alone and not on the quotient that
stands for it (`Nearest.unique`), and a quotient is rounded to them (`nearest_nearestBits`).

From the other side, a number is rounded to a given double as soon as it differs from it by a
small enough part of the double (`Canonical.nearest_of_close`). The part is the one that seventeen
decimal digits keep to.
-/

namespace Colloquy.Binary

/-! ## Powers of two -/

theorem cast_twoTo (n : ℕ) : (twoTo n : ℚ) = 2 ^ (n : ℤ) := by
  rw [zpow_natCast]
  exact Nat.cast_pow 2 n

theorem cast_twoTo_toNat {e : ℤ} (h : 0 ≤ e) : (twoTo e.toNat : ℚ) = 2 ^ e := by
  rw [cast_twoTo, Int.toNat_of_nonneg h]

theorem two_zpow_add (e d : ℤ) : (2 : ℚ) ^ (e + d) = 2 ^ e * 2 ^ d :=
  zpow_add₀ two_ne_zero e d

theorem two_zpow_pos (e : ℤ) : (0 : ℚ) < 2 ^ e :=
  zpow_pos two_pos e

theorem two_zpow_le {e d : ℤ} (h : e ≤ d) : (2 : ℚ) ^ e ≤ 2 ^ d :=
  zpow_le_zpow_right₀ one_le_two h

/-- A quotient is divided by a power of a base by scaling its denominator or its numerator. -/
theorem quotient_div_zpow {base : ℕ} (hbase : base ≠ 0) (num den : ℕ) (e : ℤ) {scaled : ℕ × ℕ}
    (h : scaled = if 0 ≤ e then (num, den * base ^ e.toNat) else (num * base ^ (-e).toNat, den)) :
    (scaled.1 : ℚ) / scaled.2 = num / den / base ^ e := by
  subst h
  split
  · next hsign =>
    have hpower : (base : ℚ) ^ e = base ^ e.toNat := by
      rw [← zpow_natCast, Int.toNat_of_nonneg hsign]
    rw [hpower, Nat.cast_mul, Nat.cast_pow, div_div]
  · next hsign =>
    have hpower : (base : ℚ) ^ e * base ^ (-e).toNat = 1 := by
      rw [← zpow_natCast, Int.toNat_of_nonneg (by omega), ← zpow_add₀ (by exact_mod_cast hbase),
        Int.add_right_neg, zpow_zero]
    rw [Nat.cast_mul, Nat.cast_pow, eq_div_iff (left_ne_zero_of_mul_eq_one hpower),
      div_mul_eq_mul_div, mul_assoc, mul_comm _ ((base : ℚ) ^ e), hpower, mul_one]

/-- A scaled quotient is the quotient by the power of two. -/
theorem scaled_eq (num den : ℕ) (e : ℤ) :
    ((scaled num den e).1 : ℚ) / (scaled num den e).2 = num / den / 2 ^ e :=
  quotient_div_zpow two_ne_zero num den e rfl

theorem scaled_pos (num : ℕ) {den : ℕ} (h : 0 < den) (e : ℤ) : 0 < (scaled num den e).2 := by
  unfold scaled
  split
  · exact Nat.mul_pos h (twoTo_pos _)
  · exact h

/-! ## The exponent -/

/-- The double next to a positive number `v` is a multiple of `2 ^ e`, and its leading digit is
the fifty-third one unless `e` is the smallest exponent. -/
structure IsExponent (v : ℚ) (e : ℤ) : Prop where
  least : minExponent ≤ e
  above : v < 2 ^ (e + 53)
  below : minExponent < e → 2 ^ (e + 52) ≤ v

theorem IsExponent.le {v : ℚ} {e d : ℤ} (he : IsExponent v e) (hd : IsExponent v d) : e ≤ d := by
  by_contra hlt
  have hlow : (2 : ℚ) ^ (e + 52) ≤ v := he.below (by have := hd.least; omega)
  have hhigh : (2 : ℚ) ^ (d + 53) ≤ 2 ^ (e + 52) := two_zpow_le (by omega)
  have := hd.above
  linarith

theorem IsExponent.unique {v : ℚ} {e d : ℤ} (he : IsExponent v e) (hd : IsExponent v d) : e = d :=
  Int.le_antisymm (he.le hd) (hd.le he)

/-- The quotient of two natural numbers lies within a factor of two of the quotient of their
leading binary digits. -/
theorem quotient_log2 {num den : ℕ} (hnum : num ≠ 0) (hden : den ≠ 0) :
    (2 : ℚ) ^ ((num.log2 : ℤ) - den.log2 - 1) < num / den ∧
      (num : ℚ) / den < 2 ^ ((num.log2 : ℤ) - den.log2 + 1) := by
  have hnumLow : (2 : ℚ) ^ (num.log2 : ℤ) ≤ num := by
    rw [← cast_twoTo]
    exact_mod_cast twoTo_log2_le hnum
  have hnumHigh : (num : ℚ) < 2 ^ ((num.log2 : ℤ) + 1) := by
    have := cast_twoTo (num.log2 + 1)
    push_cast at this
    rw [← this]
    exact_mod_cast lt_twoTo_log2 num
  have hdenLow : (2 : ℚ) ^ (den.log2 : ℤ) ≤ den := by
    rw [← cast_twoTo]
    exact_mod_cast twoTo_log2_le hden
  have hdenHigh : (den : ℚ) < 2 ^ ((den.log2 : ℤ) + 1) := by
    have := cast_twoTo (den.log2 + 1)
    push_cast at this
    rw [← this]
    exact_mod_cast lt_twoTo_log2 den
  have hpos : (0 : ℚ) < den := by exact_mod_cast Nat.pos_of_ne_zero hden
  constructor
  · rw [lt_div_iff₀ hpos]
    calc
      (2 : ℚ) ^ ((num.log2 : ℤ) - den.log2 - 1) * den
          < 2 ^ ((num.log2 : ℤ) - den.log2 - 1) * 2 ^ ((den.log2 : ℤ) + 1) :=
        mul_lt_mul_of_pos_left hdenHigh (two_zpow_pos _)
      _ = 2 ^ (num.log2 : ℤ) := by rw [← two_zpow_add]; congr 1; omega
      _ ≤ num := hnumLow
  · rw [div_lt_iff₀ hpos]
    calc
      (num : ℚ) < 2 ^ ((num.log2 : ℤ) + 1) := hnumHigh
      _ = 2 ^ ((num.log2 : ℤ) - den.log2 + 1) * 2 ^ (den.log2 : ℤ) := by
        rw [← two_zpow_add]; congr 1; omega
      _ ≤ 2 ^ ((num.log2 : ℤ) - den.log2 + 1) * den :=
        mul_le_mul_of_nonneg_left hdenLow (two_zpow_pos _).le

/-- The floor of a scaled quotient has at most fifty-three binary digits exactly if the quotient
has. -/
theorem scaled_div_lt_iff (num : ℕ) {den : ℕ} (hden : den ≠ 0) (e : ℤ) :
    (scaled num den e).1 / (scaled num den e).2 < twoTo 53 ↔ (num : ℚ) / den < 2 ^ (e + 53) := by
  have hpos := scaled_pos num (Nat.pos_of_ne_zero hden) e
  have hpos' : (0 : ℚ) < (scaled num den e).2 := by exact_mod_cast hpos
  rw [Nat.div_lt_iff_lt_mul hpos, ← @Nat.cast_lt ℚ, Nat.cast_mul, ← div_lt_iff₀ hpos', scaled_eq,
    div_lt_iff₀ (two_zpow_pos e), cast_twoTo, two_zpow_add, mul_comm]
  rfl

theorem isExponent_exponentOf {num den : ℕ} (hnum : num ≠ 0) (hden : den ≠ 0) :
    IsExponent (num / den) (exponentOf num den) := by
  obtain ⟨hlow, hhigh⟩ := quotient_log2 hnum hden
  -- before the smallest exponent is considered
  have hfree : ∃ e : ℤ, exponentOf num den = max minExponent e ∧
      (num : ℚ) / den < 2 ^ (e + 53) ∧ (2 : ℚ) ^ (e + 52) ≤ num / den := by
    by_cases hfew : (scaled num den ((num.log2 : ℤ) - den.log2 - 53)).1 /
        (scaled num den ((num.log2 : ℤ) - den.log2 - 53)).2 < twoTo 53
    · refine ⟨(num.log2 : ℤ) - den.log2 - 53, ?_, (scaled_div_lt_iff num hden _).1 hfew, ?_⟩
      · unfold exponentOf
        simp only [if_pos hfew]
      · have : (num.log2 : ℤ) - den.log2 - 53 + 52 = num.log2 - den.log2 - 1 := by omega
        rw [this]
        exact hlow.le
    · refine ⟨(num.log2 : ℤ) - den.log2 - 53 + 1, ?_, ?_, ?_⟩
      · unfold exponentOf
        simp only [if_neg hfew]
      · have : (num.log2 : ℤ) - den.log2 - 53 + 1 + 53 = num.log2 - den.log2 + 1 := by omega
        rw [this]
        exact hhigh
      · rw [scaled_div_lt_iff num hden, not_lt] at hfew
        have : (num.log2 : ℤ) - den.log2 - 53 + 1 + 52 = num.log2 - den.log2 - 53 + 53 := by omega
        rw [this]
        exact hfew
  obtain ⟨e, heq, habove, hbelow⟩ := hfree
  rw [heq]
  refine ⟨le_max_left _ _, habove.trans_le (two_zpow_le (by omega)), fun hlarge => ?_⟩
  have : max minExponent e = e := by omega
  rw [this]
  exact hbelow

/-! ## The multiple -/

/-- `q` is the natural number next to `w`, of two equally near ones the even one. -/
structure IsNext (w : ℚ) (q : ℕ) : Prop where
  low : 2 * (q : ℚ) - 1 ≤ 2 * w
  high : 2 * w ≤ 2 * q + 1
  tie : 2 * w = 2 * q - 1 ∨ 2 * w = 2 * q + 1 → q % 2 = 0

theorem IsNext.le {w : ℚ} {q p : ℕ} (hq : IsNext w q) (hp : IsNext w p) : q ≤ p := by
  by_contra hlt
  have hstep : (p : ℚ) + 1 ≤ q := by exact_mod_cast Nat.lt_of_not_le hlt
  have hlow := hq.low
  have hhigh := hp.high
  have hnext : (q : ℚ) = p + 1 := by linarith
  have hq' := hq.tie (.inl (by linarith))
  have hp' := hp.tie (.inr (by linarith))
  have : q = p + 1 := by exact_mod_cast hnext
  omega

theorem IsNext.unique {w : ℚ} {q p : ℕ} (hq : IsNext w q) (hp : IsNext w p) : q = p :=
  Nat.le_antisymm (hq.le hp) (hp.le hq)

theorem isNext_roundQuotient (num : ℕ) {den : ℕ} (hden : 0 < den) :
    IsNext (num / den) (roundQuotient num den) := by
  have hpos : (0 : ℚ) < den := by exact_mod_cast hden
  have hsplit : (num : ℚ) = den * (num / den : ℕ) + (num % den : ℕ) := by
    exact_mod_cast (Nat.div_add_mod num den).symm
  have hw : 2 * ((num : ℚ) / den) = 2 * (num / den : ℕ) + 2 * (num % den : ℕ) / den := by
    rw [hsplit]
    field_simp
  have hrest : (num % den : ℕ) < (den : ℚ) := by exact_mod_cast Nat.mod_lt num hden
  have hnonneg : (0 : ℚ) ≤ 2 * (num % den : ℕ) / den := by positivity
  rcases roundQuotient_cases num den with ⟨heq, hcase⟩ | ⟨heq, hcase⟩
  · rw [heq]
    have hle : 2 * ((num % den : ℕ) : ℚ) / den ≤ 1 := by
      rw [div_le_one hpos]
      rcases hcase with hless | ⟨hmiddle, -⟩
      · exact_mod_cast hless.le
      · exact_mod_cast hmiddle.le
    refine ⟨by linarith, by linarith, fun htie => ?_⟩
    rcases hcase with hless | ⟨-, heven⟩
    · have hlt : 2 * ((num % den : ℕ) : ℚ) / den < 1 := by
        rw [div_lt_one hpos]
        exact_mod_cast hless
      rcases htie with htie | htie <;> linarith
    · exact heven
  · have hnext : ((num / den + 1 : ℕ) : ℚ) = (num / den : ℕ) + 1 := Nat.cast_succ _
    rw [heq]
    have hge : 1 ≤ 2 * ((num % den : ℕ) : ℚ) / den := by
      rw [one_le_div hpos]
      rcases hcase with hmore | ⟨hmiddle, -⟩
      · exact_mod_cast hmore.le
      · exact_mod_cast hmiddle.ge
    have hlt : 2 * ((num % den : ℕ) : ℚ) / den < 2 := by
      rw [div_lt_iff₀ hpos]
      linarith
    refine ⟨by linarith, by linarith, fun htie => ?_⟩
    rcases hcase with hmore | ⟨-, hodd⟩
    · have hgt : 1 < 2 * ((num % den : ℕ) : ℚ) / den := by
        rw [one_lt_div hpos]
        exact_mod_cast hmore
      rcases htie with htie | htie <;> linarith
    · omega

/-! ## The bits -/

/-- The bits of `m · 2 ^ e` below the sign. With fifty-three binary digits the leading one adds
one to the exponent, and one digit more moves to the next exponent. -/
def place (m : ℕ) (e : ℤ) : ℕ :=
  (e - minExponent).toNat * twoTo 52 + m

/-- The double with the bits `bits` below the sign is the one next to the positive number `v`. -/
def Nearest (v : ℚ) (bits : ℕ) : Prop :=
  ∃ e q, IsExponent v e ∧ IsNext (v / 2 ^ e) q ∧ bits = min (place q e) infinityBits

theorem Nearest.unique {v : ℚ} {bits bits' : ℕ} (h : Nearest v bits) (h' : Nearest v bits') :
    bits = bits' := by
  obtain ⟨e, q, he, hq, rfl⟩ := h
  obtain ⟨d, p, hd, hp, rfl⟩ := h'
  obtain rfl := he.unique hd
  rw [hq.unique hp]

theorem Nearest.le {v : ℚ} {bits : ℕ} (h : Nearest v bits) : bits ≤ infinityBits := by
  obtain ⟨e, q, -, -, rfl⟩ := h
  exact min_le_right _ _

/-- A positive quotient is rounded to the double next to it. -/
theorem nearest_nearestBits {num den : ℕ} (hnum : num ≠ 0) (hden : den ≠ 0) :
    Nearest (num / den) (nearestBits num den) := by
  refine ⟨exponentOf num den,
    roundQuotient (scaled num den (exponentOf num den)).1 (scaled num den (exponentOf num den)).2,
    isExponent_exponentOf hnum hden, ?_, ?_⟩
  · rw [← scaled_eq]
    exact isNext_roundQuotient _ (scaled_pos num (Nat.pos_of_ne_zero hden) _)
  · unfold nearestBits
    rw [if_neg (by simpa using hnum)]
    rfl

/-- From the power of two above the doubles on, a number is rounded to infinity. -/
theorem nearest_infinityBits {v : ℚ} (hv : 2 ^ (1024 : ℤ) ≤ v) {bits : ℕ} (h : Nearest v bits) :
    bits = infinityBits := by
  obtain ⟨e, q, he, hq, rfl⟩ := h
  have hlarge : 972 ≤ e := by
    by_contra hsmall
    have hle : (2 : ℚ) ^ (e + 53) ≤ 2 ^ (1024 : ℤ) := two_zpow_le (by omega)
    have := he.above
    linarith
  have hplace : 2046 ≤ (e - minExponent).toNat := by
    unfold minExponent
    omega
  have hdigits : twoTo 52 ≤ q := by
    have hlow : (2 : ℚ) ^ (e + 52) ≤ v := he.below (by unfold minExponent; omega)
    have hw : (twoTo 52 : ℚ) ≤ v / 2 ^ e := by
      rw [le_div_iff₀ (two_zpow_pos e), cast_twoTo, mul_comm, ← two_zpow_add]
      exact hlow
    have := hq.high
    by_contra hfew
    have hfew' : (q : ℚ) + 1 ≤ twoTo 52 := by exact_mod_cast Nat.lt_of_not_le hfew
    linarith
  refine min_eq_right ?_
  calc
    infinityBits = 2046 * twoTo 52 + twoTo 52 := by decide
    _ ≤ place q e := Nat.add_le_add (Nat.mul_le_mul_right _ hplace) hdigits

/-- Below half the smallest double, a number is rounded to zero. -/
theorem nearest_zero {v : ℚ} (hv : v < 2 ^ (-1075 : ℤ)) {bits : ℕ} (h : Nearest v bits) :
    bits = 0 := by
  obtain ⟨e, q, he, hq, rfl⟩ := h
  have hleast : e = minExponent := by
    by_contra hmore
    have hlow : (2 : ℚ) ^ (e + 52) ≤ v := he.below (by have := he.least; omega)
    have hhigh : (2 : ℚ) ^ (-1075 : ℤ) ≤ 2 ^ (e + 52) :=
      two_zpow_le (by have := he.least; unfold minExponent at this; omega)
    linarith
  subst hleast
  have hhalf : v / 2 ^ minExponent < 1 / 2 := by
    rw [div_lt_iff₀ (two_zpow_pos _)]
    calc
      v < 2 ^ (-1075 : ℤ) := hv
      _ = 1 / 2 * 2 ^ minExponent := by
        have hsplit : (-1075 : ℤ) = -1 + minExponent := by decide
        rw [hsplit, two_zpow_add]
        norm_num
  have hq0 : q = 0 := by
    have := hq.low
    by_contra hsome
    have : (1 : ℚ) ≤ q := by exact_mod_cast Nat.one_le_iff_ne_zero.2 hsome
    linarith
  rw [hq0]
  decide

/-! ## Numbers close to a double -/

/-- `m · 2 ^ e` is a positive finite double. -/
structure Canonical (m : ℕ) (e : ℤ) : Prop where
  positive : 0 < m
  digits : m < twoTo 53
  least : minExponent ≤ e
  most : e ≤ 971
  leading : minExponent < e → twoTo 52 ≤ m

namespace Canonical

variable {m : ℕ} {e : ℤ}

theorem place_pos (h : Canonical m e) : 0 < place m e :=
  Nat.add_pos_right _ h.positive

theorem place_lt (h : Canonical m e) : place m e < infinityBits := by
  have hexponent : (e - minExponent).toNat ≤ 2045 := by
    have := h.most
    unfold minExponent
    omega
  calc
    place m e < 2045 * twoTo 52 + twoTo 53 :=
      Nat.add_lt_add_of_le_of_lt (Nat.mul_le_mul_right _ hexponent) h.digits
    _ = infinityBits := by decide

theorem add_one_le (h : Canonical m e) : (m : ℚ) + 1 ≤ 2 ^ (53 : ℤ) :=
  calc
    (m : ℚ) + 1 ≤ twoTo 53 := by exact_mod_cast h.digits
    _ = 2 ^ (53 : ℤ) := cast_twoTo 53

/-- A number less than half a unit of the last place away from a double is rounded to it, if it
has the exponent of the double. -/
theorem nearest_of_within (h : Canonical m e) {w : ℚ} (hlow : 2 * (m : ℚ) - 1 < 2 * w)
    (hhigh : 2 * w < 2 * m + 1) (hleading : minExponent < e → (2 : ℚ) ^ (52 : ℤ) ≤ w) :
    Nearest (w * 2 ^ e) (place m e) := by
  have hunit := two_zpow_pos e
  have hdigits := h.add_one_le
  refine ⟨e, m, ⟨h.least, ?_, fun hlarge => ?_⟩, ?_, (min_eq_left h.place_lt.le).symm⟩
  · rw [two_zpow_add, mul_comm]
    exact mul_lt_mul_of_pos_left (by linarith) hunit
  · rw [two_zpow_add, mul_comm]
    exact mul_le_mul_of_nonneg_right (hleading hlarge) hunit.le
  · rw [mul_div_cancel_right₀ w hunit.ne']
    refine ⟨hlow.le, hhigh.le, fun htie => ?_⟩
    rcases htie with htie | htie <;> linarith

/-- Below a power of two the unit of the last place is half as large, so a number less than a
quarter of a unit below the power is rounded to it. -/
theorem nearest_below_power (h : Canonical (twoTo 52) e) (hlarge : minExponent < e) {w : ℚ}
    (hlow : 2 ^ (53 : ℤ) - 1 / 2 < 2 * w) (hhigh : w < 2 ^ (52 : ℤ)) :
    Nearest (w * 2 ^ e) (place (twoTo 52) e) := by
  have hunit := two_zpow_pos e
  have hprevious : (2 : ℚ) ^ e = 2 ^ (e - 1) * 2 := by
    have := two_zpow_add (e - 1) 1
    rwa [Int.sub_add_cancel, zpow_one] at this
  have hplace : place (twoTo 52) e = place (twoTo 53) (e - 1) := by
    have hexponent : (e - minExponent).toNat = (e - 1 - minExponent).toNat + 1 := by omega
    unfold place
    rw [hexponent, Nat.succ_mul, Nat.add_assoc, twoTo_succ 52, Nat.two_mul]
  refine ⟨e - 1, twoTo 53, ⟨by omega, ?_, fun _ => ?_⟩, ?_, ?_⟩
  · have : e - 1 + 53 = e + 52 := by omega
    rw [this, two_zpow_add, mul_comm]
    exact mul_lt_mul_of_pos_left hhigh hunit
  · have : e - 1 + 52 = e + 51 := by omega
    rw [this, two_zpow_add, mul_comm]
    refine mul_le_mul_of_nonneg_right ?_ hunit.le
    norm_num at hlow ⊢
    linarith
  · have hdouble : w * 2 ^ e / 2 ^ (e - 1) = 2 * w := by
      rw [hprevious]
      field_simp
    rw [hdouble]
    refine ⟨?_, ?_, fun _ => by decide⟩
    · rw [cast_twoTo]
      push_cast
      linarith
    · rw [cast_twoTo]
      norm_num at hhigh ⊢
      linarith
  · rw [← hplace]
    exact (min_eq_left h.place_lt.le).symm

/-- A number that differs from a double by at most its `2 · 10 ^ 16`th part is rounded to it. -/
theorem nearest_of_close (h : Canonical m e) {v : ℚ}
    (hclose : |v - m * 2 ^ e| ≤ m * 2 ^ e / (2 * 10 ^ 16)) : Nearest v (place m e) := by
  have hunit := two_zpow_pos e
  have hdigits := h.add_one_le
  have hpositive : (1 : ℚ) ≤ m := by exact_mod_cast h.positive
  -- the difference in units of the last place
  obtain ⟨w, rfl⟩ : ∃ w : ℚ, v = w * 2 ^ e := ⟨v / 2 ^ e, by field_simp⟩
  have hw : |w - m| ≤ m / (2 * 10 ^ 16) := by
    rw [← sub_mul, abs_mul, abs_of_pos hunit, mul_div_right_comm] at hclose
    exact le_of_mul_le_mul_right hclose hunit
  obtain ⟨hlow, hhigh⟩ := abs_le.1 hw
  norm_num at hdigits
  by_cases hleading : minExponent < e → (2 : ℚ) ^ (52 : ℤ) ≤ w
  · exact h.nearest_of_within (by linarith) (by linarith) hleading
  · obtain ⟨hlarge, hless⟩ := Classical.not_imp.1 hleading
    -- only a power of two has a number of another exponent that close
    have hm : m = twoTo 52 := by
      refine Nat.le_antisymm (Nat.le_of_lt_succ ?_) (h.leading hlarge)
      have hm' : (m : ℚ) < twoTo 52 + 1 := by
        have hpower : (twoTo 52 : ℚ) = 4503599627370496 := by norm_num [cast_twoTo]
        rw [hpower]
        norm_num only at hless
        linarith
      exact_mod_cast hm'
    subst hm
    rw [cast_twoTo] at hlow
    refine h.nearest_below_power hlarge ?_ (not_le.1 hless)
    norm_num at hlow ⊢
    linarith

end Canonical

end Colloquy.Binary
