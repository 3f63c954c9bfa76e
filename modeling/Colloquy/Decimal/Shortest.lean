import Colloquy.Decimal.Read

/-!
# Shortest decimal digits

Among the decimal numbers that read back as a given double, `shortest` picks one with the fewest
digits, and of those the one nearest to the double. For a number of digits only the two decimals
around the double have to be tried, so at most seventeen pairs are looked at.
-/

namespace Colloquy.Decimal

/-- A decimal number `m · 10 ^ e`. -/
structure Scientific where
  mantissa : Nat
  exponent : Int
  deriving DecidableEq, Repr

/-- The quotient `num / (den · 10 ^ e)` as a numerator and a denominator. -/
def scaledTen (num den : Nat) (e : Int) : Nat × Nat :=
  if 0 ≤ e then (num, den * tenTo e.toNat) else (num * tenTo (-e).toNat, den)

/-- The least `p` with `num / den < 10 ^ p`, for a positive quotient in the range of doubles. -/
def magnitude (num den : Nat) : Int :=
  let guess : Int := ((num.log2 : Int) - den.log2) * 30103 / 100000 - 1
  let below (p : Int) : Bool := let (n, d) := scaledTen num den p; n < d
  if below guess then guess
  else if below (guess + 1) then guess + 1
  else if below (guess + 2) then guess + 2
  else guess + 3

/-- Whether a decimal number reads back as the double with the given bits. -/
def readsBack (bits : Nat) (s : Scientific) : Bool :=
  (toFloat false s.mantissa s.exponent).toBits.toNat == bits

/-- Of the two decimals with exponent `e` around `num / den`, one that reads back as the double
with the given bits; if both do, the nearer one, and of two equally near the even one. -/
def candidate? (num den bits : Nat) (e : Int) : Option Scientific :=
  let (n, d) := scaledTen num den e
  let low : Scientific := ⟨n / d, e⟩
  let high : Scientific := ⟨n / d + 1, e⟩
  match readsBack bits low, readsBack bits high with
  | true, true => some ⟨Binary.roundQuotient n d, e⟩
  | true, false => some low
  | false, true => some high
  | false, false => none

/-- Moves the zeros at the end of the digits into the exponent. `fuel` bounds their number. -/
def dropZeros : Nat → Scientific → Scientific
  | 0, s => s
  | fuel + 1, s =>
    if s.mantissa % 10 == 0 && s.mantissa != 0 then
      dropZeros fuel ⟨s.mantissa / 10, s.exponent + 1⟩
    else s

/-- The shortest decimal number that reads back as the double `m · 2 ^ e`. -/
def shortest (m : Nat) (e : Int) : Scientific :=
  let (num, den) := if 0 ≤ e then (m * Binary.twoTo e.toNat, 1) else (m, Binary.twoTo (-e).toNat)
  let bits := Binary.nearestBits num den
  let top := magnitude num den
  let found := (List.range 17).findSome? fun k => candidate? num den bits (top - (k + 1 : Nat))
  dropZeros 20 (found.getD ⟨num, 0⟩)

end Colloquy.Decimal
