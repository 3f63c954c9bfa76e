/-!
# Binary floating point

A finite double stands for `± m · 2 ^ e` with natural `m` and integer `e`. This module takes a
double apart, and rounds an exact quotient of natural numbers to the nearest double, halves to the
even one.
-/

namespace Colloquy.Binary

/-- The number that a double stands for. -/
inductive View where
  | finite (negative : Bool) (mantissa : Nat) (exponent : Int)
  | infinite (negative : Bool)
  | nan
  deriving DecidableEq, Repr

/-- A power of two. -/
def twoTo (n : Nat) : Nat :=
  Nat.pow 2 n

/-- The exponent of the smallest positive double. -/
def minExponent : Int := -1074

/-- Takes a double apart. -/
def view (x : Float) : View :=
  let bits := x.toBits.toNat
  let negative := decide (twoTo 63 ≤ bits)
  let exponent : Nat := bits / twoTo 52 % 2048
  let fraction := bits % twoTo 52
  if exponent == 2047 then
    if fraction == 0 then .infinite negative else .nan
  else if exponent == 0 then .finite negative fraction minExponent
  else .finite negative (twoTo 52 + fraction) ((exponent : Int) - 1075)

/-- The quotient of two natural numbers rounded to the nearest one, halves to the even one. -/
def roundQuotient (num den : Nat) : Nat :=
  let q := num / den
  let r := num % den
  if 2 * r < den then q
  else if den < 2 * r then q + 1
  else q + q % 2

/-- The quotient `num / (den · 2 ^ e)` as a numerator and a denominator. -/
def scaled (num den : Nat) (e : Int) : Nat × Nat :=
  if 0 ≤ e then (num, den * twoTo e.toNat) else (num * twoTo (-e).toNat, den)

/-- The exponent `e` that the double next to `num / den` has: the one for which
`num / (den · 2 ^ e)` has fifty-three binary digits, unless that is below the smallest exponent. -/
def exponentOf (num den : Nat) : Int :=
  let low : Int := (num.log2 : Int) - den.log2 - 53
  let (n, d) := scaled num den low
  max minExponent (if n / d < twoTo 53 then low else low + 1)

/-- The bits of infinity. -/
def infinityBits : Nat := 2047 * twoTo 52

/-- The bits of the double nearest to `num / den`, halves to the even one. A quotient beyond the
largest double gives the bits of infinity. -/
def nearestBits (num den : Nat) : Nat :=
  if num == 0 then 0
  else
    let e := exponentOf num den
    let (n, d) := scaled num den e
    min ((e - minExponent).toNat * twoTo 52 + roundQuotient n d) infinityBits

/-- The bits of what is not a number. -/
def nanBits : Nat := infinityBits + twoTo 51

/-- The double with the given bits below the sign. -/
def ofBits (negative : Bool) (bits : Nat) : Float :=
  Float.ofBits (UInt64.ofNat (if negative then twoTo 63 + bits else bits))

/-- The double nearest to an integer, unless that is infinite. -/
def ofInt? (i : Int) : Option Float :=
  let bits := nearestBits i.natAbs 1
  if bits == infinityBits then none else some (ofBits (i < 0) bits)

/-- The integer that a double stands for, if it stands for one. -/
def toInt? (x : Float) : Option Int :=
  match view x with
  | .finite negative m e =>
    let magnitude? :=
      if 0 ≤ e then some (m * twoTo e.toNat)
      else if m % twoTo (-e).toNat == 0 then some (m / twoTo (-e).toNat)
      else none
    magnitude?.map fun n => if negative then -(n : Int) else n
  | _ => none

/-- The integer that is left of a finite double when its fraction is cut off. -/
def wholePart? (x : Float) : Option Int :=
  match view x with
  | .finite negative m e =>
    let magnitude := if 0 ≤ e then m * twoTo e.toNat else m / twoTo (-e).toNat
    some (if negative then -(magnitude : Int) else magnitude)
  | _ => none

/-- Whether a double is finite. -/
def isFinite (x : Float) : Bool :=
  match view x with
  | .finite .. => true
  | _ => false

end Colloquy.Binary
