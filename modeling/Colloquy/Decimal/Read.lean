import Colloquy.Chars.Classes
import Colloquy.Decimal.Binary

/-!
# Reading decimal numbers

Integers and decimal fractions as people write them: blanks around the number, a sign, decimal
digits of any script, single underscores between digits, and for fractions a point and an
exponent. An integer of more than 4300 digits is refused.
-/

namespace Colloquy.Decimal

open Chars

/-- The most digits that an integer may have. -/
def maxDigits : Nat := 4300

/-- Why a text is no integer. -/
inductive IntFailure where
  | malformed
  | tooLong (digits : Nat)
  deriving DecidableEq, Repr

/-- Says that an integer has too many digits. -/
def tooLongMessage (digits : Nat) : String :=
  s!"Exceeds the limit ({maxDigits} digits) for integer string conversion: value has " ++
    s!"{digits} digits; use sys.set_int_max_str_digits() to increase the limit"

/-- A blank that may surround a number. The four information separators may not. -/
def isOuterBlank (c : Char) : Bool :=
  isBlank c && ! (0x1C ≤ c.toNat && c.toNat < 0x20)

/-- Drops the blanks around a number. -/
def trimNumber (cs : List Char) : List Char :=
  ((cs.dropWhile isOuterBlank).reverse.dropWhile isOuterBlank).reverse

/-- The digits at the start of a text, after at least one digit has been read, and the rest. An
underscore may stand between two digits. -/
def moreDigits : List Char → List Nat × List Char
  | '_' :: c :: cs =>
    match digitValue? c with
    | some d => let (ds, rest) := moreDigits cs; (d :: ds, rest)
    | none => ([], '_' :: c :: cs)
  | c :: cs =>
    match digitValue? c with
    | some d => let (ds, rest) := moreDigits cs; (d :: ds, rest)
    | none => ([], c :: cs)
  | [] => ([], [])

/-- The digits at the start of a text, and the rest. -/
def digits : List Char → List Nat × List Char
  | c :: cs =>
    match digitValue? c with
    | some d => let (ds, rest) := moreDigits cs; (d :: ds, rest)
    | none => ([], c :: cs)
  | [] => ([], [])

/-- The number that decimal digits stand for. -/
def ofDigits (ds : List Nat) : Nat :=
  ds.foldl (fun n d => n * 10 + d) 0

/-- Whether a number is negative, and what follows its sign. -/
def sign : List Char → Bool × List Char
  | '-' :: cs => (true, cs)
  | '+' :: cs => (false, cs)
  | cs => (false, cs)

/-- The integer with the given sign and magnitude. -/
def signed (negative : Bool) (n : Nat) : Int :=
  if negative then -(n : Int) else n

/-- The integer that a text stands for. Too many digits are found out before what follows them,
unless an underscore follows. -/
def readInt (cs : List Char) : Except IntFailure Int :=
  let (negative, cs) := sign (trimNumber cs)
  match digits cs with
  | ([], _) => .error .malformed
  | (ds, rest) =>
    if maxDigits < ds.length && rest.head? != some '_' then .error (.tooLong ds.length)
    else if rest.isEmpty then .ok (signed negative (ofDigits ds))
    else .error .malformed

/-- A power of ten. -/
def tenTo (n : Nat) : Nat :=
  Nat.pow 10 n

/-- The double nearest to `± m · 10 ^ e`, which may be infinite. -/
def toFloat (negative : Bool) (m : Nat) (e : Int) : Float :=
  Binary.ofBits negative <|
    if m == 0 then 0
    else if 400 < e then Binary.infinityBits
    else if e < -400 - (m.log2 + 1 : Nat) then 0
    else if 0 ≤ e then Binary.nearestBits (m * tenTo e.toNat) 1
    else Binary.nearestBits m (tenTo (-e).toNat)

/-- The exponent that ends a text, if it is one; no exponent is the exponent zero. -/
def exponent? : List Char → Option Int
  | [] => some 0
  | c :: cs =>
    if c == 'e' || c == 'E' then
      let (negative, cs) := sign cs
      match digits cs with
      | ([], _) => none
      | (ds, []) => some (signed negative (ofDigits ds))
      | _ => none
    else none

/-- The decimal fraction that a text stands for: its sign, its digits as a natural number, and the
power of ten that they count. -/
def readFraction? (cs : List Char) : Option (Bool × Nat × Int) := do
  let (negative, cs) := sign (trimNumber cs)
  let (whole, cs) := digits cs
  let (part, cs) :=
    match cs with
    | '.' :: cs => digits cs
    | cs => ([], cs)
  if whole.isEmpty && part.isEmpty then none
  let e ← exponent? cs
  return (negative, ofDigits (whole ++ part), e - part.length)

/-- The finite double that a text stands for. Words for infinity and for no number are none, and
neither is a number beyond the largest double. -/
def readFloat? (cs : List Char) : Option Float := do
  let (negative, m, e) ← readFraction? cs
  let x := toFloat negative m e
  if Binary.isFinite x then some x else none

/-- The bits of the double that a word stands for. Capital letters count as small ones. -/
def wordBits? (cs : List Char) : Option Nat :=
  let word := cs.map Char.toLower
  if word = "inf".toList || word = "infinity".toList then some Binary.infinityBits
  else if word = "nan".toList then some Binary.nanBits
  else none

/-- The double that a text stands for. It may be infinite or not a number, also by a word. -/
def readDouble? (cs : List Char) : Option Float :=
  match readFraction? cs with
  | some (negative, m, e) => some (toFloat negative m e)
  | none =>
    let (negative, cs) := sign (trimNumber cs)
    (wordBits? cs).map (Binary.ofBits negative)

end Colloquy.Decimal
