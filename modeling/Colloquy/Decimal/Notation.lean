import Colloquy.Decimal.Shortest

/-!
# The notation of numbers

How a double is written: with the fewest digits that read back, positionally when its leading
digit stands between the fourth place after the point and the sixteenth before it, otherwise with
an exponent of at least two digits. A positional number always has a digit after the point.
-/

namespace Colloquy.Decimal

/-- The decimal digits of a natural number. -/
def natText (n : Nat) : List Char :=
  Nat.toDigits 10 n

/-- The decimal digits of an integer, after a minus sign if it is negative. There is no limit to
their number here, though an interpreter may have one (`maxDigits`) for writing as well as for
reading. -/
def intText (i : Int) : String :=
  String.ofList (if i < 0 then '-' :: natText i.natAbs else natText i.natAbs)

/-- An exponent: a sign and at least two digits. -/
def exponentText (e : Int) : List Char :=
  let ds := natText e.natAbs
  (if e < 0 then '-' else '+') :: (if ds.length < 2 then '0' :: ds else ds)

/-- The text of a positive decimal number. -/
def scientificText (s : Scientific) : List Char :=
  let ds := natText s.mantissa
  let point : Int := ds.length + s.exponent
  if -4 < point && point ≤ 16 then
    if point ≤ 0 then
      '0' :: '.' :: List.replicate (-point).toNat '0' ++ ds
    else if (ds.length : Int) ≤ point then
      ds ++ List.replicate (point - ds.length).toNat '0' ++ ['.', '0']
    else ds.take point.toNat ++ '.' :: ds.drop point.toNat
  else
    let tail := ds.drop 1
    ds.take 1 ++ (if tail.isEmpty then [] else '.' :: tail) ++ 'e' :: exponentText (point - 1)

/-- The text of a double. -/
def floatText (x : Float) : String :=
  match Binary.view x with
  | .nan => "nan"
  | .infinite negative => if negative then "-inf" else "inf"
  | .finite negative m e =>
    let body := if m == 0 then ['0', '.', '0'] else scientificText (shortest m e)
    String.ofList (if negative then '-' :: body else body)

/-- The text of a double for display: a whole number is shown without point and exponent. -/
def displayText (x : Float) : String :=
  match Binary.toInt? x with
  | some i => intText i
  | none => floatText x

end Colloquy.Decimal
