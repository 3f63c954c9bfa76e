import Colloquy.Chars.Split
import Colloquy.Decimal.Notation
import Colloquy.Decimal.Read
import Colloquy.Value.Basic

/-!
# Values and text

A reference to a variable shows its value as a text. Truth values are shown as words, whole
numbers without a point, and vectors and colours as lists of their components. Integers of any
length are shown: that an interpreter may refuse to write out one of more digits than it would
read (`Decimal.maxDigits`) is left out.

A script writes values without marking their kind. What reads as an integer is an integer, what
reads as a finite decimal fraction is a float, and everything else is a text.
-/

namespace Colloquy.Value

/-! ## Showing -/

/-- A list of numbers between round brackets. -/
def tuple (parts : List String) : String :=
  "(" ++ ", ".intercalate parts ++ ")"

/-- The text that a reference to the value shows. -/
def display : Value → String
  | .bool true => "True"
  | .bool false => "False"
  | .int i => Decimal.intText i
  | .float x => Decimal.displayText x
  | .vec2 x y => tuple ([x, y].map Decimal.displayText)
  | .vec3 x y z => tuple ([x, y, z].map Decimal.displayText)
  | .color r g b a => tuple ([r, g, b, a].map fun part => Nat.repr part.toNat)
  | .text s => s

/-! ## Reading -/

/-- The value that a trimmed text stands for. -/
def ofContent (content : List Char) : Value :=
  match Decimal.readInt content with
  | .ok i => .int i
  | .error _ =>
    match Decimal.readFloat? content with
    | some x => .float x
    | none => .text (String.ofList content)

/-- The value that a text stands for. -/
def parse (text : String) : Value :=
  ofContent (Chars.trim text.toList)

end Colloquy.Value
