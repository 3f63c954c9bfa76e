/-!
# Values of variables

A variable holds one of seven kinds of values. Equality is that of the payloads: numbers as numbers,
vectors up to a small difference in each component.
-/

namespace Colloquy

/-- What a variable holds. -/
inductive Value where
  | bool (value : Bool)
  | int (value : Int)
  | float (value : Float)
  | vec2 (x y : Float)
  | vec3 (x y z : Float)
  | color (red green blue alpha : UInt8)
  | text (value : String)
  deriving Inhabited

namespace Value

/-- The kinds of values. -/
inductive Kind where
  | bool
  | int
  | float
  | vec2
  | vec3
  | color
  | text
  deriving DecidableEq, Repr

/-- All kinds, in the order in which messages list them. -/
def Kind.all : List Kind :=
  [.bool, .int, .float, .vec2, .vec3, .color, .text]

/-- The name of a kind in files. -/
def Kind.name : Kind → String
  | .bool => "bool"
  | .int => "int"
  | .float => "float"
  | .vec2 => "vec2"
  | .vec3 => "vec3"
  | .color => "color"
  | .text => "string"

/-- The kind with a name. -/
def Kind.ofName? (name : String) : Option Kind :=
  Kind.all.find? (·.name == name)

theorem Kind.ofName?_name (kind : Kind) : Kind.ofName? kind.name = some kind := by
  cases kind <;> decide

/-- The kind of a value. -/
def kind : Value → Kind
  | .bool _ => .bool
  | .int _ => .int
  | .float _ => .float
  | .vec2 .. => .vec2
  | .vec3 .. => .vec3
  | .color .. => .color
  | .text _ => .text

/-! ## Equality -/

/-- The components of vectors that differ by this much or more are different. -/
def tolerance : Float := Float.ofScientific 1 true 6

/-- Whether two components differ by less than the tolerance. -/
def near (x y : Float) : Bool :=
  -tolerance < x - y && x - y < tolerance

/-- Equality of values. Not a number equals nothing. -/
def equal : Value → Value → Bool
  | .bool a, .bool b => a == b
  | .int a, .int b => a == b
  | .float a, .float b => a == b
  | .vec2 x y, .vec2 x' y' => near x x' && near y y'
  | .vec3 x y z, .vec3 x' y' z' => near x x' && near y y' && near z z'
  | .color r g b a, .color r' g' b' a' => r == r' && g == g' && b == b' && a == a'
  | .text s, .text s' => s == s'
  | _, _ => false

/-- Equality of a value with one made from it: a float that was handed on unchanged equals itself
even if it is not a number. -/
def equalCopy : Value → Value → Bool
  | .float a, .float b => a.toBits == b.toBits || a == b
  | a, b => equal a b

/-- Whether two values have the same key in a set. Vectors have the same key only if their
components are the same numbers. -/
def sameKey : Value → Value → Bool
  | .vec2 x y, .vec2 x' y' => x == x' && y == y'
  | .vec3 x y z, .vec3 x' y' z' => x == x' && y == y' && z == z'
  | a, b => equal a b

/-- The number of elements of a set into which values are put one after the other. A value is left
out if an element has its key and equals it. -/
def countDistinct (values : List Value) : Nat :=
  (values.foldl
    (fun kept value =>
      if kept.any fun element => sameKey element value && equal element value then kept
      else kept ++ [value])
    []).length

end Value

/-- What a host may offer as a value. Kinds that no variable can hold are told apart by name
only. -/
inductive Offer where
  | value (value : Value)
  | nothing
  | list
  | mapping
  | tuple
  | bytes
  deriving Inhabited

/-- The refusal of an offer that no variable can hold. -/
structure Unsupported where
  typeName : String
  deriving DecidableEq, Repr

/-- The refusal in words. -/
def Unsupported.message (refusal : Unsupported) : String :=
  "Unsupported variable type: " ++ refusal.typeName

/-- The value of an offer. -/
def Offer.take : Offer → Except Unsupported Value
  | .value v => .ok v
  | .nothing => .error ⟨"NoneType"⟩
  | .list => .error ⟨"list"⟩
  | .mapping => .error ⟨"dict"⟩
  | .tuple => .error ⟨"tuple"⟩
  | .bytes => .error ⟨"bytes"⟩

end Colloquy
