import Colloquy.Chars.Quoted
import Colloquy.Chars.Split
import Colloquy.Decimal.Read
import Colloquy.Value.Basic

/-!
# Vectors and colours from other data

A vector is made from nothing, from one number for all components, from one number for each, from
a list of them, or from its text, as in `<Vector2(0.5, 1)>`. A colour is made from three or four
parts, from a list of them, from the number whose bytes they are, or from a text such as
`#ff8000`. Truth values count as numbers, vectors as the lists of their components, and colours as
the numbers of their bytes.

A colour may also be called by its name. Which names there are is up to the library of colours: it
is a parameter of all that makes colours.
-/

namespace Colloquy.Value

/-- What a vector or a colour can be made from, and other data. -/
inductive Source where
  | int (value : Int)
  | float (value : Float)
  | text (value : String)
  | list (items : List Source)
  | other
  deriving Inhabited

/-- Why no value of a kind can be made from some data. -/
inductive Misfit where
  /-- There are more arguments than the kind has components. -/
  | tooMany (kind : Kind) (count : Nat)
  | noColor
  | vector (kind : Kind)
  /-- A component in the text of a vector is no number. -/
  | component (number : String)
  | color
  /-- A colour cannot be made from data of this type. -/
  | colorSource
  | colorName
  /-- An integer is beyond the doubles. -/
  | overflow
  /-- An argument that makes a component of a vector is beyond the doubles. -/
  | componentOverflow (kind : Kind)
  deriving DecidableEq, Repr

/-- The classes of defects: data of a wrong type, data with a wrong content, a missing entry, a
number out of range, a failure that is found only after the fact. -/
inductive Defect.Class where
  | type
  | content
  | missing
  | range
  | belated
  deriving DecidableEq, Repr

/-- The class of a misfit. -/
def Misfit.class : Misfit → Defect.Class
  | .tooMany .. => .type
  | .noColor => .type
  | .vector _ => .content
  | .component _ => .content
  | .color => .content
  | .colorSource => .type
  | .colorName => .content
  | .overflow => .range
  | .componentOverflow _ => .belated

/-- The number of components of a vector or a colour. -/
def Kind.arity : Kind → Nat
  | .vec2 => 2
  | .vec3 => 3
  | .color => 4
  | _ => 1

/-- The name of a kind in messages about components. -/
def Kind.label : Kind → String
  | .vec2 => "Vector2"
  | .vec3 => "Vector3"
  | _ => "Color"

/-- The family that those messages name with it. -/
def Kind.family : Kind → String
  | .color => "pygame.color"
  | _ => "pygame.math"

/-- A misfit in words. -/
def Misfit.message : Misfit → String
  | .tooMany .color count => s!"function takes at most 4 arguments ({count} given)"
  | .tooMany kind count =>
    s!"{kind.label}() takes at most {kind.arity} arguments ({count} given)"
  | .noColor => "function takes at least 1 argument (0 given)"
  | .vector kind =>
    s!"{kind.label} must be set with {kind.arity} real numbers, a sequence of " ++
      s!"{kind.arity} real numbers, or another {kind.label} instance"
  | .component number => "could not convert string to float: " ++ quote number
  | .color => "invalid color argument"
  | .colorSource => "invalid color argument"
  | .colorName => "invalid color name"
  | .overflow => "int too large to convert to float"
  | .componentOverflow kind =>
    s!"<class '{kind.family}.{kind.label}'> returned a result with an exception set"

/-! ## Vectors -/

/-- Whether a source is a number. -/
def Source.isNumber : Source → Bool
  | .int _ => true
  | .float _ => true
  | _ => false

/-- The double that a number is, unless it is too large for one. -/
def Source.toFloat? : Source → Option Float
  | .int i => Binary.ofInt? i
  | .float x => some x
  | _ => none

/-- The numbers that a text holds, each before the next mark. -/
def numbersBefore (kind : Kind) : List (List Char) → List Char → Except Misfit (List Float)
  | [], _ => .ok []
  | mark :: marks, cs =>
    match Chars.cutAtFirst? mark cs with
    | none => .error (.vector kind)
    | some (number, rest) =>
      match Decimal.readDouble? number with
      | none => .error (.component (String.ofList number))
      | some x => (numbersBefore kind marks rest).map (x :: ·)

/-- The components in the text of a vector. Anything may stand around that. -/
def readComponents (kind : Kind) (text : String) : Except Misfit (List Float) :=
  match Chars.cutAtFirst? s!"<{kind.label}(".toList text.toList with
  | none => .error (.vector kind)
  | some (_, rest) =>
    numbersBefore kind (List.replicate (kind.arity - 1) [',', ' '] ++ [[')', '>']]) rest

/-- The components of the vector that some arguments make. A list or a text is enough; what
follows it is left alone. -/
def components (kind : Kind) : List Source → Except Misfit (List Float)
  | [] => .ok (List.replicate kind.arity 0)
  | .list items :: _ =>
    if items.length = kind.arity && items.all Source.isNumber then
      match items.mapM Source.toFloat? with
      | some xs => .ok xs
      | none => .error .overflow
    else .error (.vector kind)
  | .text s :: _ => readComponents kind s
  | arguments =>
    if arguments.all Source.isNumber && (arguments.length = 1 || arguments.length = kind.arity) then
      match arguments.mapM Source.toFloat? with
      | some [x] => .ok (List.replicate kind.arity x)
      | some xs => .ok xs
      | none => .error (.componentOverflow kind)
    else .error (.vector kind)

/-- The vector with the given components. -/
def ofComponents? : List Float → Option Value
  | [x, y] => some (.vec2 x y)
  | [x, y, z] => some (.vec3 x y z)
  | _ => none

/-- The vector of a kind that some arguments make. -/
def makeVector (kind : Kind) (arguments : List Source) : Except Misfit Value := do
  if kind.arity < arguments.length then .error (.tooMany kind arguments.length)
  else
    match ofComponents? (← components kind arguments) with
    | some value => .ok value
    | none => .error (.vector kind)

/-! ## Colours -/

/-- A part of a colour that is given by itself. -/
def Source.channel? : Source → Option UInt8
  | .int i => if 0 ≤ i && i ≤ 255 then some (UInt8.ofNat i.toNat) else none
  | _ => none

/-- A part of a colour that stands in a list. It may be a fraction, which is cut off, and of a
number of up to sixty-four bits only the lower half counts. -/
def Source.listedChannel? (source : Source) : Option UInt8 := do
  let i ← match source with
    | .int i => some i
    | .float x => Binary.wholePart? x
    | _ => none
  if 0 ≤ i && i < Binary.twoTo 64 then channel? (.int (i % Binary.twoTo 32)) else none

/-- The colour with three or four parts; without the fourth it is opaque. -/
def ofChannels? : List UInt8 → Option Value
  | [r, g, b] => some (.color r g b 255)
  | [r, g, b, a] => some (.color r g b a)
  | _ => none

/-- The number whose four bytes are the parts of a colour. -/
def packed (red green blue alpha : UInt8) : Nat :=
  ((red.toNat * 256 + green.toNat) * 256 + blue.toNat) * 256 + alpha.toNat

/-- The colour whose parts are the four bytes of a number. -/
def ofPacked? (i : Int) : Option Value :=
  if 0 ≤ i && i < Binary.twoTo 32 then
    let n := i.toNat
    some (.color (UInt8.ofNat (n / Binary.twoTo 24)) (UInt8.ofNat (n / Binary.twoTo 16 % 256))
      (UInt8.ofNat (n / Binary.twoTo 8 % 256)) (UInt8.ofNat (n % 256)))
  else none

/-- The bytes that pairs of digits in base sixteen stand for. -/
def hexBytes? : List Char → Option (List UInt8)
  | [] => some []
  | [_] => none
  | a :: b :: cs => do
    let a ← Chars.hexValue? a
    let b ← Chars.hexValue? b
    let rest ← hexBytes? cs
    return UInt8.ofNat (a * 16 + b) :: rest

/-- The colour that a text such as `#ff8000` or `0xff8000ff` stands for. -/
def ofHexName? (name : List Char) : Option Value :=
  let digits? :=
    match name with
    | '#' :: cs => some cs
    | '0' :: 'x' :: cs => some cs
    | _ => none
  (digits?.bind hexBytes?).bind ofChannels?

/-- The names of colours: red, green, blue and alpha for each. -/
structure Palette where
  parts? : String → Option (UInt8 × UInt8 × UInt8 × UInt8)

/-- No names. -/
def Palette.none : Palette :=
  ⟨fun _ => Option.none⟩

/-- The colour that a text stands for, which is its name or its digits. -/
def ofColorName? (palette : Palette) (name : String) : Option Value :=
  match palette.parts? name with
  | some (red, green, blue, alpha) => some (.color red green blue alpha)
  | none => ofHexName? name.toList

/-- The colour that a value stands for, or the misfit otherwise. -/
def colorOr (misfit : Misfit) : Option Value → Except Misfit Value
  | some value => .ok value
  | none => .error misfit

/-- The colour that some arguments make. -/
def makeColor (palette : Palette) : List Source → Except Misfit Value
  | [] => .error .noColor
  | [.text name] => colorOr .colorName (ofColorName? palette name)
  | [.int i] => colorOr .color (ofPacked? i)
  | [.list items] => colorOr .color ((items.mapM Source.listedChannel?).bind ofChannels?)
  | [_] => .error .colorSource
  | arguments =>
    if 4 < arguments.length then .error (.tooMany .color arguments.length)
    else colorOr .color ((arguments.mapM Source.channel?).bind ofChannels?)

/-! ## Values and offers as sources -/

/-- A value as what another one can be made from. -/
def source : Value → Source
  | .bool b => .int (if b then 1 else 0)
  | .int i => .int i
  | .float x => .float x
  | .vec2 x y => .list [.float x, .float y]
  | .vec3 x y z => .list [.float x, .float y, .float z]
  | .color r g b a => .int (packed r g b a)
  | .text s => .text s

/-- An offer as what a value can be made from. The list and the tuple that a host may offer hold the
numbers one and two, the bytes are one byte. -/
def Source.ofOffer : Offer → Source
  | .value v => v.source
  | .nothing => .other
  | .list => .list [.int 1, .int 2]
  | .mapping => .other
  | .tuple => .list [.int 1, .int 2]
  | .bytes => .list [.int 120]

/-- The value of a kind that an offer is made into. Only vectors and colours are made; an offer is
taken for the other kinds as it is. -/
def ofOffer (palette : Palette) (kind : Kind) (offer : Offer) : Except Misfit Offer :=
  match kind with
  | .vec2 => (makeVector .vec2 [.ofOffer offer]).map .value
  | .vec3 => (makeVector .vec3 [.ofOffer offer]).map .value
  | .color => (makeColor palette [.ofOffer offer]).map .value
  | _ => .ok offer

end Colloquy.Value
