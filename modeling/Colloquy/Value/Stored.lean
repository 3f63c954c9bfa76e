import Colloquy.Json.Basic
import Colloquy.Value.Source

/-!
# Values in files

A value is stored with its kind: an object with the entries `type` and `value`. Vectors and
colours are stored as lists of their components. Reading accepts more shapes than writing makes:
the list may hold anything that a vector or a colour can be made from.
-/

namespace Colloquy.Value

/-- A value as the files hold it. -/
def toJson (value : Value) : Json :=
  let payload : Json :=
    match value with
    | .bool b => .bool b
    | .int i => .int i
    | .float x => .float x
    | .vec2 x y => .array [.float x, .float y]
    | .vec3 x y z => .array [.float x, .float y, .float z]
    | .color r g b a => .array ([r, g, b, a].map fun part => .int part.toNat)
    | .text s => .text s
  .object [("type", .text value.kind.name), ("value", payload)]

/-- Why data is not a stored value. -/
inductive Defect where
  /-- The data cannot be looked into for the entry `type`. -/
  | noEntries (data : Json)
  | missing (name : String)
  | unknownKind (name : Json)
  /-- The components are not given by a list. -/
  | notIterable (kind : Kind) (payload : Json)
  | misfit (cause : Misfit)
  | unsupported (refusal : Unsupported)
  | wrongKind (payload : Json) (kind : Kind)

/-- The class of a defect. -/
def Defect.class : Defect → Defect.Class
  | .noEntries _ => .type
  | .missing _ => .missing
  | .unknownKind _ => .content
  | .notIterable .. => .type
  | .misfit cause => cause.class
  | .unsupported _ => .type
  | .wrongKind .. => .content

/-- A defect in words. -/
def Defect.message : Defect → String
  | .noEntries (.text _) => "string indices must be integers, not 'str'"
  | .noEntries (.array _) => "list indices must be integers or slices, not str"
  | .noEntries data => s!"'{data.typeName}' object is not subscriptable"
  | .missing name => quote name
  | .unknownKind name => s!"{name.display} is not a valid VariableType"
  | .notIterable kind payload =>
    s!"{kind.family}.{kind.label}() argument after * must be an iterable, not " ++
      payload.typeName
  | .misfit cause => cause.message
  | .unsupported refusal => refusal.message
  | .wrongKind payload kind => s!"Variable payload {payload.display} is not a {kind.name}"

/-! ## Components -/

mutual

/-- Data as what a vector or a colour can be made from. -/
def Source.ofJson : Json → Source
  | .bool b => .int (if b then 1 else 0)
  | .int i => .int i
  | .float x => .float x
  | .text s => .text s
  | .array items => .list (ofItems items)
  | _ => .other

/-- The items of an array as what a vector or a colour can be made from. -/
def Source.ofItems : List Json → List Source
  | [] => []
  | item :: items => .ofJson item :: ofItems items

end

/-- The arguments that a payload unfolds into: the items of a list, the characters of a text, the
names of an object. -/
def arguments? : Json → Option (List Source)
  | .array items => some (Source.ofItems items)
  | .text s => some (s.toList.map fun c => .text (String.ofList [c]))
  | .object entries => some (entries.map fun entry => .text entry.1)
  | _ => none

/-- The value of a kind that the arguments of a payload make. -/
def readUnfolded (kind : Kind) (make : List Source → Except Misfit Value) (payload : Json) :
    Except Defect Value :=
  match arguments? payload with
  | none => .error (.notIterable kind payload)
  | some arguments => (make arguments).mapError .misfit

/-! ## Reading -/

/-- The value that a payload is by itself. -/
def ofPayload : Json → Except Unsupported Value
  | .null => .error ⟨"NoneType"⟩
  | .bool b => .ok (.bool b)
  | .int i => .ok (.int i)
  | .float x => .ok (.float x)
  | .text s => .ok (.text s)
  | .array _ => .error ⟨"list"⟩
  | .object _ => .error ⟨"dict"⟩

/-- The value of a kind that a payload is by itself. -/
def readPlain (kind : Kind) (payload : Json) : Except Defect Value :=
  match ofPayload payload with
  | .error refusal => .error (.unsupported refusal)
  | .ok value => if value.kind = kind then .ok value else .error (.wrongKind payload kind)

/-- The value of a kind that a payload stands for. -/
def readPayload (palette : Palette) (kind : Kind) (payload : Json) : Except Defect Value :=
  match kind, payload with
  | .vec2, payload => readUnfolded .vec2 (makeVector .vec2) payload
  | .vec3, payload => readUnfolded .vec3 (makeVector .vec3) payload
  | .color, payload => readUnfolded .color (makeColor palette) payload
  | .float, .int i =>
    match Binary.ofInt? i with
    | some x => .ok (.float x)
    | none => .error (.misfit .overflow)
  | kind, payload => readPlain kind payload

/-- The kind that data names. -/
def readKind (name : Json) : Except Defect Kind :=
  match name with
  | .text s =>
    match Kind.ofName? s with
    | some kind => .ok kind
    | none => .error (.unknownKind name)
  | _ => .error (.unknownKind name)

/-- The value that data stands for. -/
def ofJson (data : Json) (palette : Palette := .none) : Except Defect Value :=
  match data with
  | .object _ =>
    match data.get? "type" with
    | none => .error (.missing "type")
    | some name =>
      match readKind name with
      | .error defect => .error defect
      | .ok kind =>
        match data.get? "value" with
        | none => .error (.missing "value")
        | some payload => readPayload palette kind payload
  | _ => .error (.noEntries data)

/-- Whether a value equals the one that its stored form stands for. -/
def roundTrips (value : Value) : Bool :=
  match ofJson value.toJson with
  | .ok copy => copy.equalCopy value
  | .error _ => false

end Colloquy.Value
