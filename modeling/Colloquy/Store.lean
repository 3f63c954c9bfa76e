import Colloquy.Ledger
import Colloquy.Value.Parse
import Colloquy.Value.Stored

/-!
# Stores of variables

A store holds the variables of a session under their names, in the order in which the names were
first set. The typed getters answer with a default where the name is missing or its value has
another kind.
-/

namespace Colloquy

/-- Variables under their names. -/
abbrev Store := Ledger String Value

namespace Store

/-- Stores a value under a name. -/
def set (store : Store) (name : String) (value : Value) : Store :=
  store.insert name value

/-- The text that a reference to a name shows; a name without a value shows itself. -/
def display (store : Store) (name : String) : String :=
  match store.get? name with
  | some value => value.display
  | none => name

/-! ## Typed getters -/

/-- The value under a name, if it has the kind. -/
def getKind? (store : Store) (kind : Value.Kind) (name : String) : Option Value :=
  (store.get? name).filter (·.kind = kind)

/-- The value under a name as a float. An integer is converted, and may be too large for that. -/
def getFloat (store : Store) (name : String) (default : Offer) : Except Value.Misfit Offer :=
  match store.get? name with
  | some (.float x) => .ok (.value (.float x))
  | some (.int i) =>
    match Binary.ofInt? i with
    | some x => .ok (.value (.float x))
    | none => .error .overflow
  | _ => .ok default

/-- The value that stands in where a getter is given no default. -/
def zero (kind : Value.Kind) : Value :=
  match kind with
  | .bool => .bool false
  | .int => .int 0
  | .float => .float 0
  | .vec2 => .vec2 0 0
  | .vec3 => .vec3 0 0 0
  | .color => .color 0 0 0 0
  | .text => .text ""

/-- What stands in for a missing value of a kind. Vectors and colours are made from the default,
or are zero if there is none; the other kinds hand it back. -/
def standIn (palette : Value.Palette) (kind : Value.Kind) (default : Offer) :
    Except Value.Misfit Offer :=
  match kind, default with
  | .vec2, .nothing => .ok (.value (zero .vec2))
  | .vec3, .nothing => .ok (.value (zero .vec3))
  | .color, .nothing => .ok (.value (zero .color))
  | kind, default => Value.ofOffer palette kind default

/-- The value under a name as a value of a kind. -/
def getTyped (store : Store) (kind : Value.Kind) (name : String) (default : Offer)
    (palette : Value.Palette := .none) : Except Value.Misfit Offer :=
  match kind with
  | .float => store.getFloat name default
  | kind =>
    match store.getKind? kind name with
    | some value => .ok (.value value)
    | none => standIn palette kind default

/-! ## Stores in files -/

/-- A store as the files hold it. -/
def toJson (store : Store) : Json :=
  .object (store.entries.map fun (name, value) => (name, value.toJson))

/-- The store that the entries of an object stand for. -/
def ofEntries (entries : List (String × Json)) (palette : Value.Palette := .none) :
    Except Value.Defect Store :=
  entries.foldlM
    (fun store (name, data) => (Value.ofJson data palette).map (store.insert name)) Ledger.empty

/-- Whether a store equals the one that its stored form stands for. -/
def roundTrips (store : Store) : Bool :=
  match store.toJson with
  | .object entries =>
    match ofEntries entries with
    | .ok copy =>
      copy.size == store.size &&
        store.entries.all fun (name, value) => (copy.get? name).any (Value.equalCopy · value)
    | .error _ => false
  | _ => false

end Store

end Colloquy
