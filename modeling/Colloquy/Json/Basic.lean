import Colloquy.Chars.Quoted
import Colloquy.Decimal.Notation
import Colloquy.Ledger

/-!
# JSON values

Values of the data format in which graphs and sessions are kept. Integers are exact and are told
apart from floating-point numbers; the entries of an object stand in order, each name once.

Messages show a value with `display`: texts are quoted, lists stand in brackets, objects in braces.
-/

namespace Colloquy

/-- A JSON value. -/
inductive Json where
  | null
  | bool (value : Bool)
  | int (value : Int)
  | float (value : Float)
  | text (value : String)
  | array (items : List Json)
  | object (entries : List (String × Json))
  deriving Inhabited

namespace Json

/-- The value under a name, if this is an object that has one. -/
def get? (data : Json) (name : String) : Option Json :=
  match data with
  | .object entries => Entries.find? entries name
  | _ => none

/-- An object without the entries of some names. -/
def without (data : Json) (names : List String) : Json :=
  match data with
  | .object entries => .object (entries.filter fun entry => ! names.contains entry.1)
  | data => data

/-- The name of the type of a value in messages. -/
def typeName : Json → String
  | .null => "NoneType"
  | .bool _ => "bool"
  | .int _ => "int"
  | .float _ => "float"
  | .text _ => "str"
  | .array _ => "list"
  | .object _ => "dict"

mutual

/-- A value as messages show it. -/
def display : Json → String
  | .null => "None"
  | .bool true => "True"
  | .bool false => "False"
  | .int i => Decimal.intText i
  | .float x => Decimal.floatText x
  | .text s => quote s
  | .array items => "[" ++ ", ".intercalate (displayItems items) ++ "]"
  | .object entries => "\x7b" ++ ", ".intercalate (displayEntries entries) ++ "\x7d"

/-- The items of an array as messages show them. -/
def displayItems : List Json → List String
  | [] => []
  | item :: items => display item :: displayItems items

/-- The entries of an object as messages show them. -/
def displayEntries : List (String × Json) → List String
  | [] => []
  | (name, value) :: entries => (quote name ++ ": " ++ display value) :: displayEntries entries

end

end Json

end Colloquy
