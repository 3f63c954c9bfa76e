import Colloquy.Json.Basic

/-!
# Writing JSON

The layout of the files: every item and every entry on a line of its own, two spaces deeper than the
bracket around it, and no line end after the last bracket. All characters stand for themselves but
quotes, backslashes and control characters.
-/

namespace Colloquy.Json

/-- One character inside a written text. -/
def escapeChar (c : Char) : List Char :=
  if c == '"' then ['\\', '"']
  else if c == '\\' then ['\\', '\\']
  else if c == '\n' then ['\\', 'n']
  else if c == '\r' then ['\\', 'r']
  else if c == '\t' then ['\\', 't']
  else if c == '\x08' then ['\\', 'b']
  else if c == '\x0c' then ['\\', 'f']
  else if c.toNat < 0x20 then '\\' :: 'u' :: Chars.hexDigits 4 c.toNat
  else [c]

/-- A text between quotes. -/
def writeText (s : String) : List Char :=
  '"' :: s.toList.flatMap escapeChar ++ ['"']

/-- A number that may be infinite or no number. -/
def writeFloat (x : Float) : List Char :=
  match Binary.view x with
  | .nan => "NaN".toList
  | .infinite true => "-Infinity".toList
  | .infinite false => "Infinity".toList
  | .finite .. => (Decimal.floatText x).toList

/-- The start of a line at a depth. -/
def newLine (depth : Nat) : List Char :=
  '\n' :: List.replicate (2 * depth) ' '

mutual

/-- A value whose closing bracket stands at the given depth. -/
def writeAt (depth : Nat) : Json → List Char
  | .null => "null".toList
  | .bool true => "true".toList
  | .bool false => "false".toList
  | .int i => (Decimal.intText i).toList
  | .float x => writeFloat x
  | .text s => writeText s
  | .array [] => ['[', ']']
  | .array (item :: items) =>
    '[' :: newLine (depth + 1) ++ writeAt (depth + 1) item ++ writeItems (depth + 1) items ++
      newLine depth ++ [']']
  | .object [] => ['\x7b', '\x7d']
  | .object ((name, value) :: entries) =>
    '\x7b' :: newLine (depth + 1) ++ writeText name ++ ':' :: ' ' :: writeAt (depth + 1) value ++
      writeEntries (depth + 1) entries ++ newLine depth ++ ['\x7d']

/-- The items after the first, each after a comma and a line end. -/
def writeItems (depth : Nat) : List Json → List Char
  | [] => []
  | item :: items => ',' :: newLine depth ++ writeAt depth item ++ writeItems depth items

/-- The entries after the first, each after a comma and a line end. -/
def writeEntries (depth : Nat) : List (String × Json) → List Char
  | [] => []
  | (name, value) :: entries =>
    ',' :: newLine depth ++ writeText name ++ ':' :: ' ' :: writeAt depth value ++
      writeEntries depth entries

end

/-- A value as the files hold it. -/
def write (data : Json) : String :=
  String.ofList (writeAt 0 data)

end Colloquy.Json
