import Colloquy.Chars.Split
import Colloquy.Files.Tree
import Colloquy.Json.Reader
import Colloquy.Json.Writer

/-!
# Text and data in files

Texts are kept in UTF-8. On reading, every line end becomes a line feed before anything else looks
at the text.
-/

namespace Colloquy.Files

/-- Why a text cannot be read from a file. -/
inductive TextProblem where
  | system (failure : Failure)
  | encoding (failure : Utf8.Failure)
  deriving DecidableEq, Repr

/-- Whether the operating system refused the file. -/
def TextProblem.isSystem : TextProblem → Bool
  | .system (.refused ..) => true
  | _ => false

/-- A problem in words. -/
def TextProblem.message : TextProblem → String
  | .system failure => failure.message
  | .encoding failure => failure.message

/-- The text in a file. -/
def Tree.readText (tree : Tree) (path : Path) : Except TextProblem String :=
  match tree.read path with
  | .error failure => .error (.system failure)
  | .ok bytes =>
    match Utf8.decode bytes with
    | .error failure => .error (.encoding failure)
    | .ok cs => .ok (String.ofList (Chars.unifyLineEnds cs))

/-- Writes a text into a file. -/
def Tree.writeText (tree : Tree) (path : Path) (text : String) : Except Failure Tree :=
  tree.write path (Utf8.encode text)

/-- Why a JSON value cannot be read from a file. -/
inductive DataProblem where
  | text (problem : TextProblem)
  /-- The text breaks the grammar; `before` is what stands before the place. -/
  | syntaxError (path : Path) (cause : Json.Cause) (before : List Char)
  | longInteger (digits : Nat)
  | tooDeep (object : Bool)
  deriving DecidableEq, Repr

/-- A problem in words. -/
def DataProblem.message : DataProblem → String
  | .text problem => problem.message
  | .syntaxError path cause before =>
    s!"{path.text} is not valid JSON: {cause.message}: {Json.placeText before}"
  | .longInteger digits => Decimal.tooLongMessage digits
  | .tooDeep object => Json.tooDeepMessage object

/-- The JSON value in a file. -/
def Tree.readJson (tree : Tree) (path : Path) : Except DataProblem Json :=
  match tree.readText path with
  | .error problem => .error (.text problem)
  | .ok text =>
    match Json.read text.toList with
    | .ok data => .ok data
    | .error (.longInteger digits) => .error (.longInteger digits)
    | .error (.tooDeep object) => .error (.tooDeep object)
    | .error (.syntaxError cause remaining) =>
      .error (.syntaxError path cause (text.toList.take (text.toList.length - remaining)))

/-- Writes a JSON value into a file. -/
def Tree.writeJson (tree : Tree) (path : Path) (data : Json) : Except Failure Tree :=
  tree.writeText path data.write

end Colloquy.Files
