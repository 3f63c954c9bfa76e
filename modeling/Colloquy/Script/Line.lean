import Colloquy.Chars.Split

/-!
# Lines of a script

A script is a list of lines. The kind of a line follows from its first and last characters that
are not blank, and from its indentation: indented lines belong to a list of choices. A line is
kept as the list of its characters.
-/

namespace Colloquy

/-- A line of a script, without its line end. -/
abbrev Line := List Char

namespace Line

open Chars

/-- What a line is for. -/
inductive Kind where
  | blank
  | comment
  | tag
  | speaker
  | command
  | choice
  | speech
  deriving DecidableEq, Repr

/-- The number of blanks before a row of a choice list, unless it starts with a tab. -/
def defaultIndent : Int := 2

/-- Whether a line belongs to a list of choices: it starts with a tab or with enough blanks. -/
def isIndented (minIndent : Int) : Line → Bool
  | [] => false
  | c :: cs => c == '\t' || minIndent ≤ ((c :: cs).takeWhile isBlank).length

/-- The kind of a trimmed line that is not indented. -/
def contentKind (content : Line) : Kind :=
  match content with
  | [] => .blank
  | first :: rest =>
    if first == '#' then .comment
    else if first == '[' && rest.getLast? == some ']' then .tag
    else if first == '@' then .command
    else if content.getLast? == some ':' then .speaker
    else .speech

/-- The kind of what an indented line holds. -/
def innerKind (line : Line) : Kind :=
  contentKind (trim line)

/-- The kind of a line. An indented line is a row of a choice list, unless it is blank or a
comment. -/
def kind (minIndent : Int) (line : Line) : Kind :=
  match contentKind (trim line) with
  | .blank => .blank
  | .comment => .comment
  | kind => if isIndented minIndent line then .choice else kind

/-- A text that is not empty. -/
def nonEmpty? (cs : List Char) : Option String :=
  if cs.isEmpty then none else some (String.ofList cs)

/-- The tag in the first pair of brackets. -/
def tag? (line : Line) : Option String :=
  match (trim line).dropWhile (· != '[') with
  | [] => none
  | _ :: inside =>
    if inside.contains ']' then nonEmpty? (trim (inside.takeWhile (· != ']'))) else none

/-- The speaker that a line ending in a colon names. -/
def speaker? (line : Line) : Option String :=
  let content := trim line
  if content.getLast? == some ':' then nonEmpty? (trim content.dropLast) else none

/-- A trimmed line without the marker of a command. -/
def unmarked (line : Line) : Line :=
  match trim line with
  | '@' :: content => content
  | content => content

/-- The name and the parameter of a command. -/
def command (line : Line) : String × Option String :=
  let content := unmarked line
  (String.ofList (content.takeWhile (! isBlank ·)),
    nonEmpty? (trim (content.dropWhile (! isBlank ·))))

end Line

end Colloquy
