import Colloquy.Script.Line

/-!
# Settings of the compiler

The limits are integers and may be zero or negative: a list has reached a limit when its length is
not below it.
-/

namespace Colloquy.Script

/-- What the compiler accepts. -/
structure Settings where
  /-- The number of blanks that mark a row of a choice list. -/
  minIndent : Int := Line.defaultIndent
  /-- The most commands of a node. -/
  maxCommands : Int := 5
  /-- The most choices of a node. -/
  maxChoices : Int := 8
  /-- The most nodes of a graph. -/
  maxNodes : Int := 2048
  /-- The most characters of a line of speech or of a choice. -/
  maxLineLength : Int := 1024
  deriving DecidableEq, Repr

/-- Whether a list of `count` things has no room for another one. -/
def isFull (count : Nat) (limit : Int) : Bool :=
  limit ≤ count

/-- The first `limit` characters; for a negative limit, all but the last `-limit` ones. -/
def cutTo (limit : Int) (cs : List Char) : List Char :=
  if 0 ≤ limit then cs.take limit.toNat else cs.take (cs.length - (-limit).toNat)

end Colloquy.Script
