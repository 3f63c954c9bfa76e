import Colloquy.Chars.Classes

/-!
# Trimming and cutting

Trimming keeps everything between the first and the last character of a text that is not blank.
`cut p` cuts a text at every character with the property `p` and keeps the pieces, empty ones
included. The lines of a text are its pieces between line feeds, its words the non-empty pieces
between blanks.
-/

namespace Colloquy.Chars

/-- Drops the blanks at the start. -/
def trimStart (cs : List Char) : List Char :=
  cs.dropWhile isBlank

/-- Drops the blanks at the end. -/
def trimEnd (cs : List Char) : List Char :=
  (cs.reverse.dropWhile isBlank).reverse

/-- Drops the blanks at both ends. -/
def trim (cs : List Char) : List Char :=
  trimEnd (trimStart cs)

@[simp] theorem trim_nil : trim [] = [] := rfl

/-! ## Pieces -/

/-- The pieces of a text between the characters with the property `p`. -/
def cut (p : Char → Bool) (cs : List Char) : List (List Char) :=
  cs.foldr
    (fun c pieces =>
      if p c then [] :: pieces
      else
        match pieces with
        | [] => [[c]]
        | piece :: rest => (c :: piece) :: rest)
    [[]]

/-- The lines of a text. A text without a line feed is one line. -/
def lines (cs : List Char) : List (List Char) :=
  cut (· == '\n') cs

/-- The words of a text: its longest runs of characters that are not blank. -/
def words (cs : List Char) : List (List Char) :=
  (cut isBlank cs).filter (! ·.isEmpty)

/-- What follows the first word, without the blanks between them. -/
def afterWord (cs : List Char) : List Char :=
  trimStart ((trimStart cs).dropWhile (! isBlank ·))

/-- What stands before the first place where a text holds a mark, and what follows it there. -/
def cutAtFirst? (mark : List Char) : List Char → Option (List Char × List Char)
  | [] => if mark.isEmpty then some ([], []) else none
  | c :: cs =>
    if mark.isPrefixOf (c :: cs) then some ([], (c :: cs).drop mark.length)
    else (cutAtFirst? mark cs).map fun (before, after) => (c :: before, after)

/-- Drops the carriage returns at the end of a line. -/
def dropReturns (cs : List Char) : List Char :=
  (cs.reverse.dropWhile (· == '\r')).reverse

/-- Writes every line end as a line feed: a carriage return ends a line, alone or with the line feed
after it. -/
def unifyLineEnds : List Char → List Char
  | [] => []
  | '\r' :: '\n' :: cs => '\n' :: unifyLineEnds cs
  | c :: cs => (if c == '\r' then '\n' else c) :: unifyLineEnds cs

@[simp] theorem cut_nil (p : Char → Bool) : cut p [] = [[]] := rfl

theorem cut_cons_pos {p : Char → Bool} {c : Char} (h : p c = true) (cs : List Char) :
    cut p (c :: cs) = [] :: cut p cs := by
  simp [cut, h]

/-- Cutting never leaves a text without pieces. -/
theorem cut_ne_nil (p : Char → Bool) (cs : List Char) : cut p cs ≠ [] := by
  cases cs with
  | nil => simp
  | cons c cs =>
    by_cases h : p c = true
    · simp [cut_cons_pos h]
    · rw [cut, List.foldr_cons, if_neg h]
      split <;> simp

theorem lines_ne_nil (cs : List Char) : lines cs ≠ [] :=
  cut_ne_nil _ cs

end Colloquy.Chars
