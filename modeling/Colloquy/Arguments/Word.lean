import Colloquy.Chars.Classes

/-!
# Words of a command line

A word is an option, or it is plain. Options have long spellings with two hyphens and may have a
short one, a hyphen and a letter. A long spelling may be cut short while it stays unique, and its
value may follow an equals sign. Letters of short spellings may share one hyphen, and a value may
follow them without a space. Negative numbers, and words with a space in them that start no
option, are plain.
-/

namespace Colloquy.Arguments

/-- The options. -/
inductive Flag where
  | help
  | verbose
  | quiet
  | minIndent
  | maxCommands
  | maxChoices
  | output
  deriving DecidableEq, Repr

/-- Whether an option has a value. -/
def Flag.takesValue : Flag → Bool
  | .help => false
  | .verbose => false
  | .quiet => false
  | .minIndent => true
  | .maxCommands => true
  | .maxChoices => true
  | .output => true

/-- The spellings of the options that are known at one place of a command line. -/
abbrev Grammar := List (List Char × Flag)

/-- What a word is. A text may follow an option in the same word. -/
inductive Word where
  | plain
  | option (flag : Flag) (short : Bool) (attached : Option (List Char))
  /-- An option that is not known. -/
  | unknown
  /-- The start of several options. -/
  | ambiguous
  deriving DecidableEq, Repr

/-- The word after which every word is plain. -/
def separator : List Char := ['-', '-']

/-- A hyphen and decimal digits, with a point before the last of them or without one. A line feed
may follow. -/
def isNegativeNumber : List Char → Bool
  | '-' :: cs =>
    let cs := if cs.getLast? = some '\n' then cs.dropLast else cs
    let isDecimal (c : Char) := (Chars.digitValue? c).isSome
    let rest := cs.dropWhile isDecimal
    if rest.isEmpty then ! cs.isEmpty
    else rest.head? = some '.' && ! rest.tail.isEmpty && rest.tail.all isDecimal
  | _ => false

/-- A word up to its first equals sign, and what follows that. -/
def cutAtEquals (word : List Char) : List Char × Option (List Char) :=
  match word.dropWhile (· != '=') with
  | [] => (word, none)
  | _ :: text => (word.takeWhile (· != '='), some text)

/-- Whether a spelling is a short one. -/
def isShort (spelling : List Char) : Bool :=
  spelling[1]? != some '-'

/-- The options that a word may stand for, when it does not hold the full spelling of one. -/
def candidates (grammar : Grammar) (word : List Char) : List Word :=
  if isShort word then
    (grammar.filter fun (spelling, _) => spelling = word.take 2).map fun (_, flag) =>
      .option flag true (some (word.drop 2))
  else
    let (start, attached) := cutAtEquals word
    (grammar.filter fun (spelling, _) => start.isPrefixOf spelling).map fun (_, flag) =>
      .option flag false attached

/-- What a word is, as far as it is no full spelling. -/
def classifyPart (grammar : Grammar) (word : List Char) : Word :=
  match candidates grammar word with
  | [found] => found
  | [] => if isNegativeNumber word || word.contains ' ' then .plain else .unknown
  | _ => .ambiguous

/-- What a word is. -/
def classify (grammar : Grammar) (word : List Char) : Word :=
  if word.head? ≠ some '-' || word.length = 1 then .plain
  else
    match grammar.lookup word with
    | some flag => .option flag (isShort word) none
    | none =>
      let (spelling, attached) := cutAtEquals word
      match attached, grammar.lookup spelling with
      | some attached, some flag => .option flag (isShort spelling) (some attached)
      | _, _ => classifyPart grammar word

/-- Whether a word that starts several options stands before the separator. -/
def hasAmbiguous (grammar : Grammar) (words : List (List Char)) : Bool :=
  (words.takeWhile (· ≠ separator)).any fun word => classify grammar word = .ambiguous

/-- The first of the words, if it is plain. -/
def plainHead? (grammar : Grammar) (words : List (List Char)) : Option (List Char) :=
  words.head?.filter fun word => word ≠ separator && classify grammar word = .plain

/-! ## Taking an option word apart -/

/-- How the options of a word end. -/
inductive Tail where
  /-- The last option has no value. -/
  | closed
  /-- The last option has its value in the word. -/
  | value (text : List Char)
  /-- The value of the last option is the next word. -/
  | next
  deriving DecidableEq, Repr

/-- The options of a word, of which the first is known and has a text attached, or none if the
text cannot stand there. Letters may follow an option without a value, each an option of its own;
an equals sign that does not stand before a value is a letter too, and no option. -/
def letters (grammar : Grammar) (flag : Flag) : List Char → Option (List Flag × Tail)
  | [] => if flag.takesValue then some ([flag], .value []) else none
  | c :: cs =>
    if flag.takesValue then some ([flag], .value (c :: cs))
    else
      match grammar.lookup ['-', c], cs with
      | none, _ => none
      | some next, [] => some ([flag, next], if next.takesValue then .next else .closed)
      | some next, cs => (letters grammar next cs).map fun (flags, tail) => (flag :: flags, tail)

/-- The options of an option word. A long spelling that has no value cannot have a text attached. -/
def takeApart (grammar : Grammar) (flag : Flag) (short : Bool) :
    Option (List Char) → Option (List Flag × Tail)
  | none => some ([flag], if flag.takesValue then .next else .closed)
  | some text => if short || flag.takesValue then letters grammar flag text else none

end Colloquy.Arguments
