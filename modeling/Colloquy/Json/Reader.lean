import Colloquy.Json.Basic

/-!
# Reading JSON

A reader for the whole of JSON and three words besides: `NaN`, `Infinity` and `-Infinity` are
numbers. A name that occurs twice in an object has the later value in the earlier place.

Every function reads from the start of what remains of the text and returns what then remains. A
problem carries the number of characters that remained where it was found, so its position in the
text needs no counting on the way. Each of the mutually recursive functions that read nested
values takes a bound on the number of calls; `read` gives one that suffices, since two calls in a
row read at least a character. They also take the number of levels that may still be opened:
values nest at most `maxDepth` deep.

A text is a list of characters, of which a half of a surrogate pair is none. A half that an escape
names without the other half is left out of this reader: the replacement character stands for it,
so texts that differ in such halves only are read as one.
-/

namespace Colloquy.Json

/-- Why a text is not JSON. -/
inductive Cause where
  | valueExpected
  | nameExpected
  | colonExpected
  | commaExpected
  | extraData
  | unterminatedText
  | controlCharacter
  | badEscape
  | badUnicodeEscape
  | byteOrderMark
  deriving DecidableEq, Repr

/-- What stops the reader. -/
inductive Problem where
  /-- The text breaks the grammar where `remaining` characters are left. -/
  | syntaxError (cause : Cause) (remaining : Nat)
  /-- An integer has too many digits. -/
  | longInteger (digits : Nat)
  /-- Values nest too deeply. The level that is too much is an object, or an array. -/
  | tooDeep (object : Bool)
  deriving DecidableEq, Repr

/-- The outcome of reading from the start of a text: a result and what remains, or a problem. -/
abbrev Scan (α : Type) := Except Problem (α × List Char)

/-- Fails at the start of what remains. -/
def refuse {α : Type} (cause : Cause) (cs : List Char) : Except Problem α :=
  .error (.syntaxError cause cs.length)

/-- A character that may stand between the parts of a JSON text. -/
def isSpace (c : Char) : Bool :=
  c == ' ' || c == '\t' || c == '\n' || c == '\r'

/-- Drops the space before the next part. -/
def skipSpace (cs : List Char) : List Char :=
  cs.dropWhile isSpace

/-! ## Texts -/

/-- The number that four digits in base sixteen stand for. -/
def hex4? (a b c d : Char) : Option Nat := do
  let a ← Chars.hexValue? a
  let b ← Chars.hexValue? b
  let c ← Chars.hexValue? c
  let d ← Chars.hexValue? d
  return ((a * 16 + b) * 16 + c) * 16 + d

/-- Four digits in base sixteen at the start of a text that does not end with them, the number they
stand for, and the text after them. -/
def unicodeEscape? : List Char → Option (Nat × List Char)
  | a :: b :: c :: d :: e :: cs => (hex4? a b c d).map fun n => (n, e :: cs)
  | _ => none

/-- The character that a one-letter escape stands for. -/
def simpleEscape? : Char → Option Char
  | '"' => some '"'
  | '\\' => some '\\'
  | '/' => some '/'
  | 'b' => some '\x08'
  | 'f' => some '\x0c'
  | 'n' => some '\n'
  | 'r' => some '\r'
  | 't' => some '\t'
  | _ => none

/-- The first half of a pair of code units that stands for one character. -/
def isHighSurrogate (n : Nat) : Bool :=
  0xD800 ≤ n && n < 0xDC00

/-- The second half of a pair of code units that stands for one character. -/
def isLowSurrogate (n : Nat) : Bool :=
  0xDC00 ≤ n && n < 0xE000

/-- The character with a code point. A half without its other half is no character; all such
halves give the replacement character, and are not kept apart. -/
def charOf (n : Nat) : Char :=
  if 0xD800 ≤ n && n < 0xE000 then '\ufffd' else Char.ofNat n

/-- Whether at least `n` characters remain. -/
def atLeast (n : Nat) (cs : List Char) : Bool :=
  ! (cs.drop (n - 1)).isEmpty

/-- The character of a Unicode escape whose digits stand for `n`, where `cs` follows them, and how
many of `cs` belong to it too. The first half of a pair takes the second half with it, if that
follows. -/
def pairUp (n : Nat) (cs : List Char) : Except Problem (Char × Nat) :=
  match cs with
  | '\\' :: 'u' :: rest =>
    if isHighSurrogate n && atLeast 7 cs then
      match unicodeEscape? rest with
      | none => refuse .badUnicodeEscape ('u' :: rest)
      | some (m, _) =>
        if isLowSurrogate m then
          .ok (Char.ofNat (0x10000 + (n - 0xD800) * 1024 + (m - 0xDC00)), 6)
        else .ok (charOf n, 0)
    else .ok (charOf n, 0)
  | _ => .ok (charOf n, 0)

/-- The character that an escape stands for, and how many characters after its backslash belong to
it. The arguments are the first of these and what follows that. -/
def escape (first : Char) (cs : List Char) : Except Problem (Char × Nat) :=
  if first = 'u' then
    match unicodeEscape? cs with
    | none => refuse .badUnicodeEscape (first :: cs)
    | some (n, after) => (pairUp n after).map fun (c, more) => (c, 5 + more)
  else
    match simpleEscape? first with
    | none => refuse .badEscape ('\\' :: first :: cs)
    | some c => .ok (c, 1)

/-- Reads a text after its opening quote. `start` is what follows the quote, `done` holds the
characters read so far, the last one first, and the number tells how many more characters belong
to the last one. -/
def textAfterQuote (start : List Char) : List Char → Nat → List Char → Scan String
  | _, _, [] => .error (.syntaxError .unterminatedText (start.length + 1))
  | done, skip + 1, _ :: cs => textAfterQuote start done skip cs
  | done, 0, c :: cs =>
    if c = '"' then .ok (String.ofList done.reverse, cs)
    else if c = '\\' then
      match cs with
      | [] => textAfterQuote start done 0 cs
      | first :: rest =>
        match escape first rest with
        | .error problem => .error problem
        | .ok (c, length) => textAfterQuote start (c :: done) length cs
    else if c.toNat < 0x20 then refuse .controlCharacter (c :: cs)
    else textAfterQuote start (c :: done) 0 cs

/-- Reads a text after its opening quote. -/
def readText (cs : List Char) : Scan String :=
  textAfterQuote cs [] 0 cs

/-! ## Numbers -/

/-- A digit in base ten, as JSON writes it. -/
def isNumeral (c : Char) : Bool :=
  '0' ≤ c && c ≤ '9'

/-- The number that numerals stand for. -/
def numeralsValue (cs : List Char) : Nat :=
  cs.foldl (fun n c => n * 10 + (c.toNat - '0'.toNat)) 0

/-- The numerals before the point, and what remains: a single zero, or numerals that do not start
with a zero. -/
def wholePart? : List Char → Option (List Char × List Char)
  | '0' :: cs => some (['0'], cs)
  | c :: cs =>
    if isNumeral c then some (c :: cs.takeWhile isNumeral, cs.dropWhile isNumeral) else none
  | [] => none

/-- The numerals after a point, if a point with numerals follows, and what remains. -/
def fractionPart : List Char → List Char × List Char
  | '.' :: cs =>
    match cs.takeWhile isNumeral with
    | [] => ([], '.' :: cs)
    | numerals => (numerals, cs.dropWhile isNumeral)
  | cs => ([], cs)

/-- The exponent, if one follows, and what remains. -/
def exponentPart (cs : List Char) : Option Int × List Char :=
  match cs with
  | [] => (none, [])
  | c :: after =>
    if c == 'e' || c == 'E' then
      let (negative, after) := Decimal.sign after
      match after.takeWhile isNumeral with
      | [] => (none, cs)
      | numerals =>
        (some (Decimal.signed negative (numeralsValue numerals)), after.dropWhile isNumeral)
    else (none, cs)

/-- Reads a number. Without a fraction and an exponent it is an integer. -/
def readNumber (cs : List Char) : Scan Json :=
  let (negative, unsigned) :=
    match cs with
    | '-' :: cs => (true, cs)
    | cs => (false, cs)
  match wholePart? unsigned with
  | none => refuse .valueExpected cs
  | some (whole, rest) =>
    let (fraction, rest) := fractionPart rest
    let (exponent?, rest) := exponentPart rest
    if fraction.isEmpty && exponent?.isNone then
      if Decimal.maxDigits < whole.length then .error (.longInteger whole.length)
      else .ok (.int (Decimal.signed negative (numeralsValue whole)), rest)
    else
      .ok (.float (Decimal.toFloat negative (numeralsValue (whole ++ fraction))
        (exponent?.getD 0 - fraction.length)), rest)

/-! ## Values -/

/-- The double that is not a number. -/
def nan : Float := Float.ofBits 0x7FF8000000000000

/-- The words that stand for values. -/
def wordValues : List (List Char × Json) :=
  [("null".toList, .null), ("true".toList, .bool true), ("false".toList, .bool false),
    ("NaN".toList, .float nan),
    ("Infinity".toList, .float (Binary.ofBits false Binary.infinityBits)),
    ("-Infinity".toList, .float (Binary.ofBits true Binary.infinityBits))]

/-- Reads a word that stands for a value. -/
def readWord? (cs : List Char) : Option (Json × List Char) :=
  wordValues.findSome? fun (word, value) =>
    if word.isPrefixOf cs then some (value, cs.drop word.length) else none

/-- The most levels to which values nest. -/
def maxDepth : Nat := 990

mutual

/-- Reads a value. -/
def readValue : Nat → Nat → List Char → Scan Json
  | 0, _, cs => refuse .valueExpected cs
  | fuel + 1, levels, cs =>
    match cs, levels with
    | '"' :: cs, _ => (readText cs).map fun (s, rest) => (.text s, rest)
    | '[' :: _, 0 => .error (.tooDeep false)
    | '[' :: cs, levels + 1 =>
      match skipSpace cs with
      | ']' :: rest => .ok (.array [], rest)
      | cs => (readItems fuel levels [] cs).map fun (items, rest) => (.array items, rest)
    | '\x7b' :: _, 0 => .error (.tooDeep true)
    | '\x7b' :: cs, levels + 1 =>
      match skipSpace cs with
      | '\x7d' :: rest => .ok (.object [], rest)
      | cs => (readEntries fuel levels [] cs).map fun (entries, rest) => (.object entries, rest)
    | cs, _ =>
      match readWord? cs with
      | some found => .ok found
      | none => readNumber cs

/-- Reads the items of an array up to its closing bracket, after the items `done`, the last one
first. -/
def readItems : Nat → Nat → List Json → List Char → Scan (List Json)
  | 0, _, _, cs => refuse .valueExpected cs
  | fuel + 1, levels, done, cs =>
    match readValue fuel levels cs with
    | .error problem => .error problem
    | .ok (item, rest) =>
      match skipSpace rest with
      | ']' :: rest => .ok ((item :: done).reverse, rest)
      | ',' :: rest => readItems fuel levels (item :: done) (skipSpace rest)
      | rest => refuse .commaExpected rest

/-- Reads the entries of an object up to its closing brace, after the entries `done`. -/
def readEntries : Nat → Nat → List (String × Json) → List Char → Scan (List (String × Json))
  | 0, _, _, cs => refuse .valueExpected cs
  | fuel + 1, levels, done, cs =>
    match cs with
    | '"' :: cs =>
      match readText cs with
      | .error problem => .error problem
      | .ok (name, rest) =>
        match skipSpace rest with
        | ':' :: rest =>
          match readValue fuel levels (skipSpace rest) with
          | .error problem => .error problem
          | .ok (value, rest) =>
            let done := Entries.put done name value
            match skipSpace rest with
            | '\x7d' :: rest => .ok (done, rest)
            | ',' :: rest => readEntries fuel levels done (skipSpace rest)
            | rest => refuse .commaExpected rest
        | rest => refuse .colonExpected rest
    | cs => refuse .nameExpected cs

end

/-- Reads a JSON text. Nothing but space may stand before and after the value. -/
def read (cs : List Char) : Except Problem Json :=
  match cs with
  | '\ufeff' :: _ => refuse .byteOrderMark cs
  | cs =>
    match readValue (2 * cs.length + 2) maxDepth (skipSpace cs) with
    | .error problem => .error problem
    | .ok (value, rest) =>
      match skipSpace rest with
      | [] => .ok value
      | rest => refuse .extraData rest

/-! ## Messages -/

/-- The reason in words. -/
def Cause.message : Cause → String
  | .valueExpected => "Expecting value"
  | .nameExpected => "Expecting property name enclosed in double quotes"
  | .colonExpected => "Expecting ':' delimiter"
  | .commaExpected => "Expecting ',' delimiter"
  | .extraData => "Extra data"
  | .unterminatedText => "Unterminated string starting at"
  | .controlCharacter => "Invalid control character at"
  | .badEscape => "Invalid \\escape"
  | .badUnicodeEscape => "Invalid \\uXXXX escape"
  | .byteOrderMark => "Unexpected UTF-8 BOM (decode using utf-8-sig)"

/-- Says that values nest too deeply. -/
def tooDeepMessage (object : Bool) : String :=
  "maximum recursion depth exceeded while decoding a JSON " ++
    (if object then "object" else "array") ++ " from a unicode string"

/-- A place in a text in words: line and column, both counted from one, and the number of characters
before it. -/
def placeText (before : List Char) : String :=
  let line := before.count '\n' + 1
  let column := (before.reverse.takeWhile (· != '\n')).length + 1
  s!"line {line} column {column} (char {before.length})"

end Colloquy.Json
