import Colloquy.Chars.Printable

/-!
# Quoted text

The way messages show a text: between single quotes, or between double quotes when it holds a
single quote and no double one. The quote in use, the backslash and every character that cannot be
printed are written as escapes.
-/

namespace Colloquy.Chars

/-- The quote that a text is shown in. -/
def quoteFor (cs : List Char) : Char :=
  if cs.contains '\'' && ! cs.contains '"' then '"' else '\''

/-- One character inside quoted text. -/
def escape (quote c : Char) : List Char :=
  if c == quote || c == '\\' then ['\\', c]
  else if c == '\n' then ['\\', 'n']
  else if c == '\r' then ['\\', 'r']
  else if c == '\t' then ['\\', 't']
  else if isPrintable c then [c]
  else if c.toNat < 0x100 then '\\' :: 'x' :: hexDigits 2 c.toNat
  else if c.toNat < 0x10000 then '\\' :: 'u' :: hexDigits 4 c.toNat
  else '\\' :: 'U' :: hexDigits 8 c.toNat

/-- A text as messages show it. -/
def quoted (cs : List Char) : List Char :=
  let quote := quoteFor cs
  quote :: cs.flatMap (escape quote) ++ [quote]

end Colloquy.Chars

namespace Colloquy

/-- A text as messages show it. -/
def quote (s : String) : String :=
  String.ofList (Chars.quoted s.toList)

end Colloquy
