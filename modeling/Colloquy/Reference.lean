import Colloquy.Chars.Alnum

/-!
# References to variables

A text may refer to variables: a dollar sign and the letters and digits after it, as many as
follow. A dollar sign without a letter or digit after it stands for itself. `names` lists the
references of a text, and `resolve` puts values in their place. Each reads the text once, from
left to right; the values that are put in are not read.

Looking a value up may have effects: `resolveM` looks up a reference when it comes to it.
-/

namespace Colloquy.Reference

/-- The sign that opens a reference. -/
def marker : Char := '$'

/-! ## Listing references -/

/-- The name that has been read, the last character first, if there is one. -/
def nameRead (name : List Char) : List String :=
  if name.isEmpty then [] else [String.ofList name.reverse]

/-- The names in a text from a place on. After a marker, the characters of the name are kept, the
last one first. -/
def namesFrom : Option (List Char) → List Char → List String
  | none, [] => []
  | none, c :: cs => if c == marker then namesFrom (some []) cs else namesFrom none cs
  | some name, [] => nameRead name
  | some name, c :: cs =>
    if Chars.isAlnum c then namesFrom (some (c :: name)) cs
    else nameRead name ++ if c == marker then namesFrom (some []) cs else namesFrom none cs

/-- The names that a text refers to, in order. -/
def names (text : String) : List String :=
  namesFrom none text.toList

/-! ## Resolving references -/

section Resolving

variable {m : Type → Type} [Monad m]

/-- What is shown for the name that has been read, the last character first. A marker without a
name is shown as it is. -/
def shown (lookup : String → m String) (name : List Char) : m (List Char) :=
  if name.isEmpty then pure [marker] else String.toList <$> lookup (String.ofList name.reverse)

/-- What is shown for a text from a place on. After a marker, the characters of the name are kept,
the last one first. -/
def resolveFrom (lookup : String → m String) : Option (List Char) → List Char → m (List Char)
  | none, [] => pure []
  | none, c :: cs =>
    if c == marker then resolveFrom lookup (some []) cs else (c :: ·) <$> resolveFrom lookup none cs
  | some name, [] => shown lookup name
  | some name, c :: cs =>
    if Chars.isAlnum c then resolveFrom lookup (some (c :: name)) cs
    else do
      let value ← shown lookup name
      (value ++ ·) <$>
        if c == marker then resolveFrom lookup (some []) cs else (c :: ·) <$>
          resolveFrom lookup none cs

/-- A text with the values of its references in their place. A text without markers is left as it
is. -/
def resolveM (lookup : String → m String) (text : String) : m String :=
  if text.toList.contains marker then String.ofList <$>
    resolveFrom lookup none text.toList else pure text

end Resolving

/-- A text with the values of its references in their place, where looking a value up has no
effects. -/
def resolve (lookup : String → String) (text : String) : String :=
  Id.run (resolveM (fun name => pure (lookup name)) text)

end Colloquy.Reference
