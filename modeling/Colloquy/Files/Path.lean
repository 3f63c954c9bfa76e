import Colloquy.Chars.Split

/-!
# Paths of files

A path is a list of names. Empty names and single dots are left out when a path is read, so
different spellings of a path give the same one; double dots stay, since they depend on the files.
-/

namespace Colloquy.Files

/-- A path: the names on the way, from the working directory or from the top. -/
structure Path where
  /-- The slashes at the start. There are none if the path starts from the working directory. -/
  lead : String := ""
  names : List String
  deriving DecidableEq, Repr

namespace Path

/-- The slashes at the start of a path. Two stay two, any other number is one. -/
def leadOf (text : String) : String :=
  match (text.toList.takeWhile (· == '/')).length with
  | 0 => ""
  | 2 => "//"
  | _ => "/"

/-- The path that a text spells. -/
def ofText (text : String) : Path where
  lead := leadOf text
  names :=
    ((Chars.cut (· == '/') text.toList).map String.ofList).filter fun name =>
      ! name.isEmpty && name != "."

/-- Whether a path starts from the top. -/
def isAbsolute (path : Path) : Bool :=
  ! path.lead.isEmpty

/-- The text of a path. -/
def text (path : Path) : String :=
  if path.names.isEmpty && ! path.isAbsolute then "."
  else path.lead ++ "/".intercalate path.names

/-- The path of something in the directory at a path. -/
def child (path : Path) (name : String) : Path :=
  { path with names := path.names ++ [name] }

/-- The last name. -/
def name (path : Path) : String :=
  path.names.getLast?.getD ""

/-- The directory that a path lies in. -/
def parent (path : Path) : Path :=
  { path with names := path.names.dropLast }

/-- The two parts of a file name before and after its last dot, the dot belonging to the second
part. A dot at the start or at the end does not part the name. -/
def splitName (name : String) : String × String :=
  let cs := name.toList
  let tail := cs.reverse.takeWhile (· != '.')
  let stem := (cs.reverse.drop (tail.length + 1)).reverse
  if tail.length == cs.length || tail.isEmpty || stem.isEmpty then (name, "")
  else (String.ofList stem, String.ofList ('.' :: tail.reverse))

/-- The last name without its suffix. -/
def stem (path : Path) : String :=
  (splitName path.name).1

/-- The suffix of the last name, with its dot. -/
def suffix (path : Path) : String :=
  (splitName path.name).2

/-- The path with another suffix, unless it has no name. -/
def withSuffix? (path : Path) (suffix : String) : Option Path :=
  if path.names.isEmpty then none
  else some { path with names := path.names.dropLast ++ [path.stem ++ suffix] }

end Path

end Colloquy.Files
