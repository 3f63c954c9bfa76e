import Colloquy.Chars.Quoted
import Colloquy.Chars.Utf8
import Colloquy.Files.Path
import Colloquy.Files.Place
import Colloquy.Ledger

/-!
# File trees

The files that a program works on, each at its place, and the working directory from which
relative paths start. Operations fail as those of an operating system do, with the reason and the
path that was asked for. A path that the system cannot be asked about, because a NUL would end it
early, fails before that, and so does a directory with too many missing ones above it.
-/

namespace Colloquy.Files

/-- What stands at a place. -/
inductive Item where
  | file (bytes : List UInt8)
  | directory
  deriving DecidableEq, Repr

/-- Files and directories. -/
structure Tree where
  /-- The working directory. -/
  home : Place
  /-- What there is, apart from the working directory and the directories above it. -/
  items : Ledger Place Item

/-- Why the system refuses an operation. -/
inductive Reason where
  | notFound
  | exists
  | notDirectory
  | isDirectory
  | nameTooLong
  deriving DecidableEq, Repr

/-- A failed operation. -/
inductive Failure where
  | refused (reason : Reason) (path : Path)
  /-- The path holds a NUL. -/
  | nul
  /-- Too many directories are missing. -/
  | tooDeep
  deriving DecidableEq, Repr

/-- The number of a reason. -/
def Reason.number : Reason → Nat
  | .notFound => 2
  | .exists => 17
  | .notDirectory => 20
  | .isDirectory => 21
  | .nameTooLong => 36

/-- A reason in words. -/
def Reason.message : Reason → String
  | .notFound => "No such file or directory"
  | .exists => "File exists"
  | .notDirectory => "Not a directory"
  | .isDirectory => "Is a directory"
  | .nameTooLong => "File name too long"

/-- A failure in words. -/
def Failure.message : Failure → String
  | .refused reason path => s!"[Errno {reason.number}] {reason.message}: {quote path.text}"
  | .nul => "embedded null byte"
  | .tooDeep => "maximum recursion depth exceeded while calling a Python object"

namespace Tree

/-- The most bytes of a name. -/
def maxNameBytes : Nat := 255

/-- The most bytes of a path. -/
def maxPathBytes : Nat := 4095

/-- A working directory without files. -/
def bare (home : Place) : Tree :=
  ⟨home, .empty⟩

/-- What stands at a place. The working directory and those above it are directories. -/
def item? (tree : Tree) (place : Place) : Option Item :=
  if place.isAbove tree.home then some .directory else tree.items.get? place

/-- The tree with something at a place. -/
def put (tree : Tree) (place : Place) (item : Item) : Tree :=
  { tree with items := tree.items.insert place item }

/-- Follows names from a place. The last name may be missing. Double dots lead to the directory
above. -/
def follow (tree : Tree) (place : Place) : List String → Except Reason Place
  | [] => .ok place
  | name :: names =>
    match tree.item? place with
    | none => .error .notFound
    | some (.file _) => .error .notDirectory
    | some .directory =>
      if maxNameBytes < name.utf8ByteSize then .error .nameTooLong
      else follow tree (if name = ".." then place.parent else place.child name) names

/-- The place that a path leads to. A path that is too long is not followed at all. -/
def locate (tree : Tree) (path : Path) : Except Failure Place :=
  if path.text.toList.contains '\x00' then .error .nul
  else if maxPathBytes < path.text.utf8ByteSize then .error (.refused .nameTooLong path)
  else
    (tree.follow (if path.isAbsolute then .top else tree.home) path.names).mapError
      (Failure.refused · path)

/-- Whether something stands at a path. A path or a name that is too long is refused even here;
whatever else keeps the path from being followed says that nothing does. -/
def exists? (tree : Tree) (path : Path) : Except Failure Bool :=
  match tree.locate path with
  | .ok place => .ok (tree.item? place).isSome
  | .error (.refused .nameTooLong path) => .error (.refused .nameTooLong path)
  | .error _ => .ok false

/-- Whether a path leads to a directory. -/
def isDirectory (tree : Tree) (path : Path) : Bool :=
  match tree.locate path with
  | .ok place => tree.item? place == some .directory
  | .error _ => false

/-- The bytes of a file. -/
def read (tree : Tree) (path : Path) : Except Failure (List UInt8) := do
  let place ← tree.locate path
  match tree.item? place with
  | some (.file bytes) => .ok bytes
  | some .directory => .error (.refused .isDirectory path)
  | none => .error (.refused .notFound path)

/-- Writes a file in a directory that exists. -/
def write (tree : Tree) (path : Path) (bytes : List UInt8) : Except Failure Tree := do
  let place ← tree.locate path
  match tree.item? place with
  | some .directory => .error (.refused .isDirectory path)
  | _ => .ok (tree.put place (.file bytes))

/-- Makes a directory in a directory that exists. -/
def makeDirectory (tree : Tree) (path : Path) : Except Failure Tree := do
  let place ← tree.locate path
  match tree.item? place with
  | some _ => .error (.refused .exists path)
  | none => .ok (tree.put place .directory)

/-- Makes a directory that may be there already. A path that is too long is refused with the same
failure when it is asked for a directory. -/
def ensureDirectory (tree : Tree) (path : Path) : Except Failure Tree :=
  match tree.makeDirectory path with
  | .ok tree => .ok tree
  | .error failure => if tree.isDirectory path then .ok tree else .error failure

/-- The most directories that may be missing above a new one. -/
def maxMissing : Nat := 986

/-- Makes the directory at the first `count` names of a path. If the directory above it is
missing, that is made first. The second number is how many more of them may be missing. -/
def makeFirst (tree : Tree) (path : Path) : Nat → Nat → Except Failure Tree
  | 0, _ => .ok tree
  | count + 1, room =>
    let here := { path with names := path.names.take (count + 1) }
    match tree.ensureDirectory here with
    | .ok tree => .ok tree
    | .error failure =>
      if failure = .refused .notFound here then
        match room with
        | 0 => .error .tooDeep
        | room + 1 => (makeFirst tree path count room).bind (·.ensureDirectory here)
      else .error failure

/-- Makes a directory with the directories above it, as far as they are missing. -/
def makeDirectories (tree : Tree) (path : Path) : Except Failure Tree :=
  makeFirst tree path path.names.length maxMissing

/-- Removes what stands at a path. -/
def delete (tree : Tree) (path : Path) : Except Failure Tree := do
  let place ← tree.locate path
  match tree.item? place with
  | some .directory => .error (.refused .isDirectory path)
  | some (.file _) => .ok { tree with items := tree.items.erase place }
  | none => .error (.refused .notFound path)

/-- The paths in a directory whose last names end in a suffix, in the order of the names. -/
def list (tree : Tree) (path : Path) (suffix : String) : List Path :=
  match tree.locate path with
  | .error _ => []
  | .ok place =>
    if tree.item? place = some .directory then
      let inside := tree.items.keys.filterMap fun key =>
        if key.parent = place then key.name? else none
      ((inside.filter fun name => suffix.toList.isSuffixOf name.toList).mergeSort (· ≤ ·)).map
        path.child
    else []

/-- The files of a tree that another tree does not have, or not with the same bytes. -/
def changes (tree before : Tree) : List (Place × List UInt8) :=
  tree.items.entries.filterMap fun (place, item) =>
    match item with
    | .file bytes => if before.items.get? place = some item then none else some (place, bytes)
    | .directory => none

/-- The changes in the working directory, under paths that start there, in the order of the
paths. -/
def changesAtHome (tree before : Tree) : List (String × List UInt8) :=
  let inside := (tree.changes before).filter fun (place, _) => tree.home.isAbove place
  let named := inside.map fun (place, bytes) =>
    (Path.text { names := place.names.drop tree.home.depth }, bytes)
  named.mergeSort fun a b => a.1 ≤ b.1

end Tree

end Colloquy.Files
