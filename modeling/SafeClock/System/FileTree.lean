import SafeClock.System.OsError
import SafeClock.Text.Blank

/-!
# A tree of files

A `Place` names a file or a directory by the names that lead to it from the root. A `FileTree` says
what stands at each place; the root is always a directory. Paths are texts: `resolve` follows one
from a working directory, through directories that exist, and answers the place it leads to, which
need not be occupied.

> **one place at a time**: `put` changes what stands at its place and at no other
> (`at_put_self`, `at_put_of_ne`).
-/

set_option autoImplicit false

namespace SafeClock

/-- The names that lead from the root to a place. -/
abbrev Place := List String

/-- What can stand at a place. -/
inductive Node where
  | file (content : ByteArray) (executable : Bool)
  | directory
  /-- A device that is always empty and takes in whatever is written to it. -/
  | sink

/-- Whether two places hold the same thing, byte for byte. -/
def Node.agrees : Node → Node → Bool
  | .file a x, .file b y => a.data == b.data && x == y
  | .directory, .directory => true
  | .sink, .sink => true
  | _, _ => false

/-- What stands at each place. -/
structure FileTree where
  nodes : List (Place × Node)

namespace FileTree

/-- A tree that holds the root and nothing else. -/
def empty : FileTree := ⟨[]⟩

/-- What stands at a place. -/
def at? (t : FileTree) (place : Place) : Option Node :=
  match place with
  | [] => some .directory
  | _ => (t.nodes.find? (·.1 == place)).map Prod.snd

/-- The tree with something else at a place. -/
def put (t : FileTree) (place : Place) (node : Node) : FileTree :=
  ⟨(place, node) :: t.nodes.filter (·.1 != place)⟩

/-- The tree with nothing at a place, nor below it. -/
def remove (t : FileTree) (place : Place) : FileTree :=
  ⟨t.nodes.filter fun entry => !place.isPrefixOf entry.1⟩

/-- The places directly below a directory. -/
def children (t : FileTree) (place : Place) : List Place :=
  (t.nodes.map Prod.fst).filter fun p => p.dropLast == place && p != []

theorem at_put_self (t : FileTree) {place : Place} (node : Node) (h : place ≠ []) :
    (t.put place node).at? place = some node := by
  cases place with
  | nil => exact absurd rfl h
  | cons name rest => simp [at?, put]

theorem at_put_of_ne (t : FileTree) {place other : Place} (node : Node) (h : other ≠ place) :
    (t.put place node).at? other = t.at? other := by
  cases other with
  | nil => rfl
  | cons name rest =>
    have hne : (place == name :: rest) = false := by
      simpa using fun he => h he.symm
    have keep : ∀ nodes : List (Place × Node),
        (nodes.filter (·.1 != place)).find? (·.1 == name :: rest) =
          nodes.find? (·.1 == name :: rest) := by
      intro nodes
      induction nodes with
      | nil => rfl
      | cons x xs ih =>
        by_cases hx : x.1 = place
        · have : (x.1 == name :: rest) = false := by rw [hx]; exact hne
          simp [hx, ih, List.find?, hne]
        · have : (x.1 != place) = true := by simpa using hx
          simp only [List.filter_cons, this, if_true, List.find?_cons]
          split <;> simp_all
    simp [at?, put, hne, keep]

/-! ## Following paths -/

/-- The longest name that a place can have, in bytes. -/
def nameLimit : Nat := 255

/-- Follows names down from a place. Every place that a name leads on from must be a directory. -/
def walk (t : FileTree) : Place → List String → Except OsError Place
  | here, [] => .ok here
  | here, name :: rest =>
    match t.at? here with
    | none => .error .notFound
    | some (.file _ _) => .error .notADirectory
    | some .sink => .error .notADirectory
    | some .directory =>
      if name = "." then t.walk here rest
      else if name = ".." then t.walk here.dropLast rest
      else if nameLimit < name.utf8ByteSize then .error .nameTooLong
      else t.walk (here ++ [name]) rest

/-- The names of a path. A slash at its end asks for a directory, as the name of the directory
itself does. -/
def names (path : String) : List String :=
  let parts := ((Text.pieces (· == '/') path.toList).filter (!·.isEmpty)).map String.ofList
  if path.endsWith "/" then parts ++ ["."] else parts

/-- The place a path leads to from a working directory. -/
def resolve (t : FileTree) (cwd : Place) (path : String) : Except OsError Place :=
  if path.isEmpty then .error .notFound
  else if path.toList.contains '\x00' then
    .error (.other "file name contained an unexpected NUL byte")
  else t.walk (if path.startsWith "/" then [] else cwd) (names path)

/-- What a path leads to. -/
def find (t : FileTree) (cwd : Place) (path : String) : Except OsError (Place × Node) := do
  let place ← t.resolve cwd path
  match t.at? place with
  | some node => .ok (place, node)
  | none => .error .notFound

/-- Whether a path leads to a file. -/
def isFile (t : FileTree) (cwd : Place) (path : String) : Bool :=
  match t.find cwd path with
  | .ok (_, .file _ _) => true
  | _ => false

/-- Whether a path leads to a directory. -/
def isDirectory (t : FileTree) (cwd : Place) (path : String) : Bool :=
  match t.find cwd path with
  | .ok (_, .directory) => true
  | _ => false

/-! ## Files -/

/-- The bytes of a file. -/
def read (t : FileTree) (cwd : Place) (path : String) : Except OsError ByteArray :=
  match t.find cwd path with
  | .ok (_, .file content _) => .ok content
  | .ok (_, .directory) => .error .isADirectory
  | .ok (_, .sink) => .ok ByteArray.empty
  | .error e => .error e

/-- The text of a file. -/
def readText (t : FileTree) (cwd : Place) (path : String) : Except OsError String :=
  match t.read cwd path with
  | .ok content =>
    match String.fromUTF8? content with
    | some text => .ok text
    | none => .error .invalidText
  | .error e => .error e

/-- The place of a file that can be written: a file, or a place where one can be made. -/
def writable (t : FileTree) (cwd : Place) (path : String) : Except OsError (Place × Bool) :=
  match t.resolve cwd path with
  | .error .notFound =>
    if path.endsWith "/" ∧ (t.resolve cwd (path.dropEndWhile '/').toString).isOk then
      .error .isADirectory
    else .error .notFound
  | .error e => .error e
  | .ok place =>
    match t.at? place with
    | some .directory => .error .isADirectory
    | some (.file _ executable) => .ok (place, executable)
    | some .sink => .ok (place, false)
    | none =>
      match t.at? place.dropLast with
      | some .directory => .ok (place, false)
      | some _ => .error .notADirectory
      | none => .error .notFound

/-- The tree with a file's bytes replaced at a place that can be written. -/
def fill (t : FileTree) (place : Place) (content : ByteArray) (executable : Bool) : FileTree :=
  match t.at? place with
  | some .sink => t
  | _ => t.put place (.file content executable)

/-- The tree with a file's bytes replaced; the file is made if need be. -/
def write (t : FileTree) (cwd : Place) (path : String) (content : ByteArray) :
    Except OsError FileTree :=
  match t.writable cwd path with
  | .ok (place, executable) => .ok (t.fill place content executable)
  | .error e => .error e

/-- The tree with bytes added to the end of a file. -/
def extend (t : FileTree) (place : Place) (bytes : ByteArray) : FileTree :=
  match t.at? place with
  | some (.file content executable) => t.put place (.file (content ++ bytes) executable)
  | _ => t

/-- The tree with a directory at a place, and at every place above it. -/
def makeDirectories (t : FileTree) (place : Place) : FileTree :=
  (List.range place.length).foldl (fun t i =>
    let above := place.take (i + 1)
    match t.at? above with
    | some _ => t
    | none => t.put above .directory) t

/-- The place that a path names without looking at a tree. -/
def lexical (base : Place) (path : String) : Place :=
  (names path).foldl (fun here name =>
    if name = "." then here else if name = ".." then here.dropLast else here ++ [name]) base

end FileTree

end SafeClock
