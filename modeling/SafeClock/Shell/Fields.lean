import SafeClock.Shell.Pattern
import SafeClock.System.FileTree
import SafeClock.Text.Bytes

/-!
# From words to fields

When the parts of a word have been expanded, what has come out of them without quotes is split where
there are separators, and fields that are patterns are replaced with the files they match. Only what
is quoted, or has stood in the script, is never split.
-/

set_option autoImplicit false

namespace SafeClock.Shell

/-- A piece of an expanded word. -/
inductive Piece where
  | text (cs : List Char) (quoted splits : Bool)
  /-- The border between two fields. -/
  | border
  /-- A list of no arguments: if there is nothing else, there is no field. -/
  | nothing
deriving DecidableEq, Repr

namespace Piece

/-- The text of pieces that are not split. -/
def join (pieces : List Piece) : List Char :=
  pieces.flatMap fun
    | text cs _ _ => cs
    | border => [' ']
    | nothing => []

/-- The characters of pieces that are not split, with whether they are quoted. -/
def marks (pieces : List Piece) : List Mark :=
  pieces.flatMap fun
    | text cs quoted _ => cs.map fun c => ⟨c, quoted⟩
    | border => [⟨' ', true⟩]
    | nothing => []

end Piece

/-- Fields under way: those that are complete, the latest first, and the one that has begun. -/
structure Fields where
  complete : List (List Mark) := []
  current : Option (List Mark) := none
  /-- Whether an empty field counts as none. -/
  mayVanish : Bool := false

namespace Fields

/-- With the field that has begun complete. -/
def close (f : Fields) : Fields :=
  match f.current with
  | none => { f with mayVanish := false }
  | some [] =>
    { f with
      complete := if f.mayVanish then f.complete else [] :: f.complete
      current := none, mayVanish := false }
  | some marks => { complete := marks :: f.complete, current := none }

/-- With text added to the field. -/
def add (f : Fields) (marks : List Mark) : Fields :=
  { f with current := some (f.current.getD [] ++ marks) }

/-- With a character added that may be a separator. One that is not blank ends a field even if that
has not begun. -/
def addSplit (separators : List Char) (f : Fields) (c : Char) : Fields :=
  if separators.contains c then
    if [' ', '\t', '\n'].contains c then f.close
    else { f with current := some (f.current.getD []) }.close
  else f.add [⟨c, false⟩]

/-- With a piece added. -/
def addPiece (separators : List Char) (f : Fields) : Piece → Fields
  | .text cs quoted splits =>
    if quoted then f.add (cs.map fun c => ⟨c, true⟩)
    else if splits then cs.foldl (addSplit separators) f
    else if cs.isEmpty then f
    else f.add (cs.map fun c => ⟨c, false⟩)
  | .border => f.close
  | .nothing => { f with mayVanish := true }

/-- The fields of a word. -/
def ofPieces (separators : List Char) (pieces : List Piece) : List (List Mark) :=
  ((pieces.foldl (addPiece separators) {}).close).complete.reverse

end Fields

/-! ## Files that match -/

/-- Cuts a field at its slashes. -/
def slashParts (marks : List Mark) : List (List Mark) :=
  marks.foldr (fun m parts =>
    if m.char = '/' then [] :: parts
    else
      match parts with
      | part :: rest => (m :: part) :: rest
      | [] => [[m]]) [[]]

/-- The paths that match the parts of a pattern, each of which is below a place and written behind
the path to that. -/
def matching (tree : FileTree) : List (List Mark) → Place → List Char → List (List Char)
  | [], _, _ => []
  | part :: rest, here, path =>
    let text := part.map Mark.char
    let goOn (place : Place) (name : List Char) : List (List Char) :=
      let path := path ++ name
      if rest.isEmpty then (if (tree.at? place).isSome then [path] else [])
      else
        match tree.at? place with
        | some .directory => matching tree rest place (path ++ ['/'])
        | _ => []
    if Pattern.isOpen part then
      let pattern := Pattern.read part
      let names := ((tree.children here).filterMap List.getLast?).map Text.Bytes.ofText
      let fitting := names.filter fun name =>
        (name.head? ≠ some '.' || text.head? = some '.') && Pattern.isMatch pattern name
      (fitting.mergeSort fun x y => !decide (y < x)).flatMap fun name =>
        goOn (here ++ [Text.Bytes.toText name]) name
    else if text.isEmpty then goOn here []
    else if text = ['.'] then goOn here text
    else if text = ['.', '.'] then goOn here.dropLast text
    else goOn (here ++ [Text.Bytes.toText text]) text

/-- The texts a field stands for: the files that match it if it is a pattern and there are any, else
itself. -/
def fieldTexts (tree : FileTree) (cwd : Place) (marks : List Mark) : List (List Char) :=
  let plain := marks.map Mark.char
  if Pattern.isOpen marks then
    let parts := slashParts marks
    let found := match parts with
      | [] :: rest => matching tree rest [] ['/']
      | _ => matching tree parts cwd []
    if found.isEmpty then [plain] else found
  else [plain]

end SafeClock.Shell
