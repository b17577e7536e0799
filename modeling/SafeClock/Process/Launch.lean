import SafeClock.Shell.Run

/-!
# Starting programs

A `Launch` names a program, its arguments and the directory to start it in. A program that cannot be
started leaves no trace; one that can runs to its end, with nothing to read, and what it puts out is
collected. A name without a slash is looked up among the programs of the system. A path must lead to
a file that may be run and whose first line names a program of the system, which then runs the file.
-/

set_option autoImplicit false

namespace SafeClock.Process

/-- A program to be started. -/
structure Launch where
  program : String
  arguments : List String
  /-- The directory it starts in, seen from where it is started. -/
  directory : String
deriving DecidableEq, Repr

/-- What has become of a program that was started. -/
structure Ended where
  status : Status
  output : List Char
  complaints : List Char
  tree : FileTree

namespace Launch

/-- The program and its arguments, with spaces between them. -/
def text (l : Launch) : String := " ".intercalate (l.program :: l.arguments)

/-- The depth that commands may be nested to, and the length a script may have. -/
def fuel : Nat := 1000000

/-- The program that the first line of a file names, and what follows it there. -/
def interpreter? (content : List Char) : Option (List Char × List (List Char)) :=
  match content with
  | '#' :: '!' :: rest =>
    let blank (c : Char) : Bool := c == ' ' || c == '\t'
    let line := ((rest.takeWhile (· != '\n')).dropWhile blank).reverse.dropWhile blank |>.reverse
    let name := line.takeWhile (!blank ·)
    let argument := (line.drop name.length).dropWhile blank
    some (name, if argument.isEmpty then [] else [argument])
  | _ => none

/-- Whether a name is that of a program of the system. -/
def isProgram (name : String) : Bool :=
  ["sh", "dash"].contains name || (Tools.ofName? name).isSome

/-- The words that are run to start a program in a directory, or why it cannot be started. -/
def words (tree : FileTree) (directory : Place) (program : String) (arguments : List (List Char)) :
    Except OsError (List (List Char)) :=
  let name := Text.Bytes.ofText program
  match Tools.systemName? name with
  | some known => if isProgram known then .ok (known.toList :: arguments) else .error .notFound
  | none =>
    if !program.toList.contains '/' then
      if isProgram program then .ok (name :: arguments) else .error .notFound
    else
      match tree.find directory program with
      | .error e => .error e
      | .ok (_, .file content true) =>
        match interpreter? (Text.Bytes.spread content) with
        | none => .error .execFormat
        | some (interpreter, given) =>
          match Tools.systemName? interpreter with
          | some known =>
            if isProgram known then .ok (known.toList :: given ++ name :: arguments)
            else .error .notFound
          | none => .error .notFound
      | .ok _ => .error .permissionDenied

/-- Runs words in a directory. -/
def runWords (tree : FileTree) (directory : Place) (bindings : List (String × List Char))
    (ws : List (List Char)) : Ended :=
  let start : Shell.State :=
    { machine := { tree, inputs := #[[]], outputs := #[[], []] }
      context :=
        { name := ws.head?.getD [], directory
          bindings := Shell.Run.given bindings
          channels := [(0, .input 0), (1, .output 0), (2, .output 1)] } }
  let (result, final) := (ExceptT.run (Shell.Run.external fuel ws)).run start
  let status := match result with
    | .ok code => .exited code
    | .error (.exit code) => .exited code
    | .error (.killed signal) => .killed signal
    | .error (.back code) => .exited code
    | .error (.skip _ _) => .exited 0
  { status
    output := final.machine.collected 0
    complaints := final.machine.collected 1
    tree := final.machine.tree }

/-- Starts a program, seen from a directory of a tree, and waits for its end. -/
def run (l : Launch) (tree : FileTree) (cwd : Place) (environment : List (String × String)) :
    Except OsError Ended :=
  if (l.program :: l.directory :: l.arguments).any fun s => s.toList.contains '\x00' then
    .error (.other "nul byte found in provided data")
  else
    match tree.find cwd l.directory with
    | .error e => .error e
    | .ok (place, .directory) =>
      let bindings := environment.map fun (name, value) => (name, Text.Bytes.ofText value)
      (words tree place l.program (l.arguments.map Text.Bytes.ofText)).map
        (runWords tree place bindings)
    | .ok _ => .error .notADirectory

end Launch

end SafeClock.Process
