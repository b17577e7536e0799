import SafeClock.Shell.State

/-!
# Redirections

A redirection makes a descriptor lead to a file, to a text below the command, or to where another
descriptor leads. A file that is written is made if need be, and emptied unless it is added to.
-/

set_option autoImplicit false

namespace SafeClock.Shell.Run

/-- Why a file could not be opened, in the words of a shell. -/
def openFault (making : Bool) : OsError → String
  | .notFound => if making then "Directory nonexistent" else "No such file"
  | .notADirectory => if making then "Directory nonexistent" else "No such file"
  | e => e.reason

/-- The descriptor that a path stands for, if it stands for one. -/
def namedDescriptor? (path : String) : Option Nat :=
  match path with
  | "/dev/stdin" => some 0
  | "/dev/stdout" => some 1
  | "/dev/stderr" => some 2
  | _ => if path.startsWith "/dev/fd/" then (path.drop 8).toNat? else none

/-- Opens a file to read, and answers where it is read. -/
def openInput (path : String) : Run (Except OsError Channel) := do
  let s ← get
  match s.machine.tree.find s.context.directory path with
  | .error e => return .error e
  | .ok (_, .file content _) =>
    let (n, machine) := s.machine.addInput (Text.Bytes.spread content)
    set { s with machine }
    return .ok (.input n)
  | .ok (_, _) => return .ok .sink

/-- Opens a file to write, and answers where it is written. -/
def openOutput (path : String) (emptied : Bool) : Run (Except OsError Channel) := do
  let s ← get
  let tree := s.machine.tree
  match tree.writable s.context.directory path with
  | .error e => return .error e
  | .ok (place, executable) =>
    match tree.at? place with
    | some .sink => return .ok .sink
    | found =>
      let tree := if emptied || found.isNone then tree.fill place ByteArray.empty executable
        else tree
      set { s with machine := { s.machine with tree } }
      return .ok (.file place)

/-- Redirects a descriptor to a target. Says whether that could be done, after a complaint if it
could not. -/
def redirect (descriptor : Nat) (direction : Direction) (target : List Char) : Run Bool := do
  let connect (channel : Channel) : Run Bool := do
    modifyContext (·.connect descriptor channel)
    return true
  let path := Text.Bytes.toText target
  let viaFile (making : Bool) (opened : Run (Except OsError Channel)) : Run Bool := do
    match namedDescriptor? path with
    | some n => connect ((← context).channel n)
    | none =>
      match ← opened with
      | .ok channel => connect channel
      | .error e =>
        complain ((if making then "cannot create " else "cannot open ").toList ++ target ++
          ": ".toList ++ (openFault making e).toList)
        return false
  match direction with
  | .here =>
    let s ← get
    let (n, machine) := s.machine.addInput target
    set { s with machine }
    connect (.input n)
  | .copy =>
    if target = ['-'] then connect .sink
    else
      match path.toNat? with
      | some n => connect ((← context).channel n)
      | none => fail ("Syntax error: Bad fd number".toList)
  | .read => viaFile false (openInput path)
  | .write => viaFile true (openOutput path true)
  | .append => viaFile true (openOutput path false)

end SafeClock.Shell.Run
