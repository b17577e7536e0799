import SafeClock.Process.Status
import SafeClock.Shell.Fields
import SafeClock.Shell.Redirection
import SafeClock.Tools

/-!
# Commands of the shell itself

These commands look at the shell, or change it, and so cannot be programs of their own. Those among
them that are marked as special end the shell when they fail.
-/

set_option autoImplicit false

namespace SafeClock.Shell.Run

/-- Calls a tool with the files, the input and the variables of the shell. -/
def callTool (tool : Tools.Tool) (arguments : List (List Char))
    (lead : List Char) (bindings : List (String × List Char)) : Run Nat := do
  let s ← get
  let channel := s.context.channel 0
  let out := tool
    { arguments, bindings
      input := s.machine.pending channel
      cwd := s.context.directory
      tree := s.machine.tree }
  modify fun s => { s with machine := { s.machine with tree := out.tree } }
  if out.usesInput then modify fun s => { s with machine := s.machine.leave channel [] }
  unless out.complaints.isEmpty do
    say 2 ((Tools.lines out.complaints).1.flatMap fun line => lead ++ line ++ ['\n'])
  unless out.output.isEmpty do say 1 out.output
  return out.status

/-- Assigns to a variable, unless that is forbidden. -/
def assign (name : String) (value : List Char) : Run Unit := do
  let c ← context
  if ((c.find? name).map Variable.readonly).getD false then
    fail (name.toList ++ ": is read only".toList)
  else modifyContext (·.assign name value)

/-- Cuts a word at its first equals sign. -/
def binding (word : List Char) : String × Option (List Char) :=
  let name := word.takeWhile (· != '=')
  (String.ofList name,
    if name.length < word.length then some (word.drop (name.length + 1)) else none)

/-- Sets something known about the variables that words name, and their values if they give any. -/
def mark (f : Variable → Variable) (words : List (List Char)) : Run Nat := do
  for word in words do
    let (name, value) := binding word
    match value with
    | some value => assign name value
    | none => pure ()
    modifyContext fun c => c.put name (f ((c.find? name).getD ⟨none, false, false⟩))
  return 0

/-- Makes variables local to a function: they are put back when it ends. -/
def localize (words : List (List Char)) : Run Nat := do
  for word in words do
    let (name, value) := binding word
    modifyContext fun c => { c with locals := (name, c.find? name) :: c.locals }
    match value with
    | some value => assign name value
    | none => pure ()
  return 0

/-- Goes to another directory. -/
def changeDirectory (words : List (List Char)) : Run Nat := do
  let s ← get
  let c := s.context
  let (target, shown) := match words with
    | [] => ((c.value? "HOME").getD [], false)
    | ['-'] :: _ => ((c.value? "OLDPWD").getD [], true)
    | word :: _ => (word, false)
  match s.machine.tree.find c.directory (Text.Bytes.toText target) with
  | .ok (place, .directory) =>
    modifyContext fun c =>
      let c := c.assign "OLDPWD" (Tools.placeName c.directory)
      { c.assign "PWD" (Tools.placeName place) with directory := place }
    if shown then say 1 (Tools.placeName place ++ ['\n'])
    return 0
  | _ =>
    complain ("cd: can't cd to ".toList ++ target)
    return 2

/-- The separators of fields. -/
def separators : Run (List Char) := do
  return ((← context).value? "IFS").getD [' ', '\t', '\n']

/-- Takes a line off a text; `escaped` if a backslash stands before it. A backslash joins the next
line on, unless the text is `raw`. Answers the line, with whether each character is quoted, the
rest, and whether the line is closed. -/
def takeLine (raw : Bool) : (escaped : Bool) → List Char → List Mark × List Char × Bool
  | _, [] => ([], [], false)
  | true, c :: rest =>
    let (line, rest, closed) := takeLine raw false rest
    (if c = '\n' then line else ⟨c, true⟩ :: line, rest, closed)
  | false, c :: rest =>
    if c = '\n' then ([], rest, true)
    else if c = '\\' ∧ !raw then takeLine raw true rest
    else
      let (line, rest, closed) := takeLine raw false rest
      (⟨c, false⟩ :: line, rest, closed)

/-- Shares a line out to variables: a field to each, and what is left to the last. -/
def shareOut (separators : List Char) :
    (names : List String) → List Mark → List (String × List Char)
  | [], _ => []
  | name :: names, line =>
    let isBlank (m : Mark) : Bool :=
      !m.quoted && separators.contains m.char && [' ', '\t', '\n'].contains m.char
    let isSeparator (m : Mark) : Bool := !m.quoted && separators.contains m.char
    let line := line.dropWhile isBlank
    match names with
    | [] => [(name, ((line.reverse.dropWhile isBlank).reverse).map Mark.char)]
    | _ =>
      let field := line.takeWhile (!isSeparator ·)
      let rest := (line.drop field.length).dropWhile isBlank
      let rest := match rest with
        | m :: more => if isSeparator m then more else rest
        | [] => []
      (name, field.map Mark.char) :: shareOut separators names rest

/-- Reads a line into variables. -/
def readLine (words : List (List Char)) : Run Nat := do
  let raw := words.contains ['-', 'r']
  let names := (words.filter fun w => w.head? ≠ some '-').map String.ofList
  let s ← get
  let channel := s.context.channel 0
  let (line, rest, closed) := takeLine raw false (s.machine.pending channel)
  set { s with machine := s.machine.leave channel rest }
  for (name, value) in shareOut (← separators) names line do
    assign name value
  return if closed then 0 else 1

/-- Sets options and arguments. -/
def setOptions : (fuel : Nat) → List (List Char) → Run Nat
  | 0, _ => return 0
  | fuel + 1, words => do
    match words with
    | ['-', '-'] :: rest =>
      modifyContext fun c => { c with arguments := rest }
      return 0
    | ('-' :: c :: cs) :: rest =>
      modifyContext fun x => { x with options := (x.options ++ (c :: cs)).eraseDups }
      setOptions fuel rest
    | ('+' :: c :: cs) :: rest =>
      modifyContext fun x => { x with options := x.options.filter fun o => !(c :: cs).contains o }
      setOptions fuel rest
    | [] => return 0
    | _ =>
      modifyContext fun c => { c with arguments := words }
      return 0

/-- The number that the argument of a command writes, or a default if there is none. -/
def numberArgument (command : String) (words : List (List Char)) (default : Nat) : Run Nat :=
  match words with
  | [] => return default
  | word :: _ =>
    match Tools.number? word with
    | some n => return n
    | none => fail (command.toList ++ ": Illegal number: ".toList ++ word)

/-- The signal of a name, with or without `SIG` before it, or of a number. -/
def signal? (name : List Char) : Option Nat :=
  let name := (String.ofList name).toUpper
  match Process.signalOfName? name with
  | some n => some n
  | none =>
    if name.startsWith "SIG" then Process.signalOfName? (name.drop 3).toString
    else if name = "EXIT" then some 0
    else none

/-- Sends a signal. A shell only knows itself; no other process is there. The text to be run on the
signal is answered, if there is one. -/
def sendSignal (words : List (List Char)) : Run (Nat × Option (List Char)) := do
  let (signal, targets) := match words with
    | ['-', 's'] :: name :: rest => (signal? name, rest)
    | ('-' :: c :: cs) :: rest =>
      if c :: cs = ['-'] then (some 15, rest) else (signal? (c :: cs), rest)
    | rest => (some 15, rest)
  match signal with
  | none =>
    complain "kill: invalid signal number or name".toList
    return (2, none)
  | some signal =>
    if targets.all (· = Context.self) ∧ !targets.isEmpty then
      let caught := (← context).trap? signal
      if signal = 9 then throw (.killed 9)
      else
        match caught with
        | some text => return (0, if text.isEmpty then none else some text)
        | none => if Process.isIgnored signal then return (0, none) else throw (.killed signal)
    else
      complain "kill: No such process".toList
      return (1, none)

/-- Says what is to be run on signals. -/
def setTraps (words : List (List Char)) : Run Nat := do
  match words with
  | [] => return 0
  | action :: names =>
    for name in names do
      match signal? name with
      | some n =>
        modifyContext fun c =>
          let others := c.traps.filter (·.1 != n)
          { c with traps := if action = ['-'] then others else (n, action) :: others }
      | none => complain ("trap: ".toList ++ name ++ ": bad trap".toList)
    return 0

/-- The commands of the shell that are tools as well. -/
def plainBuiltins : List String := ["printf", "test", "[", "true", "false"]

/-- The commands of the shell whose failures end it. -/
def specialBuiltins : List String :=
  [ ":", ".", "break", "continue", "eval", "exec", "exit", "export", "readonly", "return", "set",
    "shift", "trap", "unset" ]

/-- The other commands of the shell. -/
def otherBuiltins : List String :=
  ["cd", "command", "echo", "kill", "local", "pwd", "read", "type", "umask", "wait", "hash"]

/-- Whether a name is that of a command of the shell. -/
def isBuiltin (name : String) : Bool :=
  plainBuiltins.contains name || specialBuiltins.contains name || otherBuiltins.contains name

/-- Runs a command of the shell that runs no other command; none if there is no such command. -/
def builtin (name : String) (words : List (List Char)) : Run (Option Nat) := do
  let c ← context
  match name with
  | ":" => return some 0
  | "cd" => return some (← changeDirectory words)
  | "echo" =>
    say 1 (Format.echo words)
    return some 0
  | "pwd" =>
    say 1 (Tools.placeName c.directory ++ ['\n'])
    return some 0
  | "export" => return some (← mark (fun v => { v with exported := true })
      (words.filter (· ≠ ['-', 'p'])))
  | "readonly" => return some (← mark (fun v => { v with readonly := true })
      (words.filter (· ≠ ['-', 'p'])))
  | "local" => return some (← localize words)
  | "unset" =>
    for word in words.filter fun w => w.head? ≠ some '-' do
      if words.head? = some ['-', 'f'] then
        modifyContext fun c =>
          { c with functions := c.functions.filter (·.1 != String.ofList word) }
      else modifyContext (·.unset (String.ofList word))
    return some 0
  | "set" => return some (← setOptions (words.length + 1) words)
  | "shift" =>
    let n ← numberArgument "shift" words 1
    if c.arguments.length < n then fail "shift: can't shift that many".toList
    else
      modifyContext fun c => { c with arguments := c.arguments.drop n }
      return some 0
  | "read" => return some (← readLine words)
  | "exit" => throw (.exit ((← numberArgument "exit" words c.status) % 256))
  | "return" => throw (.back ((← numberArgument "return" words c.status) % 256))
  | "break" => throw (.skip (← numberArgument "break" words 1) false)
  | "continue" => throw (.skip (← numberArgument "continue" words 1) true)
  | "trap" => return some (← setTraps words)
  | "umask" =>
    if words.isEmpty then say 1 "0022\n".toList
    return some 0
  | "wait" => return some 0
  | "hash" => return some 0
  | _ =>
    if plainBuiltins.contains name then
      match Tools.ofName? name with
      | some tool =>
        let lead := c.name ++ ": ".toList ++ (toString c.line).toList ++ ": ".toList
        return some (← callTool tool words lead c.exported)
      | none => return none
    else return none

end SafeClock.Shell.Run
