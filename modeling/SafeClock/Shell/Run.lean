import SafeClock.Shell.Builtin
import SafeClock.Shell.Fields
import SafeClock.Shell.Parse
import SafeClock.Shell.Sum

/-!
# Running commands

Commands are run one after the other, each to its end; in a pipeline, a command reads all that the
one before it has written. A word is expanded when its command is run. A program is a tool, or a
script, which runs in a shell of its own.

A script need not end, so running takes fuel: every step inside another one has less of it. A shell
that runs out of fuel is killed, as one is that is stopped from outside.
-/

set_option autoImplicit false

namespace SafeClock.Shell.Run

/-- Whether the output of commands is put into a word. -/
def takesOutput (w : Word) : Bool :=
  w.any fun
    | .output _ _ => true
    | _ => false

/-- The pieces of the value of a parameter. -/
def valuePieces (name : String) (quotes : Bool) : Run (List Piece) := do
  let c ← context
  if name = "@" ∨ (name = "*" ∧ !quotes) then
    if c.arguments.isEmpty then return [.nothing]
    return (c.arguments.map fun a => Piece.text a quotes (!quotes)).intersperse .border
  else
    match c.parameter? name with
    | some value => return [.text value quotes (!quotes)]
    | none =>
      if c.options.contains 'u' ∧ name ≠ "*" then fail (name.toList ++ ": parameter not set".toList)
      else return [.text [] quotes (!quotes)]

/-- Works out the text of a sum. -/
def workOut (text : List Char) : Run (List Char) := do
  match Sum.read? text with
  | none => fail ("arithmetic expression: expecting primary: \"".toList ++ text ++ ['"'])
  | some e =>
    let c ← context
    match e.value (fun name => (c.parameter? name).getD []) [] with
    | .ok (n, made) =>
      for (name, value) in made.reverse do
        assign name (toString value).toList
      return (toString n).toList
    | .error .divisionByZero =>
      fail ("arithmetic expression: division by zero: \"".toList ++ text ++ ['"'])
    | .error (.notANumber value) => fail ("Illegal number: ".toList ++ value)

/-- Ends the shell after a failure that nothing looks at, if it has been asked to. -/
def check (status : Nat) : Run Nat := do
  modifyContext fun c => { c with status }
  let c ← context
  if status ≠ 0 ∧ c.options.contains 'e' ∧ !c.guarded then throw (.exit status)
  return status

/-- Does something whose failure is looked at. -/
def guarding (body : Run Nat) : Run Nat :=
  around (fun c => { c with guarded := true })
    (fun before after => { after with guarded := before.guarded }) body

/-- Waits for a program, the end of which by a signal is only a status. -/
def surviving (program : Run Nat) : Run Nat :=
  tryCatch program fun
    | .killed signal => return (Process.Status.killed signal).code
    | halt => throw halt

/-- The variables of a shell that is started with some. -/
def given (bindings : List (String × List Char)) : List (String × Variable) :=
  bindings.map fun (name, value) => (name, ⟨some value, true, false⟩)

mutual

/-- The pieces of a part of a word. -/
def expandPart : (fuel : Nat) → Part → Run (List Piece)
  | 0, _ => throw (.killed 9)
  | fuel + 1, part => do
    match part with
    | .literal text => return [.text text false false]
    | .quoted text => return [.text text true false]
    | .sum quotes e =>
      let text := Piece.join (← expandWord fuel e)
      return [.text (← workOut text) quotes (!quotes)]
    | .output quotes body => return [.text (← captured fuel body) quotes (!quotes)]
    | .parameter quotes name operator strict argument =>
      let value := (← context).parameter? name
      let missing := match value with
        | none => true
        | some v => strict && v.isEmpty
      let alternative : Run (List Piece) := do
        let pieces ← expandWord fuel argument
        return pieces.map fun
          | .text cs quoted _ => .text cs quoted (!quoted)
          | piece => piece
      let cut (f : List Glob → List Char → List Char) : Run (List Piece) := do
        let pieces ← expandWord fuel argument
        let pattern := Pattern.read (Piece.marks pieces)
        return [.text (f pattern (value.getD [])) quotes (!quotes)]
      match operator with
      | .value => valuePieces name quotes
      | .length => return [.text (toString (value.getD []).length).toList quotes (!quotes)]
      | .default => if missing then alternative else valuePieces name quotes
      | .replace => if missing then return [.text [] quotes (!quotes)] else alternative
      | .assign =>
        if missing then
          let text := Piece.join (← expandWord fuel argument)
          assign name text
        valuePieces name quotes
      | .complain =>
        if missing then
          let text := Piece.join (← expandWord fuel argument)
          let text := if !text.isEmpty then text
            else if strict then "parameter not set or null".toList
            else "parameter not set".toList
          fail (name.toList ++ ": ".toList ++ text)
        else valuePieces name quotes
      | .dropStart longest => cut (Pattern.dropStart longest)
      | .dropEnd longest => cut (Pattern.dropEnd longest)

/-- The pieces of a word. -/
def expandWord : (fuel : Nat) → Word → Run (List Piece)
  | 0, _ => throw (.killed 9)
  | fuel + 1, word => do return (← word.mapM (expandPart fuel)).flatten

/-- The text of a word that is not split. -/
def expandText : (fuel : Nat) → Word → Run (List Char)
  | 0, _ => throw (.killed 9)
  | fuel + 1, word => do return Piece.join (← expandWord fuel word)

/-- The fields of some words. -/
def expandFields : (fuel : Nat) → List Word → Run (List (List Char))
  | 0, _ => throw (.killed 9)
  | fuel + 1, words => do
    let texts ← words.mapM fun word => do
      let pieces ← expandWord fuel word
      let s ← get
      let fields := Fields.ofPieces (← separators) pieces
      if s.context.options.contains 'f' then return fields.map (·.map Mark.char)
      else return fields.flatMap (fieldTexts s.machine.tree s.context.directory)
    return texts.flatten

/-- What commands put out, without the ends of lines at its end. -/
def captured : (fuel : Nat) → List Command → Run (List Char)
  | 0, _ => throw (.killed 9)
  | fuel + 1, body => do
    let (_, text) ← collecting (apart (runAll fuel body))
    return (text.reverse.dropWhile (· == '\n')).reverse

/-- Does something with descriptors redirected. -/
def redirecting : (fuel : Nat) → List Redirection → Run Nat → Run Nat
  | 0, _, _ => throw (.killed 9)
  | fuel + 1, redirections, body => do
    around id (fun before after => { after with channels := before.channels }) do
      if ← openAll fuel redirections then body else return 2

/-- Redirects descriptors, one after the other, as long as that can be done. -/
def openAll : (fuel : Nat) → List Redirection → Run Bool
  | 0, _ => throw (.killed 9)
  | fuel + 1, redirections => do
    match redirections with
    | [] => return true
    | .mk descriptor direction target :: rest =>
      let text ← expandText fuel target
      if ← redirect descriptor direction text then openAll fuel rest else return false

/-- Runs commands one after the other. -/
def runAll : (fuel : Nat) → List Command → Run Nat
  | 0, _ => throw (.killed 9)
  | fuel + 1, commands => do
    match commands with
    | [] => return (← context).status
    | [c] => perform fuel c
    | c :: rest =>
      let _ ← perform fuel c
      runAll fuel rest

/-- Runs a command. -/
def perform : (fuel : Nat) → Command → Run Nat
  | 0, _ => throw (.killed 9)
  | fuel + 1, command => do
    match command with
    | .simple line assignments words redirections =>
      modifyContext fun c => { c with line }
      check (← simple fuel assignments words redirections)
    | .pipeline negated commands =>
      let status ← if negated then guarding (pipeline fuel commands none)
        else pipeline fuel commands none
      if negated then
        let status := if status = 0 then 1 else 0
        modifyContext fun c => { c with status }
        return status
      else check status
    | .both first second =>
      let status ← guarding (perform fuel first)
      if status = 0 then perform fuel second else return status
    | .either first second =>
      let status ← guarding (perform fuel first)
      if status = 0 then return status else perform fuel second
    | .group body redirections => redirecting fuel redirections (runAll fuel body)
    | .inner body redirections =>
      check (← redirecting fuel redirections (apart (runAll fuel body)))
    | .choice condition body other redirections =>
      redirecting fuel redirections do
        let status ← guarding (runAll fuel condition)
        if status = 0 then runAll fuel body
        else
          modifyContext fun c => { c with status := 0 }
          runAll fuel other
    | .loop untilMet condition body redirections =>
      redirecting fuel redirections (loop fuel untilMet condition body 0)
    | .each name words body redirections =>
      redirecting fuel redirections do
        let values ← match words with
          | some words => expandFields fuel words
          | none => pure (← context).arguments
        each fuel name values body 0
    | .select word arms redirections =>
      redirecting fuel redirections do
        let text ← expandText fuel word
        modifyContext fun c => { c with status := 0 }
        select fuel text arms
    | .define name body =>
      modifyContext fun c =>
        { c with functions := (name, body) :: c.functions.filter (·.1 != name), status := 0 }
      return 0

/-- Runs commands each of which reads what the one before it has put out. -/
def pipeline : (fuel : Nat) → List Command → (input : Option (List Char)) → Run Nat
  | 0, _, _ => throw (.killed 9)
  | fuel + 1, commands, input => do
    let reading (body : Run Nat) : Run Nat := do
      match input with
      | none => body
      | some text =>
        let (n, machine) := (← get).machine.addInput text
        modify fun s => { s with machine }
        around (fun c => c.connect 0 (.input n))
          (fun before after => { after with channels := before.channels }) body
    match commands with
    | [] => return 0
    | [c] => if input.isNone then perform fuel c else apart (reading (perform fuel c))
    | c :: rest =>
      let (_, text) ← collecting (apart (reading (perform fuel c)))
      pipeline fuel rest (some text)

/-- Runs the body of a loop once. Says whether the loop goes on. -/
def turn : (fuel : Nat) → List Command → Run (Nat × Bool)
  | 0, _ => throw (.killed 9)
  | fuel + 1, body =>
    tryCatch (do return (← runAll fuel body, true)) fun
      | .skip loops again =>
        if 1 < loops then throw (.skip (loops - 1) again) else return (0, again)
      | halt => throw halt

/-- Runs commands over and over. -/
def loop : (fuel : Nat) → (untilMet : Bool) → (condition body : List Command) → (status : Nat) →
    Run Nat
  | 0, _, _, _, _ => throw (.killed 9)
  | fuel + 1, untilMet, condition, body, status => do
    let met ← guarding (runAll fuel condition)
    if (met = 0) = untilMet then
      modifyContext fun c => { c with status }
      return status
    else
      let (status, goesOn) ← turn fuel body
      if goesOn then loop fuel untilMet condition body status else return status

/-- Runs commands for each of some values. -/
def each : (fuel : Nat) → (name : String) → (values : List (List Char)) → (body : List Command) →
    (status : Nat) → Run Nat
  | 0, _, _, _, _ => throw (.killed 9)
  | fuel + 1, name, values, body, status => do
    match values with
    | [] =>
      modifyContext fun c => { c with status }
      return status
    | value :: rest =>
      assign name value
      let (status, goesOn) ← turn fuel body
      if goesOn then each fuel name rest body status else return status

/-- Runs the commands of the first arm with a pattern that matches a text. -/
def select : (fuel : Nat) → (text : List Char) → List (List Word × List Command) → Run Nat
  | 0, _, _ => throw (.killed 9)
  | fuel + 1, text, arms => do
    match arms with
    | [] => return 0
    | (patterns, body) :: rest =>
      if ← anyFits fuel text patterns then runAll fuel body else select fuel text rest

/-- Whether one of some patterns matches a text. -/
def anyFits : (fuel : Nat) → (text : List Char) → List Word → Run Bool
  | 0, _, _ => throw (.killed 9)
  | fuel + 1, text, patterns => do
    match patterns with
    | [] => return false
    | p :: rest =>
      let pieces ← expandWord fuel p
      if Pattern.isMatch (Pattern.read (Piece.marks pieces)) text then return true
      else anyFits fuel text rest

/-- Makes assignments. -/
def assignAll : (fuel : Nat) → List (String × Word) → Run Unit
  | 0, _ => throw (.killed 9)
  | fuel + 1, assignments => do
    match assignments with
    | [] => return ()
    | (name, word) :: rest =>
      assign name (← expandText fuel word)
      assignAll fuel rest

/-- Runs a command of words, assignments and redirections. -/
def simple : (fuel : Nat) → List (String × Word) → List Word → List Redirection → Run Nat
  | 0, _, _, _ => throw (.killed 9)
  | fuel + 1, assignments, words, redirections => do
    let fields ← expandFields fuel words
    match fields with
    | [] =>
      let quiet := !(words ++ assignments.map Prod.snd).any takesOutput
      redirecting fuel redirections do
        assignAll fuel assignments
        if quiet then return 0 else return (← context).status
    | name :: arguments =>
      if (← context).options.contains 'x' then
        say 2 ("+ ".toList ++ [' '].intercalate fields ++ ['\n'])
      let called := String.ofList name
      if specialBuiltins.contains called then
        assignAll fuel assignments
        if called = "exec" then
          if ← openAll fuel redirections then
            if arguments.isEmpty then return 0
            else throw (.exit (← external fuel arguments))
          else throw (.exit 2)
        else redirecting fuel redirections (invoke fuel name arguments)
      else
        around id (fun before after => { after with
          bindings := if assignments.isEmpty then after.bindings else before.bindings }) do
          assignAll fuel assignments
          modifyContext fun c => assignments.foldl (fun c (name, _) =>
            match c.find? name with
            | some v => c.put name { v with exported := true }
            | none => c) c
          redirecting fuel redirections (invoke fuel name arguments)

/-- Runs a function, a command of the shell, or a program. -/
def invoke : (fuel : Nat) → (name : List Char) → (arguments : List (List Char)) → Run Nat
  | 0, _, _ => throw (.killed 9)
  | fuel + 1, name, arguments => do
    let c ← context
    let called := String.ofList name
    match (c.functions.find? (·.1 == called)).map Prod.snd with
    | some body =>
      around (fun c => { c with arguments, locals := [] })
        (fun before after =>
          let restored := after.locals.foldl (fun c (name, old) =>
            match old with
            | some v => c.put name v
            | none => c.unset name) after
          { restored with arguments := before.arguments, locals := before.locals })
        (tryCatch (perform fuel body) fun
          | .back status => return status
          | halt => throw halt)
    | none =>
      match called with
      | "eval" =>
        let text := [' '].intercalate arguments
        modifyContext fun c => { c with status := 0 }
        source fuel { rest := text }
      | "." =>
        match arguments with
        | [] => return 0
        | path :: _ =>
          let s ← get
          match s.machine.tree.read s.context.directory (Text.Bytes.toText path) with
          | .ok content =>
            modifyContext fun c => { c with status := 0 }
            tryCatch (source fuel { rest := Text.Bytes.spread content }) fun
              | .back status => return status
              | halt => throw halt
          | .error _ => fail (".: cannot open ".toList ++ path ++ ": No such file".toList)
      | "command" =>
        match arguments with
        | ['-', 'v'] :: wanted :: _ =>
          let text := String.ofList wanted
          if isBuiltin text ∨ (c.functions.any (·.1 == text)) then
            say 1 (wanted ++ ['\n'])
            return 0
          else if (Tools.ofName? text).isSome ∨ text = "sh" then
            say 1 ("/usr/bin/".toList ++ wanted ++ ['\n'])
            return 0
          else return 127
        | wanted :: rest =>
          match ← builtin (String.ofList wanted) rest with
          | some status => return status
          | none => surviving (external fuel (wanted :: rest))
        | [] => return 0
      | "kill" =>
        let (status, text) ← sendSignal arguments
        match text with
        | none => return status
        | some text =>
          let _ ← source fuel { rest := text }
          return status
      | _ =>
        match ← builtin called arguments with
        | some status => return status
        | none => surviving (external fuel (name :: arguments))

/-- Runs a program: a tool or a shell by its name, or a file by its path. -/
def external : (fuel : Nat) → List (List Char) → Run Nat
  | 0, _ => throw (.killed 9)
  | fuel + 1, words => do
    match words with
    | [] => return 0
    | name :: arguments =>
      let s ← get
      let c := s.context
      let called := (Tools.systemName? name).getD (String.ofList name)
      if called.contains '/' then
        match s.machine.tree.find c.directory (Text.Bytes.toText name) with
        | .ok (_, .file content executable) =>
          if executable then
            inner fuel name arguments { rest := Text.Bytes.spread content } []
          else
            complain (name ++ ": Permission denied".toList)
            return 126
        | .ok _ =>
          complain (name ++ ": Permission denied".toList)
          return 126
        | .error _ =>
          complain (name ++ ": not found".toList)
          return 127
      else if called = "sh" ∨ called = "dash" then newShell fuel name arguments []
      else if called = "env" ∧ !arguments.isEmpty then
        around id (fun before _ => before) do
          for word in arguments.takeWhile fun w => w.contains '=' do
            let _ ← mark (fun v => { v with exported := true }) [word]
          match arguments.dropWhile fun w => w.contains '=' with
          | [] => callTool Tools.printenv [] [] (← context).exported
          | rest => external fuel rest
      else
        match Tools.ofName? called with
        | some tool => callTool tool arguments [] c.exported
        | none =>
          complain (name ++ ": not found".toList)
          return 127

/-- Runs a shell that is told its script by arguments: in one of them, by a path, or by its
input. -/
def newShell : (fuel : Nat) → (name : List Char) → (arguments : List (List Char)) →
    (options : List Char) → Run Nat
  | 0, _, _, _ => throw (.killed 9)
  | fuel + 1, name, arguments, options => do
    match arguments with
    | ('-' :: o :: os) :: rest =>
      let letters := o :: os
      let options := options ++ letters.filter (· != 'c')
      if letters.contains 'c' then
        match rest with
        | [] =>
          complain "-c requires an argument".toList
          return 2
        | script :: rest =>
          inner fuel (rest.head?.getD name) (rest.drop 1) { rest := script } options
      else newShell fuel name rest options
    | path :: rest =>
      let s ← get
      match s.machine.tree.read s.context.directory (Text.Bytes.toText path) with
      | .ok content => inner fuel path rest { rest := Text.Bytes.spread content } options
      | .error _ =>
        say 2 (name ++ ": 0: cannot open ".toList ++ path ++ ": No such file\n".toList)
        return 2
    | [] =>
      let s ← get
      let channel := s.context.channel 0
      let script := s.machine.pending channel
      set { s with machine := s.machine.leave channel [] }
      inner fuel name [] { rest := script } options

/-- Runs a script in a new shell. -/
def inner : (fuel : Nat) → (name : List Char) → (arguments : List (List Char)) → Source →
    (options : List Char) → Run Nat
  | 0, _, _, _, _ => throw (.killed 9)
  | fuel + 1, name, arguments, script, options =>
    around
      (fun c =>
        { name, arguments, options
          bindings := given c.exported
          directory := c.directory
          channels := c.channels })
      (fun before _ => before)
      (tryCatch (whole fuel script) fun
        | .exit status => return status
        | .back status => return status
        | .skip _ _ => return 0
        | .killed signal => throw (.killed signal))

/-- Runs a script to its end, and then what is to be run when the shell ends. -/
def whole : (fuel : Nat) → Source → Run Nat
  | 0, _ => throw (.killed 9)
  | fuel + 1, script => do
    let status ← tryCatch (source fuel script) fun
      | .killed signal => throw (.killed signal)
      | .exit status => return status
      | .back status => return status
      | .skip _ _ => return 0
    match (← context).trap? 0 with
    | none => return status
    | some text =>
      modifyContext fun c => { c with status, traps := c.traps.filter (·.1 != 0) }
      let _ ← source fuel { rest := text }
      return status

/-- Reads and runs the commands of a script. -/
def source : (fuel : Nat) → Source → Run Nat
  | 0, _ => throw (.killed 9)
  | fuel + 1, script => do
    match (Parse.next.run script : Except SyntaxError (Option (List Command) × Source)) with
    | .error e =>
      modifyContext fun c => { c with line := e.line }
      fail e.text.toList
    | .ok (none, _) => return (← context).status
    | .ok (some commands, rest) =>
      let _ ← runAll fuel commands
      source fuel rest

end

end SafeClock.Shell.Run
