import SafeClock.Shell.Command
import SafeClock.System.FileTree
import SafeClock.Text.Bytes

/-!
# The state of a shell

A shell shares a `Machine` with the commands it runs: the files, and the texts that are passed
along. What is its own, a `Context`, is copied when a part of a script runs in a shell of its own,
so that nothing this part changes there comes back.
-/

set_option autoImplicit false

namespace SafeClock.Shell

/-- Where a descriptor leads. -/
inductive Channel where
  /-- A text that is read. -/
  | input (number : Nat)
  /-- A text that is collected. -/
  | output (number : Nat)
  /-- The end of a file. -/
  | file (place : Place)
  | sink
deriving DecidableEq

/-- What a shell shares with the commands it runs. -/
structure Machine where
  tree : FileTree
  /-- What is left of each text that is read. -/
  inputs : Array (List Char) := #[]
  /-- The pieces of each text that is collected, the latest first. -/
  outputs : Array (List (List Char)) := #[]

namespace Machine

/-- The text that has been collected. -/
def collected (m : Machine) (number : Nat) : List Char :=
  ((m.outputs[number]?).getD []).reverse.flatten

/-- A machine with another text to read, and the number of that. -/
def addInput (m : Machine) (text : List Char) : Nat × Machine :=
  (m.inputs.size, { m with inputs := m.inputs.push text })

/-- A machine with another text to collect, and the number of that. -/
def addOutput (m : Machine) : Nat × Machine :=
  (m.outputs.size, { m with outputs := m.outputs.push [] })

/-- Puts text into a channel. -/
def write (m : Machine) (channel : Channel) (text : List Char) : Machine :=
  match channel with
  | .output n => { m with outputs := m.outputs.modify n (text :: ·) }
  | .file place => { m with tree := m.tree.extend place (Text.Bytes.gather text) }
  | .input _ => m
  | .sink => m

/-- What is left to read in a channel. -/
def pending (m : Machine) (channel : Channel) : List Char :=
  match channel with
  | .input n => (m.inputs[n]?).getD []
  | _ => []

/-- Leaves only a rest to read in a channel. -/
def leave (m : Machine) (channel : Channel) (rest : List Char) : Machine :=
  match channel with
  | .input n => { m with inputs := m.inputs.modify n fun _ => rest }
  | _ => m

end Machine

/-- The value of a variable. -/
structure Variable where
  value : Option (List Char)
  exported : Bool := false
  readonly : Bool := false

/-- What is a shell's own. -/
structure Context where
  /-- The name the shell was called by. -/
  name : List Char
  arguments : List (List Char) := []
  bindings : List (String × Variable) := []
  functions : List (String × Command) := []
  directory : Place
  channels : List (Nat × Channel)
  /-- The letters of the options that are set. -/
  options : List Char := []
  status : Nat := 0
  line : Nat := 1
  /-- Whether a failure is looked at by what is around it. -/
  guarded : Bool := false
  /-- What is run on a signal, or, under the number zero, when the shell ends. -/
  traps : List (Nat × List Char) := []
  /-- The variables that are put back when a function ends. -/
  locals : List (String × Option Variable) := []

namespace Context

/-- The number by which a shell knows itself. -/
def self : List Char := "4242".toList

/-- A variable. -/
def find? (c : Context) (name : String) : Option Variable :=
  (c.bindings.find? (·.1 == name)).map Prod.snd

/-- The value of a variable. -/
def value? (c : Context) (name : String) : Option (List Char) :=
  (c.find? name).bind Variable.value

/-- With something else known about a variable. -/
def put (c : Context) (name : String) (v : Variable) : Context :=
  { c with bindings := (name, v) :: c.bindings.filter (·.1 != name) }

/-- Without a variable. -/
def unset (c : Context) (name : String) : Context :=
  { c with bindings := c.bindings.filter (·.1 != name) }

/-- With another value of a variable. -/
def assign (c : Context) (name : String) (value : List Char) : Context :=
  let old := (c.find? name).getD ⟨none, false, false⟩
  c.put name { old with value := some value, exported := old.exported || c.options.contains 'a' }

/-- What is run on a signal. -/
def trap? (c : Context) (signal : Nat) : Option (List Char) :=
  (c.traps.find? (·.1 == signal)).map Prod.snd

/-- The variables that are passed on to programs. -/
def exported (c : Context) : List (String × List Char) :=
  (c.bindings.filterMap fun (name, v) =>
    if v.exported then v.value.map fun value => (name, value) else none).mergeSort
      fun x y => x.1 ≤ y.1

/-- Where a descriptor leads. -/
def channel (c : Context) (descriptor : Nat) : Channel :=
  ((c.channels.find? (·.1 == descriptor)).map Prod.snd).getD .sink

/-- With a descriptor that leads elsewhere. -/
def connect (c : Context) (descriptor : Nat) (channel : Channel) : Context :=
  { c with channels := (descriptor, channel) :: c.channels.filter (·.1 != descriptor) }

/-- The value of a parameter: a variable, an argument, or something about the shell. -/
def parameter? (c : Context) (name : String) : Option (List Char) :=
  match name with
  | "#" => some (toString c.arguments.length).toList
  | "?" => some (toString c.status).toList
  | "$" => some self
  | "!" => none
  | "-" => some c.options
  | "0" => some c.name
  | "@" => if c.arguments.isEmpty then none else some ([' '].intercalate c.arguments)
  | "*" =>
    let mark := match c.value? "IFS" with
      | none => [' ']
      | some ifs => ifs.take 1
    if c.arguments.isEmpty then none else some (mark.intercalate c.arguments)
  | _ =>
    match name.toNat? with
    | some n => if n = 0 then some c.name else c.arguments[n - 1]?
    | none => c.value? name

end Context

/-- What a shell works with. -/
structure State where
  machine : Machine
  context : Context

/-- Why a script does not go on. -/
inductive Halt where
  | exit (status : Nat)
  | killed (signal : Nat)
  /-- Loops are left, so many of them, or the outermost of these is gone on with. -/
  | skip (loops : Nat) (again : Bool)
  /-- A function is left. -/
  | back (status : Nat)

/-- Something a shell does. -/
abbrev Run := ExceptT Halt (StateM State)

namespace Run

variable {α : Type}

/-- The shell's own state. -/
def context : Run Context := return (← get).context

/-- Changes the shell's own state. -/
def modifyContext (f : Context → Context) : Run Unit :=
  modify fun s => { s with context := f s.context }

/-- Does something in a changed context. However it ends, the context is then made of the one before
and the one at the end. -/
def around (enter : Context → Context) (leave : (before after : Context) → Context)
    (body : Run α) : Run α := do
  let before ← context
  modifyContext enter
  let result ← (liftM body.run : Run (Except Halt α))
  modifyContext (leave before)
  match result with
  | .ok x => return x
  | .error h => throw h

/-- Puts text into a descriptor. -/
def say (descriptor : Nat) (text : List Char) : Run Unit :=
  modify fun s => { s with machine := s.machine.write (s.context.channel descriptor) text }

/-- Says what has gone wrong, and where. -/
def complain (text : List Char) : Run Unit := do
  let c ← context
  say 2 (c.name ++ ": ".toList ++ (toString c.line).toList ++ ": ".toList ++ text ++ ['\n'])

/-- Says what has gone wrong and ends the shell. -/
def fail (text : List Char) : Run α := do
  complain text
  throw (.exit 2)

/-- Does something in a copy of the shell. Only the status comes back; a signal strikes the shell
that has been copied. -/
def apart (body : Run Nat) : Run Nat := do
  let status ← around (fun c => { c with traps := [] }) (fun before _ => before)
    (tryCatch body fun
      | .exit n => return n
      | .back n => return n
      | .skip _ _ => return 0
      | .killed signal => throw (.killed signal))
  modifyContext fun c => { c with status }
  return status

/-- Does something and collects what it puts into the first descriptor. -/
def collecting (body : Run α) : Run (α × List Char) := do
  let (n, machine) := (← get).machine.addOutput
  modify fun s => { s with machine }
  let x ← around (fun c => c.connect 1 (.output n))
    (fun before after => { after with channels := before.channels }) body
  return (x, (← get).machine.collected n)

end Run

end SafeClock.Shell
