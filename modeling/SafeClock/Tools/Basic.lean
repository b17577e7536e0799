import SafeClock.System.FileTree
import SafeClock.Text.Bytes

/-!
# Calls of tools

A tool is a program that does one thing. It is called with arguments and an input, in a directory of
a tree of files; it answers an output, complaints, a status and the tree as it leaves it. All text
is bytes as characters.
-/

set_option autoImplicit false

namespace SafeClock.Tools

/-- A call of a tool. -/
structure Call where
  arguments : List (List Char)
  input : List Char
  cwd : Place
  tree : FileTree
  /-- The variables that the tool is given. -/
  bindings : List (String × List Char)

/-- What a call comes to. -/
structure Outcome where
  tree : FileTree
  output : List Char := []
  complaints : List Char := []
  status : Nat := 0
  /-- Whether the input has been used up. -/
  usesInput : Bool := false

/-- A tool. -/
abbrev Tool := Call → Outcome

/-- Bytes as characters, from a text. -/
def bytes (s : String) : List Char := Text.Bytes.ofText s

namespace Call

/-- A call that changes no file. -/
def answer (c : Call) (output : List Char) (status : Nat) : Outcome :=
  { tree := c.tree, output, status }

/-- A call that fails with a complaint. -/
def refuse (c : Call) (status : Nat) (complaint : List Char) : Outcome :=
  { tree := c.tree, complaints := complaint ++ ['\n'], status }

/-- What stands at a path: the bytes of a file, or why they cannot be read. -/
def read (c : Call) (path : List Char) : Except OsError (List Char) :=
  (c.tree.read c.cwd (Text.Bytes.toText path)).map Text.Bytes.spread

/-- The texts that some paths lead to, a dash being the input; without paths, the input. A path
that cannot be read is complained about. -/
def sources (c : Call) (name : String) (paths : List (List Char)) :
    List (List Char × Except (List Char) (List Char)) :=
  (if paths.isEmpty then [['-']] else paths).map fun path =>
    if path = ['-'] then (path, .ok c.input)
    else
      (path, (c.read path).mapError fun e =>
        bytes name ++ ": ".toList ++ path ++ ": ".toList ++ bytes e.reason)

/-- Whether the input is among the sources. -/
def asksInput (paths : List (List Char)) : Bool := paths.isEmpty || paths.contains ['-']

/-- A call that makes something of each source. -/
def perSource (c : Call) (name : String) (paths : List (List Char))
    (f : List Char → List Char) : Outcome :=
  let found := c.sources name paths
  let complaints := found.flatMap fun (_, s) => match s with
    | .ok _ => []
    | .error complaint => complaint ++ ['\n']
  { tree := c.tree
    output := found.flatMap fun (_, s) => match s with
      | .ok text => f text
      | .error _ => []
    complaints
    status := if complaints.isEmpty then 0 else 1
    usesInput := asksInput paths }

end Call

/-! ## Lines -/

/-- The lines of a text, and whether the last one is closed. -/
def lines (text : List Char) : List (List Char) × Bool :=
  let parts := text.splitOn '\n'
  if parts.getLast? = some [] then (parts.dropLast, true) else (parts, false)

/-- A text of lines that are all closed. -/
def unlines (ls : List (List Char)) : List Char := ls.flatMap (· ++ ['\n'])

/-! ## Options -/

/-- Options, with the values of those that take one, and operands. -/
structure Options where
  given : List (Char × List Char) := []
  operands : List (List Char) := []

namespace Options

/-- Whether an option is given. -/
def has (o : Options) (letter : Char) : Bool := o.given.any (·.1 == letter)

/-- The value of the last option of a letter. -/
def value? (o : Options) (letter : Char) : Option (List Char) :=
  (o.given.reverse.find? (·.1 == letter)).map Prod.snd

/-- The values of all options of a letter. -/
def values (o : Options) (letter : Char) : List (List Char) :=
  (o.given.filter (·.1 == letter)).map Prod.snd

/-- Reads the letters of one argument; the last may take the next argument as its value. Answers
the options and whether the next argument is taken. -/
def letters (plain valued : List Char) (next : Option (List Char)) :
    List Char → Except Char (List (Char × List Char) × Bool)
  | [] => .ok ([], false)
  | c :: rest =>
    if valued.contains c then
      if rest.isEmpty then
        match next with
        | some value => .ok ([(c, value)], true)
        | none => .error c
      else .ok ([(c, rest)], false)
    else if plain.contains c then
      (letters plain valued next rest).map fun (given, taken) => ((c, []) :: given, taken)
    else .error c

/-- Reads arguments. Options may stand behind operands, but not behind a double dash. Answers the
letter that is no option, if there is one. -/
def read (plain valued : List Char) : (fuel : Nat) → List (List Char) → Except Char Options
  | 0, _ => .ok {}
  | fuel + 1, arguments =>
    match arguments with
    | [] => .ok {}
    | ['-', '-'] :: rest => .ok { operands := rest }
    | ('-' :: c :: cs) :: rest => do
      let (given, taken) ← letters plain valued rest.head? (c :: cs)
      let o ← read plain valued fuel (if taken then rest.drop 1 else rest)
      return { o with given := given ++ o.given }
    | operand :: rest => do
      let o ← read plain valued fuel rest
      return { o with operands := operand :: o.operands }

end Options

/-- A tool that is told its options. -/
def withOptions (name : String) (plain valued : String) (status : Nat)
    (f : Options → Tool) : Tool := fun c =>
  match Options.read plain.toList valued.toList (c.arguments.length + 1) c.arguments with
  | .ok o => f o c
  | .error letter =>
    c.refuse status (bytes s!"{name}: invalid option -- '" ++ [letter, '\''])

/-- The number that a text of digits writes. -/
def number? (cs : List Char) : Option Nat :=
  if cs.isEmpty ∨ !cs.all Char.isDigit then none
  else some (cs.foldl (fun n d => 10 * n + (d.toNat - '0'.toNat)) 0)

/-- The whole number that a text writes. -/
def integer? (cs : List Char) : Option Int :=
  match cs with
  | '-' :: rest => (number? rest).map fun n => -Int.ofNat n
  | _ => (number? cs).map Int.ofNat

end SafeClock.Tools
