import SafeClock.Tools.Edit.Instruction

/-!
# Editing a stream of lines

`sed` goes through lines, and through its instructions for each of them. It works on a line at hand
and can put text aside. A block that is not entered is jumped over.
-/

set_option autoImplicit false

namespace SafeClock.Tools.Edit

open SafeClock.Text (Expression)

/-- How far the editing has come. -/
structure State where
  line : List Char := []
  /-- Whether the line at hand is closed in the input. -/
  closed : Bool := true
  number : Nat := 0
  rest : List (List Char)
  lastClosed : Bool
  aside : List Char := []
  /-- The output so far, the latest piece first. -/
  output : List (List Char) := []
  /-- Whether the last line of the output lacks its end. -/
  unclosed : Bool := false
  appended : List Char := []
  substituted : Bool := false
  lastUsed : Option Expression := none
  /-- The instructions whose stretch of lines has begun, and the number of its last line if that is
  known. -/
  begun : List (Nat × Option Nat) := []
  status : Nat := 0

namespace State

/-- With text put out. -/
def put (s : State) (text : List Char) (closed : Bool) : State :=
  let text := if closed then text ++ ['\n'] else text
  { s with
    output := (if s.unclosed then '\n' :: text else text) :: s.output
    unclosed := !closed }

/-- With the line at hand put out. -/
def putLine (s : State) : State := s.put s.line s.closed

/-- With the text put out that has been waiting for the end of the line. -/
def flush (s : State) : State :=
  if s.appended.isEmpty then s
  else { s.put (s.appended.dropLast) true with appended := [] }

/-- Whether the line at hand is the last one. -/
def isLast (s : State) : Bool := s.rest.isEmpty

/-- With the next line at hand, behind a text; none if there is no more. -/
def advance? (s : State) (behind : List Char) : Option State :=
  match s.rest with
  | [] => none
  | next :: rest =>
    some { s with
      line := behind ++ next, number := s.number + 1, rest
      closed := !rest.isEmpty || s.lastClosed }

/-- Whether an address is that of the line at hand, and the state with the expression used. -/
def isAt (s : State) (a : Address) : Bool × State :=
  match a with
  | .number n => (s.number == n, s)
  | .last => (s.isLast, s)
  | .every first step =>
    (if step = 0 then s.number == first
      else first ≤ s.number && (s.number - first) % step == 0, s)
  | .found e =>
    match e.or s.lastUsed with
    | some e => (e.isFoundIn s.line, { s with lastUsed := some e })
    | none => (false, s)

/-- Whether the stretch of lines of an instruction goes on, and whether the line at hand is its
last. -/
def covers (s : State) (index : Nat) (lines : Lines) : Bool × State :=
  let close (s : State) : State := { s with begun := s.begun.filter (·.1 != index) }
  let enter (s : State) (last : Option Nat) : State :=
    { s with begun := (index, last) :: s.begun.filter (·.1 != index) }
  match lines with
  | .all => (true, s)
  | .at a => s.isAt a
  | .onward first more =>
    match s.begun.find? (·.1 == index) with
    | some (_, last) => (true, if last.any (· ≤ s.number) then close s else s)
    | none =>
      let (here, s) := s.isAt first
      (here, if here && 0 < more then enter s (some (s.number + more)) else s)
  | .between first final =>
    match s.begun.find? (·.1 == index) with
    | some _ =>
      match final with
      | .number n =>
        if n < s.number then
          let (here, s) := (close s).isAt first
          (here, s)
        else (true, if s.number = n then close s else s)
      | _ =>
        let (ends, s) := s.isAt final
        (true, if ends then close s else s)
    | none =>
      let (here, s) := s.isAt first
      let more := match final with
        | .number n => s.number < n
        | .last => !s.isLast
        | _ => true
      (here, if here && more then enter s none else s)

/-- Whether an instruction is for the line at hand. -/
def selects (s : State) (index : Nat) (selection : Selection) : Bool × State :=
  let (covered, s) := s.covers index selection.lines
  (covered != selection.negated, s)

end State

/-- The text that a replacement comes to for a match. -/
def expand (pieces : List Piece) (whole : List Char) (found : Text.Spot) : List Char :=
  pieces.flatMap fun
    | .text c => [c]
    | .group 0 => whole
    | .group n => (found.group? n).getD []

/-- Replaces matches from one of a number on. Answers the text, and whether there was one. A match
of nothing right behind another match does not count. -/
def substitute (e : Expression) (pieces : List Piece) (all : Bool) (wanted : Nat) :
    (fuel : Nat) → (count : Nat) → (before : Option Char) → (behindMatch : Bool) → List Char →
    List Char × Bool
  | 0, _, _, _, text => (text, false)
  | fuel + 1, count, before, behindMatch, text =>
    match e.search? before text with
    | none => (text, false)
    | some (passed, s, t) =>
      let n := s.rest.length - t.rest.length
      let whole := s.rest.take n
      if n = 0 ∧ behindMatch ∧ passed.isEmpty then
        match text with
        | [] => ([], false)
        | c :: rest =>
          let (behind, done) := substitute e pieces all wanted fuel count (some c) false rest
          (c :: behind, done)
      else
        let count := count + 1
        let taken := wanted ≤ count
        let new := if taken then expand pieces whole t else whole
        if taken ∧ !all then (passed ++ new ++ t.rest, true)
        else
          let (behind, done) :=
            substitute e pieces all wanted fuel count (t.before.or before) true t.rest
          (passed ++ new ++ behind, taken || done)

/-- Where an instruction leads to. -/
inductive Onward where
  | on
  | jump (index : Nat)
  /-- The end of the instructions for this line. -/
  | finish
  /-- The end of the instructions, without the line being put out. -/
  | drop
  /-- The first instruction again, with the line as it is. -/
  | again
  | quit (printing : Bool)

/-- The index behind the end of the block that begins at an index. -/
def behindBlock (program : List Instruction) : (fuel : Nat) → (depth index : Nat) → Nat
  | 0, _, index => index
  | fuel + 1, depth, index =>
    match (program[index]?).map Instruction.action with
    | some .openBlock => behindBlock program fuel (depth + 1) (index + 1)
    | some .closeBlock =>
      if depth ≤ 1 then index + 1 else behindBlock program fuel (depth - 1) (index + 1)
    | _ => behindBlock program fuel depth (index + 1)

/-- The index of a label; without a name, the end. -/
def labelIndex (program : List Instruction) (name : List Char) : Nat :=
  if name.isEmpty then program.length
  else
    (program.findIdx? fun i => match i.action with
      | .label l => l == name
      | _ => false).getD program.length

/-- Does an action that the line at hand is selected for. -/
def perform (program : List Instruction) (quiet : Bool) (s : State) : Action → Onward × State
  | .substitute e pieces all least print =>
    match e.or s.lastUsed with
    | none => (.on, s)
    | some e =>
      let (line, done) :=
        substitute e pieces all least (2 * s.line.length + 2) 0 none false s.line
      if done then
        let s := { s with line, substituted := true, lastUsed := some e }
        (.on, if print then s.putLine else s)
      else (.on, { s with lastUsed := some e })
  | .transliterate pairs =>
    (.on, { s with line := s.line.map fun c =>
      ((pairs.find? (·.1 == c)).map Prod.snd).getD c })
  | .print => (.on, s.putLine)
  | .printFirst => (.on, s.put (s.line.takeWhile (· != '\n')) true)
  | .delete => (.drop, s)
  | .deleteFirst =>
    match s.line.dropWhile (· != '\n') with
    | [] => (.drop, s)
    | _ :: rest => (.again, { s with line := rest })
  | .next =>
    if s.isLast then (.quit (!quiet), s)
    else
      let s := (if quiet then s else s.putLine).flush
      (.on, (s.advance? []).getD s)
  | .appendNext =>
    if s.isLast then (.quit (!quiet), s)
    else
      let s := s.flush
      (.on, (s.advance? (s.line ++ ['\n'])).getD s)
  | .keep => (.on, { s with aside := s.line })
  | .keepMore => (.on, { s with aside := s.aside ++ '\n' :: s.line })
  | .recall => (.on, { s with line := s.aside })
  | .recallMore => (.on, { s with line := s.line ++ '\n' :: s.aside })
  | .exchange => (.on, { s with line := s.aside, aside := s.line })
  | .number => (.on, s.put (toString s.number).toList true)
  | .append text => (.on, { s with appended := s.appended ++ text })
  | .insert text => (.on, s.put text.dropLast true)
  | .change text => (.drop, s.put text.dropLast true)
  | .quit printing status => (.quit (printing && !quiet), { s with status })
  | .label _ => (.on, s)
  | .jump name => (.jump (labelIndex program name), s)
  | .jumpIf wanted name =>
    if s.substituted = wanted then
      (.jump (labelIndex program name), { s with substituted := false })
    else (.on, { s with substituted := false })
  | .openBlock => (.on, s)
  | .closeBlock => (.on, s)

/-- Goes through instructions and lines, from an instruction on. -/
def run (program : List Instruction) (quiet : Bool) : (fuel : Nat) → (index : Nat) → State → State
  | 0, _, s => s
  | fuel + 1, index, s =>
    let finish (s : State) : State :=
      match s.flush.advance? [] with
      | none => s.flush
      | some s => run program quiet fuel 0 { s with substituted := false }
    match program[index]? with
    | none => finish (if quiet then s else s.putLine)
    | some i =>
      let (selected, s) := s.selects index i.selection
      if selected then
        match perform program quiet s i.action with
        | (.on, s) => run program quiet fuel (index + 1) s
        | (.jump index, s) => run program quiet fuel index s
        | (.finish, s) => finish (if quiet then s else s.putLine)
        | (.drop, s) => finish s
        | (.again, s) => run program quiet fuel 0 s.flush
        | (.quit printing, s) => (if printing then s.putLine else s).flush
      else
        match i.action with
        | .openBlock =>
          run program quiet fuel (behindBlock program program.length 0 index) s
        | _ => run program quiet fuel (index + 1) s

/-- What a text becomes, and the status that the instructions ask for. -/
def edit (program : List Instruction) (quiet : Bool) (text : List Char) : List Char × Nat :=
  let (ls, closed) := lines text
  let start : State := { rest := ls, lastClosed := closed }
  match start.advance? [] with
  | none => ([], 0)
  | some s =>
    let fuel := (ls.length + 2) * (program.length + 2) * 64 + 4096
    let s := run program quiet fuel 0 s
    (s.output.reverse.flatten, s.status)

end SafeClock.Tools.Edit

namespace SafeClock.Tools

/-- What becomes of the files at some paths, each of which is edited by itself. -/
def editInPlace (program : List Edit.Instruction) (quiet : Bool) (c : Call)
    (paths : List (List Char)) : Outcome :=
  paths.foldl (fun out path =>
    let p := Text.Bytes.toText path
    match ({ c with tree := out.tree } : Call).read path with
    | .ok text =>
      let (edited, status) := Edit.edit program quiet text
      match out.tree.write c.cwd p (Text.Bytes.gather edited) with
      | .ok tree => { out with tree, status := if status ≠ 0 then status else out.status }
      | .error _ => { out with status := 4 }
    | .error e =>
      { out with
        complaints := out.complaints ++ bytes "sed: can't read " ++ path ++
          bytes (": " ++ e.reason) ++ ['\n']
        status := 2 }) { tree := c.tree }

/-- Edits lines, of the input or of files, and passes them on or puts them back. -/
def sed : Tool := withOptions "sed" "nErsuzi" "e" 1 fun o c =>
  let (script, paths) :=
    if (o.values 'e').isEmpty then (o.operands.take 1, o.operands.drop 1)
    else (o.values 'e', o.operands)
  if script.isEmpty then
    c.refuse 1 (bytes "Usage: sed [OPTION]... SCRIPT [FILE]...")
  else
    let text := ['\n'].intercalate script
    match Edit.instructions? (o.has 'E' || o.has 'r') (text.length + 1) text with
    | none => c.refuse 1 (bytes "sed: -e expression #1, char 0: unknown command")
    | some program =>
      if o.has 'i' then editInPlace program (o.has 'n') c paths
      else
        let found := c.sources "sed" paths
        let complaints := (found.filter fun (_, s) => !s.isOk).flatMap fun (path, _) =>
          bytes "sed: can't read " ++ path ++ bytes (": " ++ OsError.notFound.reason) ++ ['\n']
        let texts := found.filterMap fun (_, s) => s.toOption
        let joined := texts.foldl (fun all t =>
          (if all.isEmpty ∨ all.getLast? = some '\n' then all else all ++ ['\n']) ++ t) []
        let (output, status) := Edit.edit program (o.has 'n') joined
        { tree := c.tree
          output
          complaints
          status := if status ≠ 0 then status else if complaints.isEmpty then 0 else 2
          usesInput := Call.asksInput paths }

end SafeClock.Tools
