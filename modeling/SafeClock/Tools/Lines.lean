import SafeClock.Tools.Basic

/-!
# Tools that pass lines on
-/

set_option autoImplicit false

namespace SafeClock.Tools

/-- Passes everything on. -/
def cat : Tool := withOptions "cat" "ubtv" "" 1 fun o c => c.perSource "cat" o.operands id

/-- An amount of lines or bytes to keep, and the operands: the older way of writing an amount is a
dash and digits. -/
def keepOptions (name : String) (f : (bytes : Bool) → (amount : List Char) → Options → Tool) :
    Tool := fun c =>
  let old := match c.arguments with
    | ('-' :: ds) :: rest => if (number? ds).isSome then some (ds, rest) else none
    | _ => none
  match old with
  | some (ds, rest) => f false ds { operands := rest } { c with arguments := rest }
  | none =>
    withOptions name "qv" "nc" 1 (fun o c =>
      match o.value? 'c', o.value? 'n' with
      | some n, _ => f true n o c
      | none, some n => f false n o c
      | none, none => f false ['1', '0'] o c) c

/-- The first bytes of a text, or its first lines. -/
def firstOf (bytes : Bool) (n : Nat) (text : List Char) : List Char :=
  if bytes then text.take n
  else
    let (ls, closed) := lines text
    if n < ls.length ∨ closed then unlines (ls.take n) else text

/-- A text without its first bytes, or without its first lines. -/
def behindFirst (bytes : Bool) (n : Nat) (text : List Char) : List Char :=
  text.drop (firstOf bytes n text).length

/-- How many bytes a text has, or how many lines. -/
def measure (bytes : Bool) (text : List Char) : Nat :=
  if bytes then text.length else (lines text).1.length

/-- Passes the start on: so much, or, with a dash, all but so much at the end. -/
def head : Tool := keepOptions "head" fun inBytes amount o c =>
  match amount with
  | '-' :: ds =>
    match number? ds with
    | some n => c.perSource "head" o.operands fun t => firstOf inBytes (measure inBytes t - n) t
    | none => c.refuse 1 (bytes "head: invalid number of lines: '" ++ amount ++ ['\''])
  | _ =>
    match number? amount with
    | some n => c.perSource "head" o.operands (firstOf inBytes n)
    | none => c.refuse 1 (bytes "head: invalid number of lines: '" ++ amount ++ ['\''])

/-- Passes the end on: so much, or, with a plus sign, all from so far on. -/
def tail : Tool := keepOptions "tail" fun inBytes amount o c =>
  match amount with
  | '+' :: ds =>
    match number? ds with
    | some n => c.perSource "tail" o.operands (behindFirst inBytes (n - 1))
    | none => c.refuse 1 (bytes "tail: invalid number of lines: '" ++ amount ++ ['\''])
  | _ =>
    match number? (if amount.head? = some '-' then amount.drop 1 else amount) with
    | some n =>
      c.perSource "tail" o.operands fun t => behindFirst inBytes (measure inBytes t - n) t
    | none => c.refuse 1 (bytes "tail: invalid number of lines: '" ++ amount ++ ['\''])

/-- How many words a text has. -/
def countWords (text : List Char) : Nat :=
  let blank (c : Char) : Bool := c == ' ' || (9 ≤ c.toNat && c.toNat ≤ 13)
  (text.foldl (fun (n, inWord) c =>
    if blank c then (n, false) else (if inWord then n else n + 1, true)) (0, false)).1

/-- A number, with spaces before it. -/
def padded (width n : Nat) : List Char :=
  let ds := (toString n).toList
  List.replicate (width - ds.length) ' ' ++ ds

/-- Counts lines, words and bytes. -/
def wc : Tool := withOptions "wc" "lwcm" "" 1 fun o c =>
  let letters := if o.given.isEmpty then ['l', 'w', 'c'] else ['l', 'w', 'm', 'c'].filter o.has
  let count (text : List Char) : List Nat := letters.map fun
    | 'l' => text.count '\n'
    | 'w' => countWords text
    | _ => text.length
  let found := c.sources "wc" o.operands
  let counts := found.filterMap fun (path, s) => match s with
    | .ok text => some (path, count text)
    | .error _ => none
  let complaints := found.flatMap fun (_, s) => match s with
    | .ok _ => []
    | .error complaint => complaint ++ ['\n']
  let size := (found.map fun (_, s) => match s with
    | .ok text => text.length
    | .error _ => 0).foldl (· + ·) 0
  let width :=
    if letters.length = 1 ∧ found.length = 1 then 1
    else if Call.asksInput o.operands then 7
    else (toString size).length
  let line (name : List Char) (ns : List Nat) : List Char :=
    [' '].intercalate (ns.map (padded width) ++ if name.isEmpty then [] else [name]) ++ ['\n']
  let total := counts.foldl (fun sum (_, ns) => sum.zipWith (· + ·) ns)
    (letters.map fun _ => 0)
  { tree := c.tree
    output := counts.flatMap (fun (path, ns) => line (if o.operands.isEmpty then [] else path) ns)
      ++ if found.length > 1 then line (bytes "total") total else []
    complaints
    status := if complaints.isEmpty then 0 else 1
    usesInput := Call.asksInput o.operands }

/-- The number at the start of a line: what sorting by number looks at. -/
def leadingNumber (line : List Char) : Int :=
  let (negative, body) := match line.dropWhile (fun c => c == ' ' || c == '\t') with
    | '-' :: body => (true, body)
    | body => (false, body)
  let n := Int.ofNat ((body.takeWhile Char.isDigit).foldl
    (fun n d => 10 * n + (d.toNat - '0'.toNat)) 0)
  if negative then -n else n

/-- Whether one text comes no later than another. -/
def inOrder (x y : List Char) : Bool := !decide (y < x)

/-- Each of equal lines that follow each other once, with how many there are. -/
def runs (ls : List (List Char)) : List (List Char × Nat) :=
  ls.foldr (fun line found =>
    match found with
    | (l, n) :: rest => if l = line then (l, n + 1) :: rest else (line, 1) :: found
    | [] => [(line, 1)]) []

/-- Sorts lines, by their bytes or by the numbers they start with. -/
def sort : Tool := withOptions "sort" "nrus" "o" 2 fun o c =>
  let gathered := c.perSource "sort" o.operands fun text => unlines (lines text).1
  if gathered.status ≠ 0 then { gathered with output := [], status := 2 }
  else
    let before (x y : List Char) : Bool :=
      let (x, y) := if o.has 'r' then (y, x) else (x, y)
      if o.has 'n' then
        leadingNumber x < leadingNumber y ∨
          (leadingNumber x = leadingNumber y ∧ inOrder x y)
      else inOrder x y
    let sorted := (lines gathered.output).1.mergeSort before
    let sorted := if o.has 'u' then (runs sorted).map Prod.fst else sorted
    { gathered with output := unlines sorted }

/-- Passes each of equal lines that follow each other on once. -/
def uniq : Tool := withOptions "uniq" "cdu" "" 1 fun o c =>
  c.perSource "uniq" o.operands fun text =>
    if text.isEmpty then []
    else
      let kept := (runs (lines text).1).filter fun (_, n) =>
        (!o.has 'd' || n > 1) && (!o.has 'u' || n == 1)
      unlines (kept.map fun (line, n) => if o.has 'c' then padded 7 n ++ ' ' :: line else line)

/-- Passes everything on, and into files too. -/
def tee : Tool := withOptions "tee" "ai" "" 1 fun o c =>
  let step (out : Outcome) (path : List Char) : Outcome :=
    let old := if o.has 'a' then (({ c with tree := out.tree } : Call).read path).toOption.getD []
      else []
    match out.tree.write c.cwd (Text.Bytes.toText path) (Text.Bytes.gather (old ++ c.input)) with
    | .ok tree => { out with tree }
    | .error e =>
      { out with
        complaints := out.complaints ++ bytes "tee: " ++ path ++ bytes (": " ++ e.reason) ++ ['\n']
        status := 1 }
  o.operands.foldl step { tree := c.tree, output := c.input, usesInput := true }

end SafeClock.Tools
