import SafeClock.Shell.Condition
import SafeClock.Shell.Format
import SafeClock.Text.Expression.Sign
import SafeClock.Tools.Basic

/-!
# Tools that answer a value or a status
-/

set_option autoImplicit false

namespace SafeClock.Tools

open SafeClock.Text (Expression)

/-- Puts its arguments out, with escapes in them replaced only if asked to. -/
def echo : Tool := fun c =>
  let isOption (w : List Char) : Bool :=
    w.length > 1 && w.head? == some '-' && (w.drop 1).all ['n', 'e', 'E'].contains
  let options := (c.arguments.takeWhile isOption).flatMap (·.drop 1)
  let joined := [' '].intercalate (c.arguments.dropWhile isOption)
  let escaped := (options.filter (· != 'n')).getLast? == some 'e'
  let (text, ended) := if escaped then Shell.Format.unescape (joined.length + 1) joined
    else (joined, false)
  c.answer (if ended || options.contains 'n' then text else text ++ ['\n']) 0

/-- Puts its arguments out by a format. -/
def printf : Tool := fun c =>
  let arguments := if c.arguments.head? = some ['-', '-'] then c.arguments.drop 1 else c.arguments
  match arguments with
  | [] => c.refuse 2 (bytes "printf: missing operand")
  | format :: arguments =>
    let printed := Shell.Format.printf format arguments
    { tree := c.tree
      output := printed.output
      complaints := printed.complaints.flatMap fun line => bytes "printf: " ++ line ++ ['\n']
      status := if printed.complaints.isEmpty then 0 else 1 }

/-- A path without a slash at its end. -/
def trimSlashes (path : List Char) : List Char :=
  let trimmed := (path.reverse.dropWhile (· == '/')).reverse
  if trimmed.isEmpty ∧ !path.isEmpty then ['/'] else trimmed

/-- The last name of a path, without an ending if one is given. -/
def basename : Tool := fun c =>
  match c.arguments with
  | [] => c.refuse 1 (bytes "basename: missing operand")
  | path :: rest =>
    let trimmed := trimSlashes path
    let name := if trimmed = ['/'] then ['/']
      else (trimmed.reverse.takeWhile (· != '/')).reverse
    let ending := rest.head?.getD []
    let name := if !ending.isEmpty ∧ ending.length < name.length ∧ ending.isSuffixOf name then
        name.take (name.length - ending.length)
      else name
    c.answer (name ++ ['\n']) 0

/-- A path without its last name. -/
def dirname : Tool := fun c =>
  if c.arguments.isEmpty then c.refuse 1 (bytes "dirname: missing operand")
  else
    c.answer (unlines (c.arguments.map fun path =>
      let trimmed := trimSlashes path
      let above := (trimmed.reverse.dropWhile (· != '/')).reverse
      if above.isEmpty then ['.'] else trimSlashes above)) 0

/-- The numbers from one to another, a step apart; at most `fuel` of them. -/
def progression : (fuel : Nat) → (low step high : Int) → List Int
  | 0, _, _, _ => []
  | fuel + 1, low, step, high =>
    if (0 ≤ step ∧ high < low) ∨ (step < 0 ∧ low < high) then []
    else low :: progression fuel (low + step) step high

/-- Counts. -/
def seq : Tool := fun c =>
  let (separator, arguments) := match c.arguments with
    | ['-', 's'] :: s :: rest => (s, rest)
    | arguments => (['\n'], arguments)
  let count (low step high : Int) : Outcome :=
    if step = 0 then c.refuse 1 (bytes "seq: invalid Zero increment value: '0'")
    else
      let numbers := progression ((high - low).natAbs / step.natAbs + 1) low step high
      let text := separator.intercalate (numbers.map fun n => (toString n).toList)
      c.answer (if numbers.isEmpty then [] else text ++ ['\n']) 0
  match arguments.mapM integer? with
  | some [high] => count 1 1 high
  | some [low, high] => count low 1 high
  | some [low, step, high] => count low step high
  | _ =>
    match arguments.find? fun a => (integer? a).isNone with
    | some bad => c.refuse 1 (bytes "seq: invalid floating point argument: '" ++ bad ++ ['\''])
    | none => c.refuse 1 (bytes "seq: missing operand")

/-- The number a truth value counts as. -/
def truth (b : Bool) : List Char := if b then ['1'] else ['0']

/-- Whether a value counts as false. -/
def isNull (x : List Char) : Bool := x.isEmpty || integer? x == some 0

/-- How tightly an operator of `expr` binds. -/
def exprStrength? (operator : List Char) : Option Nat :=
  match String.ofList operator with
  | "|" => some 1
  | "&" => some 2
  | "<" | "<=" | "=" | "==" | "!=" | ">=" | ">" => some 3
  | "+" | "-" => some 4
  | "*" | "/" | "%" => some 5
  | ":" => some 6
  | _ => none

/-- What an operator of `expr` makes of two values. -/
def exprCombine (operator : List Char) (x y : List Char) : Except (List Char) (List Char) :=
  let arithmetic (f : Int → Int → Except (List Char) Int) : Except (List Char) (List Char) :=
    match integer? x, integer? y with
    | some a, some b => (f a b).map fun n => (toString n).toList
    | _, _ => .error (bytes "expr: non-integer argument")
  let order (number : Int → Int → Bool) (text : Bool) : Except (List Char) (List Char) :=
    .ok (truth (match integer? x, integer? y with
      | some a, some b => number a b
      | _, _ => text))
  let nonzero (b : Int) (n : Int) : Except (List Char) Int :=
    if b = 0 then .error (bytes "expr: division by zero") else .ok n
  match String.ofList operator with
  | "|" => .ok (if isNull x then (if isNull y then ['0'] else y) else x)
  | "&" => .ok (if isNull x || isNull y then ['0'] else x)
  | "<" => order (fun a b => a < b) (x < y)
  | "<=" => order (fun a b => a ≤ b) (!decide (y < x))
  | "=" | "==" => order (fun a b => a == b) (x == y)
  | "!=" => order (fun a b => a != b) (x != y)
  | ">=" => order (fun a b => b ≤ a) (!decide (x < y))
  | ">" => order (fun a b => b < a) (y < x)
  | "+" => arithmetic fun a b => .ok (a + b)
  | "-" => arithmetic fun a b => .ok (a - b)
  | "*" => arithmetic fun a b => .ok (a * b)
  | "/" => arithmetic fun a b => nonzero b (a.tdiv b)
  | "%" => arithmetic fun a b => nonzero b (a.tmod b)
  | ":" =>
    match Expression.read? {} ('^' :: y) with
    | none => .error (bytes "expr: invalid regular expression")
    | some e =>
      let found := e.matchAt? ⟨none, x, []⟩
      if y.zip (y.drop 1) |>.contains ('\\', '(') then
        .ok ((found.bind fun t => t.group? 1).getD [])
      else .ok (toString (match found with
        | some t => x.length - t.rest.length
        | none => 0)).toList
  | _ => .error (bytes "expr: syntax error")

mutual

/-- Works out an operation of `expr` whose operators bind at least as tightly as `strength`. -/
def exprOperation : (fuel : Nat) → (strength : Nat) → List (List Char) →
    Except (List Char) (List Char × List (List Char))
  | 0, _, _ => .error (bytes "expr: syntax error")
  | fuel + 1, strength, words =>
    match words with
    | [] => .error (bytes "expr: syntax error: missing argument")
    | ['('] :: rest => do
      let (x, rest) ← exprOperation fuel 1 rest
      match rest with
      | [')'] :: rest => exprOperators fuel strength x rest
      | _ => throw (bytes "expr: syntax error: expecting ')'")
    | word :: rest => exprOperators fuel strength word rest

/-- Works out the operators that follow a value. -/
def exprOperators : (fuel : Nat) → (strength : Nat) → List Char → List (List Char) →
    Except (List Char) (List Char × List (List Char))
  | 0, _, _, _ => .error (bytes "expr: syntax error")
  | fuel + 1, strength, x, words =>
    match words with
    | operator :: rest =>
      match exprStrength? operator with
      | some s =>
        if strength ≤ s then do
          let (y, rest) ← exprOperation fuel (s + 1) rest
          let z ← exprCombine operator x y
          exprOperators fuel strength z rest
        else .ok (x, words)
      | none => .ok (x, words)
    | [] => .ok (x, [])

end

/-- Works out an operation. -/
def expr : Tool := fun c =>
  let result := do
    let (x, rest) ← exprOperation (3 * c.arguments.length + 3) 1 c.arguments
    match rest with
    | [] => return x
    | word :: _ => throw (bytes "expr: syntax error: unexpected argument '" ++ word ++ ['\''])
  match result with
  | .ok x => c.answer (x ++ ['\n']) (if isNull x then 1 else 0)
  | .error complaint => c.refuse 2 complaint

/-- The name of a place. -/
def placeName (place : Place) : List Char := bytes ("/" ++ "/".intercalate place)

/-- What tests of files say in a directory of a tree. -/
def fileTests (tree : FileTree) (cwd : Place) : Shell.Condition.Files := fun letter path =>
  match tree.find cwd (Text.Bytes.toText path) with
  | .error _ => false
  | .ok (_, node) =>
    match letter, node with
    | 'f', .file _ _ => true
    | 'd', .directory => true
    | 'c', .sink => true
    | 's', .file content _ => !content.isEmpty
    | 's', .directory => true
    | 'x', .file _ executable => executable
    | 'x', .directory => true
    | 'O', _ => true
    | 'G', _ => true
    | 'e', _ => true
    | 'r', _ => true
    | 'w', _ => true
    | _, _ => false

/-- Tests a condition. -/
def test (name : String) : Tool := fun c =>
  let closed := name != "[" || c.arguments.getLast? == some [']']
  let words := if name = "[" then c.arguments.dropLast else c.arguments
  if !closed then c.refuse 2 (bytes "[: missing ]")
  else
    match Shell.Condition.value (fileTests c.tree c.cwd) words with
    | .ok true => c.answer [] 0
    | .ok false => c.answer [] 1
    | .error e => c.refuse 2 (bytes (name ++ ": ") ++ e.text)

/-- Puts out the variables it is given. -/
def printenv : Tool := fun c =>
  match c.arguments with
  | [] => c.answer (unlines (c.bindings.map fun (name, value) => name.toList ++ '=' :: value)) 0
  | names =>
    let found := names.filterMap fun name =>
      (c.bindings.find? (·.1 == String.ofList name)).map Prod.snd
    c.answer (unlines found) (if found.length = names.length then 0 else 1)

end SafeClock.Tools
