import SafeClock.Text.Expression.Sign
import SafeClock.Tools.Basic

/-!
# Selecting lines

`grep` passes on the lines in which an expression is found, or those in which it is not.
-/

set_option autoImplicit false

namespace SafeClock.Tools

open SafeClock.Text (Expression)

/-- The expressions of a call, each on a line of its own, put together by choice. -/
def wanted? (o : Options) (patterns : List (List Char)) : Option Expression := do
  let style : Expression.Style := { extended := o.has 'E', anyCase := o.has 'i' }
  let found ← (patterns.flatMap (·.splitOn '\n')).mapM fun p =>
    if o.has 'F' then some (Expression.ofText style p) else Expression.read? style p
  let found := found.map fun e =>
    if o.has 'x' then Expression.both .start (.both e .stop)
    else if o.has 'w' then .both (.edge true) (.both e (.edge true))
    else e
  match found with
  | [] => none
  | e :: rest => return rest.foldl .either e

/-- The stretches of a line that an expression matches, one behind the other. -/
def stretches (e : Expression) : (fuel : Nat) → (before : Option Char) → List Char →
    List (List Char)
  | 0, _, _ => []
  | fuel + 1, before, line =>
    match e.search? before line with
    | none => []
    | some (_, s, t) =>
      let n := s.rest.length - t.rest.length
      if n = 0 then
        match s.rest with
        | [] => []
        | c :: rest => stretches e fuel (some c) rest
      else s.rest.take n :: stretches e fuel t.before t.rest

/-- Passes on what is selected. -/
def grep : Tool := withOptions "grep" "qcvinEFoxwlshHG" "em" 2 fun o c =>
  let (patterns, paths) :=
    if (o.values 'e').isEmpty then (o.operands.take 1, o.operands.drop 1)
    else (o.values 'e', o.operands)
  if patterns.isEmpty then
    c.refuse 2 (bytes "Usage: grep [OPTION]... PATTERNS [FILE]...")
  else
    match wanted? o patterns with
    | none => c.refuse 2 (bytes "grep: Invalid regular expression")
    | some e =>
      let named := !o.has 'h' && (o.has 'H' || paths.length > 1)
      let found := c.sources "grep" paths
      let select (text : List Char) : List (Nat × List Char) :=
        let kept := ((lines text).1.zipIdx.map fun (line, i) => (i + 1, line)).filter
          fun (_, line) => e.isFoundIn line != o.has 'v'
        match (o.value? 'm').bind number? with
        | some n => kept.take n
        | none => kept
      let label (path : List Char) : List Char :=
        if path = ['-'] then bytes "(standard input)" else path
      let render (path : List Char) (kept : List (Nat × List Char)) : List Char :=
        let lead := if named then label path ++ [':'] else []
        if o.has 'q' then []
        else if o.has 'l' then (if kept.isEmpty then [] else label path ++ ['\n'])
        else if o.has 'c' then lead ++ (toString kept.length).toList ++ ['\n']
        else kept.flatMap fun (i, line) =>
          let lead := lead ++ if o.has 'n' then (toString i).toList ++ [':'] else []
          if o.has 'o' then
            if o.has 'v' then []
            else (stretches e (line.length + 1) none line).flatMap fun s => lead ++ s ++ ['\n']
          else lead ++ line ++ ['\n']
      let kept := found.map fun (path, s) => match s with
        | .ok text => (path, select text)
        | .error _ => (path, [])
      let failures := found.filterMap fun (_, s) => match s with
        | .ok _ => none
        | .error complaint => some complaint
      let any := kept.any fun (_, ls) => !ls.isEmpty
      { tree := c.tree
        output := (found.zip kept).flatMap fun ((path, s), _, ls) => match s with
          | .ok _ => render path ls
          | .error _ => []
        complaints := if o.has 's' then [] else unlines failures
        status := if any && (failures.isEmpty || o.has 'q') then 0
          else if failures.isEmpty then 1 else 2
        usesInput := Call.asksInput paths }

end SafeClock.Tools
