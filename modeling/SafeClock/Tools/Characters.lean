import SafeClock.Shell.Format
import SafeClock.Text.CharacterSet
import SafeClock.Tools.Basic

/-!
# Tools that look at characters
-/

set_option autoImplicit false

namespace SafeClock.Tools

/-- All bytes, as characters. -/
def allBytes : List Char := (List.range 256).map Char.ofNat

/-- The characters that a set of `tr` lists, in order: single ones, ranges and named classes. -/
def listed : (fuel : Nat) → List Char → List Char
  | 0, _ => []
  | fuel + 1, cs =>
    let range (low high : Char) : List Char :=
      allBytes.filter fun c => low ≤ c && c ≤ high
    match cs with
    | [] => []
    | '[' :: ':' :: rest =>
      let name := rest.takeWhile Char.isAlpha
      match rest.drop name.length with
      | ':' :: ']' :: rest =>
        allBytes.filter (Text.isOfClass (String.ofList name)) ++ listed fuel rest
      | _ => '[' :: listed fuel (':' :: rest)
    | '\\' :: rest =>
      let (c, n) := Shell.Format.escape rest
      c :: listed fuel (rest.drop n)
    | low :: '-' :: high :: rest =>
      if high = '\\' then low :: listed fuel ('-' :: high :: rest)
      else range low high ++ listed fuel rest
    | c :: rest => c :: listed fuel rest

/-- A text in which a character that is in a set does not follow itself. -/
def squeezed (set : List Char) : List Char → List Char
  | [] => []
  | c :: rest =>
    let behind := squeezed set rest
    if set.contains c ∧ behind.head? = some c then behind else c :: behind

/-- Replaces, deletes and squeezes characters. -/
def tr : Tool := withOptions "tr" "cCds" "" 1 fun o c =>
  match o.operands.map (fun s => listed (s.length + 1) s) with
  | [] => c.refuse 1 (bytes "tr: missing operand")
  | first :: rest =>
    let first := if o.has 'c' || o.has 'C' then allBytes.filter (!first.contains ·) else first
    let second := rest.head?.getD []
    let replace (x : Char) : Char :=
      match first.reverse.findIdx? (· == x) with
      | some fromEnd =>
        let i := first.length - 1 - fromEnd
        (second[i]?.or second.getLast?).getD x
      | none => x
    let text := if o.has 'd' then c.input.filter (!first.contains ·)
      else if second.isEmpty then c.input
      else c.input.map replace
    let text := if o.has 's' then squeezed (if second.isEmpty then first else second) text else text
    { c.answer text 0 with usesInput := true }

/-- Whether a list of ranges holds a number. A range may be open on either side. -/
def inRanges (ranges : List (Nat × Option Nat)) (n : Nat) : Bool :=
  ranges.any fun (low, high) => low ≤ n && high.all (n ≤ ·)

/-- Reads a list of ranges. -/
def ranges? (cs : List Char) : Option (List (Nat × Option Nat)) :=
  (cs.splitOn ',').mapM fun part =>
    match part.splitOn '-' with
    | [n] => (number? n).map fun n => (n, some n)
    | [low, high] =>
      let low := if low.isEmpty then some 1 else number? low
      let high := if high.isEmpty then some none else (number? high).map some
      low.bind fun low => high.map fun high => (low, high)
    | _ => none

/-- Passes on some characters or fields of each line. -/
def cut : Tool := withOptions "cut" "s" "bcdf" 1 fun o c =>
  let keep (given : List Char) (f : (Nat → Bool) → List Char → Option (List Char)) : Outcome :=
    match ranges? given with
    | some ranges =>
      c.perSource "cut" o.operands fun text =>
        unlines ((lines text).1.filterMap (f (inRanges ranges)))
    | none => c.refuse 1 (bytes "cut: invalid field range")
  match (o.value? 'c').or (o.value? 'b'), o.value? 'f' with
  | some given, _ =>
    keep given fun kept line => some ((line.zipIdx.filter fun (_, i) => kept (i + 1)).map Prod.fst)
  | none, some given =>
    let mark := ((o.value? 'd').bind List.head?).getD '\t'
    keep given fun kept line =>
      if line.contains mark then
        some ([mark].intercalate
          (((line.splitOn mark).zipIdx.filter fun (_, i) => kept (i + 1)).map Prod.fst))
      else if o.has 's' then none else some line
  | none, none =>
    c.refuse 1 (bytes "cut: you must specify a list of bytes, characters, or fields")

end SafeClock.Tools
