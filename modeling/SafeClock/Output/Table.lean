/-!
# Tables with ruled borders

A table has a header and rows of as many cells. A column is as wide as its widest cell and has one
space on either side. A double rule stands below the header, and no rule between the rows.
-/

set_option autoImplicit false

namespace SafeClock.Output.Table

/-- The width of each column: the length of its longest cell. -/
def widths (header : List String) (rows : List (List String)) : List Nat :=
  rows.foldl (fun widths row => (widths.zip row).map fun (w, cell) => max w cell.length)
    (header.map String.length)

/-- A text repeated. -/
def times (n : Nat) (c : Char) : String :=
  String.ofList (List.replicate n c)

/-- A rule across the table, from its left end, line, joints and right end. -/
def rule (left : String) (line : Char) (joint right : String) (widths : List Nat) : String :=
  left ++ joint.intercalate (widths.map fun w => times (w + 2) line) ++ right

/-- One row of cells, filled up with spaces. -/
def row (widths : List Nat) (cells : List String) : String :=
  let padded := (widths.zip cells).map fun (w, cell) =>
    " " ++ cell ++ times (w - cell.length) ' ' ++ " "
  "│" ++ "┆".intercalate padded ++ "│"

/-- The table, line by line. -/
def render (header : List String) (rows : List (List String)) : List String :=
  let w := widths header rows
  [rule "┌" '─' "┬" "┐" w, row w header, rule "╞" '═' "╪" "╡" w] ++ rows.map (row w) ++
    [rule "└" '─' "┴" "┘" w]

end SafeClock.Output.Table
