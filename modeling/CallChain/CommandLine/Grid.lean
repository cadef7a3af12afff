/-
# Tables in plain text

A table with a line of headings over the rows. Cells stand between bars with
a blank on either side, as wide as the widest cell of their column; a cell of
several lines makes its row as high.

Key definitions: `Grid`, `Grid.render`.
-/
import CallChain.Text.Columns
import CallChain.Text.Pieces

namespace CallChain.CommandLine

/-- A table: the headings, and the rows, each with a cell for every heading. -/
structure Grid where
  headings : List String
  rows : List (List String)

namespace Grid

/-- The lines of a cell. -/
def cellLines (cell : String) : List String := Text.split '\n' cell

/-- The width of a cell: that of its widest line. -/
def cellColumns (cell : String) : Nat := ((cellLines cell).map Text.columns).foldl max 0

/-- The widths of the columns. -/
def widths (g : Grid) : List Nat :=
  g.rows.foldl (fun ws row => List.zipWith (fun w c => max w (cellColumns c)) ws row)
    (g.headings.map cellColumns)

/-- `n` blanks. -/
def blanks (n : Nat) : String := Text.copies n " "

/-- A line of a cell with blanks up to a width, and one on either side. -/
def pad (width : Nat) (s : String) : String := " " ++ s ++ blanks (width - Text.columns s) ++ " "

/-- The lines of a row. -/
def rowLines (widths : List Nat) (row : List String) : List String :=
  let cells := row.map cellLines
  let height := (cells.map List.length).foldl max 0
  (List.range height).map fun i =>
    "|".intercalate (List.zipWith (fun w ls => pad w (ls[i]?.getD "")) widths cells)

/-- The line under the headings. -/
def ruleLine (widths : List Nat) : String :=
  "+".intercalate (widths.map fun w => Text.copies (w + 2) "-")

/-- The table as text. -/
def render (g : Grid) : String :=
  let ws := g.widths
  "\n".intercalate (rowLines ws g.headings ++ ruleLine ws :: g.rows.flatMap (rowLines ws))

end Grid

end CallChain.CommandLine
