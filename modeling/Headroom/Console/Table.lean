import Headroom.Text.Width

/-!
Tables for a terminal: a frame with round corners, a line under the heading, and one
blank on each side of a cell. A cell may have several lines.
-/
namespace Headroom.Console

/-- A text and blanks up to a width in columns. -/
def padTo (columns : Nat) (text : String) : String :=
  text.pushn ' ' (columns - Text.width text)

/-- The lines of a cell. -/
def cellLines (cell : String) : List String := cell.splitOn "\n"

/-- The width of a cell: that of its widest line. -/
def cellWidth (cell : String) : Nat := ((cellLines cell).map Text.width).foldl max 0

/-- The width of each column: that of its widest cell. -/
def columnWidths (heading : List String) (rows : List (List String)) : List Nat :=
  rows.foldl (fun widths row => List.zipWith max widths (row.map cellWidth)) (heading.map cellWidth)

/-- A line of the frame. -/
def ruler (left between right : String) (widths : List Nat) : String :=
  left ++ between.intercalate (widths.map fun columns => "".pushn '─' (columns + 2)) ++ right

/-- The lines of a row; cells with fewer lines than others are blank below. -/
def rowLines (widths : List Nat) (row : List String) : List String :=
  let cells := row.map cellLines
  let height := (cells.map List.length).foldl max 1
  (List.range height).map fun i =>
    let parts := List.zipWith (fun columns lines => " " ++ padTo columns (lines.getD i "") ++ " ")
      widths cells
    "│" ++ "│".intercalate parts ++ "│"

/-- The lines of a table. -/
def tableLines (heading : List String) (rows : List (List String)) : List String :=
  let widths := columnWidths heading rows
  [ruler "╭" "┬" "╮" widths] ++ rowLines widths heading ++ [ruler "├" "┼" "┤" widths] ++
    rows.flatMap (rowLines widths) ++ [ruler "╰" "┴" "╯" widths]

/-- A table, or a word if there is nothing to show. -/
def showTable (heading : List String) (rows : List (List String)) : List String :=
  if rows.isEmpty then ["No items found"] else tableLines heading rows

end Headroom.Console
