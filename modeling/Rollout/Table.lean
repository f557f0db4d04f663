import Rollout.Text.Width

/-!
# Table — tables in boxes

A table has a header and rows of cells. Every column is as wide as its widest line, a cell may have
several lines, and rows are kept apart by dashed lines. Widths are those of a terminal.
-/

namespace Rollout

structure Table where
  header : List String
  rows : List (List String) := []

namespace Table

/-- The lines of a cell. -/
def cellLines (cell : String) : List String :=
  cell.splitOn "\n"

/-- The widths of the columns, from all rows and the header. -/
def columnWidths (t : Table) : List Nat :=
  t.header.zipIdx.map fun (_, i) =>
    ((t.header :: t.rows).flatMap fun row => (cellLines (row.getD i "")).map Text.width).foldl max 0

def spaces (n : Nat) : String :=
  String.ofList (List.replicate n ' ')

/-- A line between rows or at an edge. -/
def rule (left fill cross right : String) (widths : List Nat) : String :=
  left ++ String.intercalate cross (widths.map fun w =>
    String.join (List.replicate (w + 2) fill)) ++ right

/-- One line of a row. -/
def rowLine (widths : List Nat) (cells : List String) : String :=
  "│" ++ String.intercalate "┆" (List.zipWith
    (fun w cell => " " ++ cell ++ spaces (w - Text.width cell) ++ " ") widths cells) ++ "│"

/-- All lines of a row. -/
def rowLines (widths : List Nat) (row : List String) : List String :=
  let cells := widths.zipIdx.map fun (_, i) => cellLines (row.getD i "")
  let height := (cells.map List.length).foldl max 1
  (List.range height).map fun k => rowLine widths (cells.map fun lines => lines.getD k "")

/-- The lines of a table. -/
def lines (t : Table) : List String :=
  let widths := t.columnWidths
  let between := rule "├" "╌" "┼" "┤" widths
  [rule "┌" "─" "┬" "┐" widths] ++ rowLines widths t.header ++ [rule "╞" "═" "╪" "╡" widths] ++
    List.intercalate [between] (t.rows.map (rowLines widths)) ++
    [rule "└" "─" "┴" "┘" widths]

def render (t : Table) : String :=
  String.intercalate "\n" t.lines

end Table

end Rollout
