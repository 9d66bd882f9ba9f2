import Redaction.Text.Pieces
import Redaction.Text.Width

/-!
# Tables in a frame

A table has a header and rows with as many cells. A cell may have several lines. Every column is as
wide as its widest line, with a space on either side.
-/

namespace Redaction

structure Table where
  header : List String
  rows : List (List String)
  deriving Repr

namespace Table

def cellLines (cell : String) : List (List Char) := Text.pieces '\n' cell.toList

/-- The width of the widest line of a cell. -/
def cellWidth (cell : String) : Nat := ((cellLines cell).map Text.width).foldl max 0

/-- The widths of the columns. -/
def widths (t : Table) : List Nat :=
  t.rows.foldl (fun ws row => List.zipWith max ws (row.map cellWidth)) (t.header.map cellWidth)

/-- The characters of a line between rows. -/
structure Border where
  left : Char
  fill : Char
  cross : Char
  right : Char

namespace Border

def top : Border := ⟨'┌', '─', '┬', '┐'⟩
def belowHeader : Border := ⟨'╞', '═', '╪', '╡'⟩
def betweenRows : Border := ⟨'├', '╌', '┼', '┤'⟩
def bottom : Border := ⟨'└', '─', '┴', '┘'⟩

def draw (b : Border) (widths : List Nat) : List Char :=
  b.left :: [b.cross].intercalate (widths.map fun w => List.replicate (w + 2) b.fill) ++ [b.right]

end Border

/-- A line of a cell, filled up to the width of its column. -/
def fit (width : Nat) (line : List Char) : List Char :=
  ' ' :: line ++ List.replicate (width - Text.width line) ' ' ++ [' ']

/-- The lines of a row, as many as its highest cell has. -/
def drawRow (widths : List Nat) (row : List String) : List (List Char) :=
  let cells := row.map cellLines
  let height := (cells.map List.length).foldl max 0
  (List.range height).map fun i =>
    let parts := List.zipWith (fun w lines => fit w (lines.getD i [])) widths cells
    '│' :: ['┆'].intercalate parts ++ ['│']

/-- The lines of a table. -/
def draw (t : Table) : List (List Char) :=
  let ws := t.widths
  let rows := List.intercalate [Border.betweenRows.draw ws] (t.rows.map (drawRow ws))
  Border.top.draw ws :: drawRow ws t.header ++
    Border.belowHeader.draw ws :: rows ++ [Border.bottom.draw ws]

def render (t : Table) : String := String.ofList (['\n'].intercalate t.draw)

end Table

end Redaction
