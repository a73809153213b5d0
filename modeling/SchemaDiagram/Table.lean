import SchemaDiagram.Text.Width

/-!
# Tables

A table is drawn with a frame around its cells. Every column is as wide as its widest line, counted
in terminal cells; a line break in a cell makes its row higher.
-/

namespace SchemaDiagram

/-- The characters of a horizontal line: its left end, the line itself, the crossing with a column
line, and its right end. -/
structure Rule where
  /-- The left end. -/
  left : String
  /-- The line. -/
  line : String
  /-- The crossing with a line between columns. -/
  crossing : String
  /-- The right end. -/
  right : String
  deriving DecidableEq, Repr

/-- The lines around the cells of a table. -/
structure Frame where
  /-- The line above the table. -/
  top : Rule
  /-- The line under the header. -/
  header : Rule
  /-- The line between two rows, if there is one. -/
  between : Option Rule
  /-- The line below the table. -/
  bottom : Rule
  /-- The line at the left and at the right. -/
  side : String
  /-- The line between two columns. -/
  column : String
  deriving DecidableEq, Repr

namespace Frame

/-- A frame of box-drawing characters, without lines between rows. -/
def boxed : Frame where
  top := ⟨"┌", "─", "┬", "┐"⟩
  header := ⟨"╞", "═", "╪", "╡"⟩
  between := none
  bottom := ⟨"└", "─", "┴", "┘"⟩
  side := "│"
  column := "┆"

/-- A frame of ASCII characters, with a line between any two rows. -/
def ascii : Frame where
  top := ⟨"+", "-", "+", "+"⟩
  header := ⟨"+", "=", "=", "+"⟩
  between := some ⟨"|", "-", "+", "|"⟩
  bottom := ⟨"+", "-", "+", "+"⟩
  side := "|"
  column := "|"

end Frame

/-- The texts of a table. A row may have fewer cells than the header. -/
structure Table where
  /-- The names of the columns. -/
  header : List String
  /-- The rows. -/
  rows : List (List String)
  deriving DecidableEq, Repr

namespace Table

/-- A text as often as told. -/
def repeated (count : Nat) (text : String) : String := String.join (List.replicate count text)

/-- The lines of a cell. -/
def cellLines (cell : String) : List String :=
  (cell.toList.splitOn '\n').map String.ofList

/-- The width of a cell. -/
def cellWidth (cell : String) : Nat :=
  (cellLines cell).foldl (fun width line ↦ max width (Text.displayWidth line)) 0

/-- The widths of the columns. -/
def widths (t : Table) : List Nat :=
  t.header.mapIdx fun i name ↦
    t.rows.foldl (fun width row ↦ max width (cellWidth (row.getD i ""))) (cellWidth name)

/-- A horizontal line over columns of the given widths; each cell has a blank on either side. -/
def drawRule (rule : Rule) (widths : List Nat) : String :=
  rule.left
    ++ String.intercalate rule.crossing (widths.map fun width ↦ repeated (width + 2) rule.line)
    ++ rule.right

/-- A line of a cell, filled up with blanks. -/
def padded (width : Nat) (line : String) : String :=
  " " ++ line ++ repeated (width - Text.displayWidth line) " " ++ " "

/-- The lines of a row. -/
def drawRow (frame : Frame) (widths : List Nat) (row : List String) : List String :=
  let cells := widths.mapIdx fun i width ↦ (width, cellLines (row.getD i ""))
  let height := cells.foldl (fun height cell ↦ max height cell.2.length) 0
  (List.range height).map fun i ↦
    frame.side
      ++ String.intercalate frame.column (cells.map fun (width, lines) ↦
        padded width (lines.getD i ""))
      ++ frame.side

/-- The lines of a table. -/
def draw (frame : Frame) (t : Table) : List String :=
  let widths := t.widths
  let rows := t.rows.map (drawRow frame widths)
  let between := (frame.between.map fun rule ↦ drawRule rule widths).toList
  [drawRule frame.top widths] ++ drawRow frame widths t.header ++ [drawRule frame.header widths]
    ++ List.intercalate between rows
    ++ [drawRule frame.bottom widths]

/-- The text of a table, without a line break at its end. -/
def render (frame : Frame) (t : Table) : String := String.intercalate "\n" (t.draw frame)

end Table

end SchemaDiagram
