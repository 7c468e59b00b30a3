import SymbolTables.Table.Row
import SymbolTables.Table.Schema

/-!
# Tables with aligned columns

A header line, a rule, one line per row and a line with the number of rows. Cells stand at the right
end of their column; a cell of more than 40 characters is cut. A column is as wide as its widest
cell, header included, so all lines but the last have the same length.
-/
namespace SymbolTables.Render

/-- The texts that a table shows: one per column in every row, whatever the width of the row. -/
def texts (schema : Schema) (rows : List Row) : List (List String) :=
  rows.map fun row => (List.range schema.width).map row.display

/-- Characters of the longest cell that is shown in full. -/
def cellLimit : Nat := 40

/-- A long cell as its first 37 characters and three dots. -/
def clip (s : String) : String :=
  if s.length ≤ cellLimit then s else String.ofList (s.toList.take (cellLimit - 3)) ++ "..."

/-- Blanks in front of a text, up to a width. -/
def padLeft (width : Nat) (s : String) : String :=
  String.ofList (List.replicate (width - s.length) ' ') ++ s

/-- The widths of the columns: of every header and the cells below it the longest. -/
def widths (header : List String) (body : List (List String)) : List Nat :=
  body.foldl (fun widths row => widths.zipWith max (row.map String.length)) (header.map String.length)

def gap : String := " | "

def line (widths : List Nat) (cells : List String) : String :=
  gap.intercalate (widths.zipWith padLeft cells)

/-- Characters of a line. -/
def lineLength (widths : List Nat) : Nat :=
  widths.foldr (· + ·) 0 + gap.length * (widths.length - 1)

/-- The header, the rule below it and the rows. -/
def alignedLines (schema : Schema) (rows : List Row) : List String :=
  let header := schema.names.map clip
  let body := (texts schema rows).map fun row => row.map clip
  let widths := widths header body
  line widths header :: String.ofList (List.replicate (lineLength widths) '-')
    :: body.map (line widths)

def aligned (schema : Schema) (rows : List Row) : String :=
  String.join ((alignedLines schema rows).map (· ++ "\n")) ++ s!"({rows.length} rows)\n"

end SymbolTables.Render
