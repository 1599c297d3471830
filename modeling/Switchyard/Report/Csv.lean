import Switchyard.Text.Blank
import Switchyard.Text.Quoted

/-!
# Comma-separated values

A table of texts is written one row a line, cells separated by commas and rows ended by carriage
return and line feed. A cell is quoted only when it holds a comma, a quote or a line end, and a
quote within it is written twice. A row of one empty cell is written as two quotes, to tell it from
a row without cells.
-/

namespace Switchyard.Report.Csv

/-- Whether a character forces a cell to be quoted. -/
def isSpecial (c : Char) : Bool :=
  c == ',' || c == Text.doubleQuote || c == '\r' || c == '\n'

/-- The characters of a cell with every quote doubled. -/
def escape (cs : List Char) : List Char :=
  cs.flatMap (fun c => if c = Text.doubleQuote then [c, c] else [c])

/-- A cell between quotes. -/
def quote (cs : List Char) : List Char :=
  Text.doubleQuote :: escape cs ++ [Text.doubleQuote]

/-- A cell as it is written. -/
def writeCell (cell : String) : List Char :=
  if cell.toList.any isSpecial then quote cell.toList else cell.toList

/-- Cells with commas between them. -/
def writeCells : List String → List Char
  | [] => []
  | [cell] => writeCell cell
  | cell :: cells => writeCell cell ++ ',' :: writeCells cells

/-- A row as it is written, with its line end. -/
def writeRow (row : List String) : List Char :=
  (if row = [""] then quote [] else writeCells row) ++ ['\r', '\n']

/-- A table as it is written. -/
def write (rows : List (List String)) : String :=
  String.ofList (rows.flatMap writeRow)

end Switchyard.Report.Csv
