import AnnotatedValues.Table.Basic
import AnnotatedValues.Text.Blank

/-! # Parameter tables as Markdown

Each table stands under a heading of its own. A row is one line: line breaks in a cell become
blanks and vertical bars are escaped. All cells of a column are padded to the widest, counted in
characters. -/
namespace AnnotatedValues.Table

open Text

def escapeBars (cs : List Char) : List Char :=
  cs.flatMap fun c => if c == '|' then ['\\', '|'] else [c]

/-- The lines of a text, without blanks at their ends, with a blank between them. -/
def oneLine (cs : List Char) : List Char := joined [' '] ((lines (trimEnd cs)).map trimEnd)

def prose (text : String) : List Char := escapeBars (oneLine text.toList)

/-- Inline code; the fence is doubled if the text holds a backtick. -/
def codeSpan (text : String) : List Char :=
  let text := prose text
  if text.contains '`' then ['`', '`', ' '] ++ text ++ [' ', '`', '`'] else '`' :: text ++ ['`']

/-- The cells of one line of a table, column by column. -/
abbrev Cells := List (List Char)

def header : Cells :=
  ["Name".toList, "Description".toList, "Type".toList, "Value".toList]

def Row.cells (row : Row) : Cells :=
  [codeSpan row.path, prose row.description, codeSpan row.type, codeSpan row.value]

/-- The columns that are at least as wide as `widths` and the cells. -/
def widen (widths : List Nat) (cells : Cells) : List Nat :=
  List.zipWith (fun width cell => max width cell.length) widths cells

def widthsOf (lines : List Cells) : List Nat := lines.foldl widen (header.map List.length)

def padded (width : Nat) (cell : List Char) : List Char :=
  cell ++ List.replicate (width - cell.length) ' '

def cellText (width : Nat) (cell : List Char) : List Char := ' ' :: padded width cell ++ [' ', '|']

def lineText (widths : List Nat) (cells : Cells) : List Char :=
  '|' :: (List.zipWith cellText widths cells).flatten ++ ['\n']

/-- The line between the header and the rows. -/
def ruleText (widths : List Nat) : List Char :=
  lineText widths (widths.map fun width => List.replicate width '-')

/-- The lines of a table with the given rows. -/
def rowsText (rows : List Row) : List Char :=
  let lines := rows.map Row.cells
  let widths := widthsOf lines
  lineText widths header ++ ruleText widths ++ (lines.map (lineText widths)).flatten

def headingText (depth : Nat) (title : String) : List Char :=
  '\n' :: List.replicate depth '#' ++ ' ' :: title.toList ++ ['\n', '\n']

/-- Tables, each under a heading one level below `depth`. -/
def markdown (depth : Nat) (tables : List Table) : List Char :=
  (tables.map fun table => headingText (depth + 1) table.title ++ rowsText table.rows).flatten

end AnnotatedValues.Table
