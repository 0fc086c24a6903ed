import CorridorRank.Value.Text

/-!
# Writing comma-separated text

Rows are written in the spreadsheet dialect the reader accepts: cells separated by commas,
each row ended by a carriage return and a line feed. A cell is quoted only when it has to
be, that is when it holds a comma, a double quote or a line-break character; inside quotes a
double quote is doubled. A row of a single empty cell is written as `""` so that it does not
read back as an empty line.

Cells come from values: nothing is the empty cell, text is itself, and any other value is
written as its display text. Rows are texts; writing one to a file needs its UTF-8
encoding, which a lone surrogate prevents.
-/

namespace CorridorRank.Csv

/-- The code point of the double quote. -/
def quotePoint : Nat := 34

/-- Whether a cell must be quoted. -/
def needsQuotes
    (t : Text) :
    Bool :=
  t.points.any fun n => n = 44 || n = quotePoint || n = 13 || n = 10

/-- A cell as written. -/
def cell
    (t : Text) :
    Text :=
  if needsQuotes t then
    ⟨quotePoint :: t.points.flatMap (fun n => if n = quotePoint then [n, n] else [n]) ++
      [quotePoint]⟩
  else t

/-- The text of a value in a cell. -/
def cellText
    (v : Value) :
    Text :=
  match v with
  | .null => Text.empty
  | other => other.display

/-- One row, with its line ending. -/
def row
    (cells : List Text) :
    Text :=
  if cells == [Text.empty] then ⟨[quotePoint, quotePoint, 13, 10]⟩
  else Text.join "," (cells.map cell) ++ "\r\n"

/-- One row of values. -/
def valueRow
    (cells : List Value) :
    Text :=
  row (cells.map cellText)

/-- A cell without special characters is written as it is. -/
theorem cell_of_not_needsQuotes
    (t : Text)
    (h : needsQuotes t = false) :
    cell t = t := by
  simp [cell, h]

end CorridorRank.Csv
