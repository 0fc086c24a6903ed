import CorridorRank.Value.Basic

/-!
# Reading comma-separated text

The reader follows the usual spreadsheet dialect: fields are separated by commas, a field
that starts with a double quote runs to the next lone double quote (a doubled quote inside
stands for one, and commas and line breaks inside are kept), and characters after a closing
quote are kept as if unquoted. Records end at a line break: line feed, carriage return or
both together.

The text is cut into lines first, each line keeping its break, and a machine of six states
reads the lines one character at a time with an end-of-line step after each. A record is
complete when a line leaves the machine at the start of a record; a line that is empty gives
an empty record. When the text ends inside a quoted field, that field and its record are
complete too.

`Csv.records` gives the records; `Csv.rows` reads the first record as the column names and
each later non-empty record as a row of named cells: a short record leaves its last columns
empty (`null`), cells beyond the names are dropped, and a repeated name keeps its last cell.
-/

namespace CorridorRank.Csv

/-- Cuts a text into lines, each keeping its line break (`\n`, `\r` or `\r\n`); the last
line may have none. -/
def lines : List Char → List Char → List (List Char)
  | [], acc => if acc.isEmpty then [] else [acc.reverse]
  | '\r' :: '\n' :: cs, acc => ('\n' :: '\r' :: acc).reverse :: lines cs []
  | c :: cs, acc =>
    if c = '\n' || c = '\r' then (c :: acc).reverse :: lines cs [] else lines cs (c :: acc)

/-- Where the reader stands. -/
inductive State where
  /-- Before the first field of a record. -/
  | startRecord
  /-- Before a field. -/
  | startField
  /-- Inside an unquoted field. -/
  | inField
  /-- Inside a quoted field. -/
  | inQuoted
  /-- Just after a quote inside a quoted field: a closing quote, or the first of a pair. -/
  | quoteInQuoted
  /-- After the line break that ended a record. -/
  | eatLineBreak
  deriving DecidableEq, Inhabited

/-- The reader: its state, the current field (reversed) and the finished fields of the
current record (reversed). -/
structure Scan where
  state : State
  field : List Char
  fields : List String
  deriving Inhabited

namespace Scan

/-- The reader before any text. -/
def initial : Scan := ⟨.startRecord, [], []⟩

/-- Closes the current field. -/
def save
    (s : Scan) :
    Scan :=
  { s with field := [], fields := String.ofList s.field.reverse :: s.fields }

/-- Adds a character to the current field. -/
def push
    (s : Scan)
    (c : Char) :
    Scan := { s with field := c :: s.field }

/-- Moves to another state. -/
def go
    (s : Scan)
    (st : State) :
    Scan := { s with state := st }

/-- Whether a character breaks a line. -/
def isBreak
    (c : Char) :
    Bool := c = '\n' || c = '\r'

/-- Reads one character where a field may start. -/
def startField
    (s : Scan)
    (c : Char) :
    Scan :=
  if isBreak c then s.save.go .eatLineBreak
  else if c = Char.ofNat 34 then s.go .inQuoted
  else if c = ',' then s.save.go .startField
  else (s.push c).go .inField

/-- Reads one character. A line break before any field ends an empty record, not an empty field;
within one line only line-break characters follow a line break, and they are skipped. -/
def feed
    (s : Scan)
    (c : Char) :
    Scan :=
  match s.state with
  | .startRecord => if isBreak c then s.go .eatLineBreak else startField s c
  | .startField => startField s c
  | .inField =>
    if isBreak c then s.save.go .eatLineBreak
    else if c = ',' then s.save.go .startField
    else s.push c
  | .inQuoted =>
    if c = Char.ofNat 34 then s.go .quoteInQuoted else s.push c
  | .quoteInQuoted =>
    if c = Char.ofNat 34 then (s.push c).go .inQuoted
    else if c = ',' then s.save.go .startField
    else if isBreak c then s.save.go .eatLineBreak
    else (s.push c).go .inField
  | .eatLineBreak => s

/-- The end of a line. -/
def endLine
    (s : Scan) :
    Scan :=
  match s.state with
  | .startRecord => s
  | .startField | .inField | .quoteInQuoted => s.save.go .startRecord
  | .inQuoted => s
  | .eatLineBreak => s.go .startRecord

/-- The record read so far, in order. -/
def record
    (s : Scan) :
    List String := s.fields.reverse

end Scan

/-- Reads lines from a reader state, collecting complete records. -/
def readLines : List (List Char) → Scan → List (List String)
  | [], s => if s.state = .inQuoted then [s.save.record] else []
  | line :: rest, s =>
    let s := (line.foldl Scan.feed s).endLine
    if s.state = .startRecord then s.record :: readLines rest { s with fields := [] }
    else readLines rest s

/-- The records of a text. -/
def records
    (text : String) :
    List (List String) :=
  readLines (lines text.toList []) Scan.initial

/-- One row under the column names: cells by name, missing cells empty. -/
def rowOf
    (names : List String)
    (cells : List String) :
    List (Text × Value) :=
  (names.zipIdx.foldl (fun acc (name, i) =>
    Value.setField acc name (match cells[i]? with | some c => .str c | none => .null)) [])

/-- The rows of a text with a header record; empty records are skipped. -/
def rows
    (text : String) :
    List (List (Text × Value)) :=
  match records text with
  | [] => []
  | names :: rest => (rest.filter (!·.isEmpty)).map (rowOf names)

end CorridorRank.Csv
