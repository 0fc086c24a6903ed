import CorridorRank.Text.Digit

/-!
# Reading calendar dates and clock times

A request gives its travel date as `YYYY-MM-DD` and its departure as `HH:MM`. Both are read
by a pattern of fixed separators and numeric fields, each field a list of alternatives tried
in order, the way a backtracking matcher does:

* year: four decimal digits (of any script);
* month: `1[0-2]`, `0[1-9]` or `[1-9]`;
* day: `3[01]`, `[12]` and a digit, `0[1-9]`, `[1-9]`, or a space and `[1-9]`;
* hour: `2[0-3]`, `[01]` and a digit, or one digit;
* minute: `[0-5]` and a digit, or one digit.

The first combination of alternatives for which every separator matches is taken; the text
must then end there. A date must also exist in the proleptic Gregorian calendar, from year 1.
-/

namespace CorridorRank.Pattern

/-- One character of a field: its numeric value, if the character is allowed there. -/
abbrev Slot := Char → Option Nat

/-- Any decimal digit, of any script. -/
def anyDigit : Slot := Text.digitValue?

/-- An ASCII digit between `lo` and `hi`. -/
def digitIn
    (lo hi : Nat) :
    Slot := fun c =>
  if '0'.toNat + lo ≤ c.toNat && c.toNat ≤ '0'.toNat + hi then some (c.toNat - '0'.toNat)
  else none

/-- A leading space, worth nothing. -/
def space : Slot := fun c => if c = ' ' then some 0 else none

/-- A piece of a pattern: a fixed character, or a field with its alternatives. -/
inductive Piece where
  | literal (c : Char)
  | field (alternatives : List (List Slot))

/-- Reads one alternative from the front: the decimal value of its characters and the rest. -/
def readSlots : List Slot → List Char → Option (Nat × List Char)
  | [], rest => some (0, rest)
  | _ :: _, [] => none
  | s :: ss, c :: cs => do
    let d ← s c
    let (v, rest) ← readSlots ss cs
    pure (d * 10 ^ ss.length + v, rest)

/-- Matches pieces from the front, trying a field's alternatives in order: the field values
and what follows the match. -/
def run : List Piece → List Char → Option (List Nat × List Char)
  | [], rest => some ([], rest)
  | .literal c :: ps, cs =>
    match cs with
    | d :: rest => if d = c then run ps rest else none
    | [] => none
  | .field alts :: ps, cs =>
    alts.findSome? fun alt => do
      let (v, rest) ← readSlots alt cs
      let (vs, rest') ← run ps rest
      pure (v :: vs, rest')

/-- Matches a whole text: the field values if the match ends with the text. -/
def fullMatch
    (ps : List Piece)
    (s : String) :
    Option (List Nat) :=
  match run ps s.toList with
  | some (vs, []) => some vs
  | _ => none

/-- `YYYY-MM-DD`. -/
def datePieces : List Piece :=
  [.field [[anyDigit, anyDigit, anyDigit, anyDigit]], .literal '-',
   .field [[digitIn 1 1, digitIn 0 2], [digitIn 0 0, digitIn 1 9], [digitIn 1 9]], .literal '-',
   .field [[digitIn 3 3, digitIn 0 1], [digitIn 1 2, anyDigit], [digitIn 0 0, digitIn 1 9],
     [digitIn 1 9], [space, digitIn 1 9]]]

/-- `HH:MM`. -/
def clockPieces : List Piece :=
  [.field [[digitIn 2 2, digitIn 0 3], [digitIn 0 1, anyDigit], [anyDigit]], .literal ':',
   .field [[digitIn 0 5, anyDigit], [anyDigit]]]

/-- Whether a year of the Gregorian calendar has 29 February. -/
def isLeap
    (year : Nat) :
    Bool :=
  year % 4 == 0 && (year % 100 != 0 || year % 400 == 0)

/-- The number of days of a month (1 to 12) of a year. -/
def daysIn
    (year month : Nat) :
    Nat :=
  match month with
  | 2 => if isLeap year then 29 else 28
  | 4 | 6 | 9 | 11 => 30
  | _ => 31

/-- Whether year, month and day name a day of the calendar. -/
def isDate
    (year month day : Nat) :
    Bool :=
  1 ≤ year && 1 ≤ month && month ≤ 12 && 1 ≤ day && day ≤ daysIn year month

/-- The year, month and day of a `YYYY-MM-DD` text naming an existing day. -/
def readDate?
    (s : String) :
    Option (Nat × Nat × Nat) :=
  match fullMatch datePieces s with
  | some [y, m, d] => if isDate y m d then some (y, m, d) else none
  | _ => none

/-- The hour and minute of an `HH:MM` text. -/
def readClock?
    (s : String) :
    Option (Nat × Nat) :=
  match fullMatch clockPieces s with
  | some [h, m] => some (h, m)
  | _ => none

theorem daysIn_le
    (year month : Nat) :
    daysIn year month ≤ 31 := by
  unfold daysIn
  split
  · split <;> omega
  all_goals omega

end CorridorRank.Pattern
