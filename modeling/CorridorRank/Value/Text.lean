import CorridorRank.Value.Basic
import CorridorRank.Num.FloatText
import CorridorRank.Text.Printable

/-!
# Texts of values

Two texts belong to every value. Its *literal* (`Value.literal`) is how error messages show
it: texts quoted, `None`, `True`, floats in shortest form, `[1, 2]`, `(1.0,)`,
`{'lat': 1}`. Its *display* (`Value.display`) is how it reads inside a sentence: a text is
itself, everything else its literal. A literal escapes every lone surrogate, so it is
always a string; a display is a text.

Quoting (`Text.quote`) uses single quotes unless the text holds a single quote and no double
quote; backslash and the chosen quote are escaped, tab, line feed and carriage return get
their letter escapes, and other non-printable characters (lone surrogates among them) a
hexadecimal escape of two, four or eight digits.
-/

namespace CorridorRank

namespace Text

/-- The single quote character. -/
def apostrophe : Char := Char.ofNat 39

/-- The double quote character. -/
def quoteMark : Char := Char.ofNat 34

/-- The backslash character. -/
def backslash : Char := Char.ofNat 92

/-- Lower-case hexadecimal digits of `n`, zero-padded to `width`. -/
def hexDigits
    (width : Nat)
    (n : Nat) :
    List Char :=
  let ds := Nat.toDigits 16 n
  List.replicate (width - ds.length) '0' ++ ds

/-- How one character is written inside quotes `q`. -/
def escapeChar
    (q : Char)
    (c : Char) :
    List Char :=
  let n := c.toNat
  if c == q || c == backslash then [backslash, c]
  else if c == '\t' then [backslash, 't']
  else if c == '\n' then [backslash, 'n']
  else if c == '\r' then [backslash, 'r']
  else if n < 0x20 || n == 0x7f then backslash :: 'x' :: hexDigits 2 n
  else if n < 0x7f then [c]
  else if isPrintable c then [c]
  else if n ≤ 0xff then backslash :: 'x' :: hexDigits 2 n
  else if n ≤ 0xffff then backslash :: 'u' :: hexDigits 4 n
  else backslash :: 'U' :: hexDigits 8 n

/-- How one code point is written inside quotes `q`; a lone surrogate is not printable. -/
def escapePoint
    (q : Char)
    (n : Nat) :
    List Char :=
  if isSurrogate n then backslash :: 'u' :: hexDigits 4 n
  else escapeChar q (Char.ofNat n)

/-- The quote character a text is written with. -/
def quoteFor
    (ns : List Nat) :
    Char :=
  if ns.contains apostrophe.toNat && !ns.contains quoteMark.toNat then quoteMark
  else apostrophe

/-- A text in quotes, escaped. -/
def quote
    (t : Text) :
    String :=
  let q := quoteFor t.points
  String.ofList (q :: t.points.flatMap (escapePoint q) ++ [q])

end Text

namespace Value

/-- Floats in value texts: shortest digits, positional while the decimal point position is
from -3 to 16, a whole number keeps `.0`, the exponent is written `e`, signed and with at
least two digits; `nan` and `inf` spell the rest. -/
def floatStyle : FloatStyle :=
  { lowestPoint := -3, highestPoint := 16, keepPointZero := true, exponentMark := "e",
    exponentPlus := true, exponentWidth := 2, nanText := "nan", infText := "inf" }

/-- The text of a double in value texts. -/
def floatText
    (x : Float) :
    String := floatStyle.render x

/-- The decimal text of an integer, with a minus sign when negative. -/
def intText
    (n : Int) :
    String :=
  if n < 0 then "-" ++ String.ofList (Nat.toDigits 10 n.natAbs)
  else String.ofList (Nat.toDigits 10 n.natAbs)

mutual

/-- How a value is shown in an error message. -/
def literal : Value → String
  | .null => "None"
  | .bool b => if b then "True" else "False"
  | .int n => intText n
  | .float x => floatText x
  | .str t => Text.quote t
  | .list items => "[" ++ literalItems items ++ "]"
  | .tuple [x] => "(" ++ literal x ++ ",)"
  | .tuple items => "(" ++ literalItems items ++ ")"
  | .dict fields => "\x7b" ++ literalFields fields ++ "\x7d"

/-- The literals of several values, separated by commas. -/
def literalItems : List Value → String
  | [] => ""
  | [x] => literal x
  | x :: rest => literal x ++ ", " ++ literalItems rest

/-- The fields of a record, each as quoted name, colon and literal. -/
def literalFields : List (Text × Value) → String
  | [] => ""
  | [(k, v)] => Text.quote k ++ ": " ++ literal v
  | (k, v) :: rest => Text.quote k ++ ": " ++ literal v ++ ", " ++ literalFields rest

end

/-- How a value reads inside a sentence: a text as itself, anything else as its literal. -/
def display : Value → Text
  | .str t => t
  | v => Text.ofString (literal v)

end Value

end CorridorRank
