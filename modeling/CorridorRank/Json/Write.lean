import CorridorRank.Value.Text

/-!
# Writing JSON text

`Json.render` writes a value as JSON on one line: records as objects in field order, lists
and tuples as arrays, integers in decimal and doubles in their shortest form (`30.0`,
`1e+16`). Strings are quoted with only ASCII characters: quote, backslash and control
characters are escaped, and every non-ASCII code point is a `\u` escape, code points beyond
the basic plane as a surrogate pair and a lone surrogate as itself. Not-a-number and infinities, which JSON lacks, are
written `NaN`, `Infinity` and `-Infinity`.
-/

namespace CorridorRank.Json

/-- A `\u` escape of one UTF-16 unit. -/
def unitEscape
    (n : Nat) :
    List Char :=
  Text.backslash :: 'u' :: Text.hexDigits 4 n

/-- How one code point is written inside a JSON string. -/
def escapePoint
    (n : Nat) :
    List Char :=
  let c := Char.ofNat n
  if n == Text.quoteMark.toNat || n == Text.backslash.toNat then [Text.backslash, c]
  else if n == 10 then [Text.backslash, 'n']
  else if n == 13 then [Text.backslash, 'r']
  else if n == 9 then [Text.backslash, 't']
  else if n == 8 then [Text.backslash, 'b']
  else if n == 12 then [Text.backslash, 'f']
  else if n < 0x20 then unitEscape n
  else if n < 0x7f then [c]
  else if n < 0x10000 then unitEscape n
  else
    let m := n - 0x10000
    unitEscape (0xD800 + m / 0x400) ++ unitEscape (0xDC00 + m % 0x400)

/-- A JSON string literal. -/
def quote
    (t : Text) :
    String :=
  String.ofList (Text.quoteMark :: t.points.flatMap escapePoint ++ [Text.quoteMark])

/-- A double in JSON; the values JSON lacks by their usual names. -/
def floatText
    (x : Float) :
    String :=
  if x.isNaN then "NaN"
  else if x.isInf then (if x > 0.0 then "Infinity" else "-Infinity")
  else Value.floatText x

mutual

/-- A value as one line of JSON. -/
def render : Value → String
  | .null => "null"
  | .bool b => if b then "true" else "false"
  | .int n => Value.intText n
  | .float x => floatText x
  | .str t => quote t
  | .list items => "[" ++ renderItems items ++ "]"
  | .tuple items => "[" ++ renderItems items ++ "]"
  | .dict fields => "\x7b" ++ renderFields fields ++ "\x7d"

/-- Array items separated by commas. -/
def renderItems : List Value → String
  | [] => ""
  | [x] => render x
  | x :: rest => render x ++ ", " ++ renderItems rest

/-- Object members separated by commas. -/
def renderFields : List (Text × Value) → String
  | [] => ""
  | [(k, v)] => quote k ++ ": " ++ render v
  | (k, v) :: rest => quote k ++ ": " ++ render v ++ ", " ++ renderFields rest

end

end CorridorRank.Json
