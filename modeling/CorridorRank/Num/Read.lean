import CorridorRank.Num.Binary64
import CorridorRank.Text.Blank
import CorridorRank.Text.Digit

/-!
# Reading numbers from text

The grammar of number texts: blanks around the number are ignored, digits of any script
count as their ASCII digit, and a single underscore may stand between two digits. A
decimal is `[sign] (digits [. [digits]] | . digits) [e [sign] digits]`, or `inf`,
`infinity`, `nan` in any case, with a sign; it is rounded to the nearest double, a value
beyond the largest double becoming an infinity. An integer is `[sign] digits`.
`NumberText.readFloat?` returns `none` for a text outside the grammar.

An integer text may have at most `digitLimit` digits. `NumberText.readInt` reads it the
way the limit is enforced: after the blanks and the sign it takes the run of digits and
underscores (two underscores together, or one at either end, make the text invalid at
once), then a run of more than `digitLimit` digits fails on its length before anything
after it is looked at; only then must the rest be blank.
-/

namespace CorridorRank.NumberText

open Text

/-- One character of a number text: ASCII stays, other blanks become a space and digits of
every script their ASCII digit; any other character becomes `?`, which no rule accepts. -/
def normalizeChar
    (c : Char) :
    Char :=
  if c.toNat < 127 then c
  else if isBlank c then ' '
  else match digitValue? c with
    | some d => Char.ofNat (48 + d)
    | none => '?'

/-- The spaces that may surround a number: space, tab, line feed, vertical tab, form feed
and carriage return. -/
def isSpace
    (c : Char) :
    Bool :=
  c == ' ' || (9 ≤ c.toNat && c.toNat ≤ 13)

/-- The normalised characters of a text without surrounding spaces. -/
def normalize
    (s : String) :
    List Char :=
  let cs := s.toList.map normalizeChar
  ((cs.dropWhile isSpace).reverse.dropWhile isSpace).reverse

/-- Whether a character is an ASCII digit. -/
def isDigit
    (c : Char) :
    Bool := '0' ≤ c && c ≤ '9'

/-- Removes underscores that each stand between two digits; `none` if an underscore stands
anywhere else. `prev` is the character before the rest. -/
def dropUnderscores : Char → List Char → Option (List Char)
  | prev, [] => if prev == '_' then none else some []
  | prev, '_' :: rest => if isDigit prev then dropUnderscores '_' rest else none
  | prev, c :: rest =>
    if prev == '_' && !isDigit c then none
    else (dropUnderscores c rest).map (c :: ·)

/-- The value of a string of ASCII digits. -/
def digitsValue
    (ds : List Char) :
    Nat :=
  ds.foldl (fun acc c => acc * 10 + (c.toNat - 48)) 0

/-- A decimal read from text. -/
inductive Literal where
  | nan
  | infinite (neg : Bool)
  | finite (neg : Bool) (digits : Nat) (exp : Int)
  deriving Repr, DecidableEq

/-- Splits off an optional sign. -/
def sign : List Char → Bool × List Char
  | '-' :: rest => (true, rest)
  | '+' :: rest => (false, rest)
  | cs => (false, cs)

/-- ASCII lower case, for the words `inf`, `infinity` and `nan`. -/
def lowerAscii
    (c : Char) :
    Char :=
  if 'A' ≤ c && c ≤ 'Z' then Char.ofNat (c.toNat + 32) else c

/-- The exponent part `e [sign] digits`, or nothing; `none` for an exponent without digits
or any text after the number. -/
def exponentPart : List Char → Option Int
  | [] => some 0
  | c :: rest =>
    if c == 'e' || c == 'E' then
      let (neg, ds) := sign rest
      if !ds.isEmpty && ds.all isDigit then
        let v : Int := digitsValue ds
        some (if neg then -v else v)
      else none
    else none

/-- Reads a decimal from normalised ASCII characters with underscores removed. -/
def literal?
    (cs : List Char) :
    Option Literal :=
  let (neg, body) := sign cs
  let word := String.ofList (body.map lowerAscii)
  if word == "inf" || word == "infinity" then some (.infinite neg)
  else if word == "nan" then some .nan
  else
    let (whole, afterWhole) := body.span isDigit
    let (frac, rest) := match afterWhole with
      | '.' :: r => r.span isDigit
      | r => ([], r)
    if whole.isEmpty && frac.isEmpty then none
    else
      (exponentPart rest).map fun e =>
        .finite neg (digitsValue (whole ++ frac)) (e - frac.length)

/-- The double nearest to `±digits · 10^exp`; an infinity above the largest double. Far out
exponents are settled without computing the power: the value is then surely infinite or
surely rounds to zero. -/
def Literal.toFloat : Literal → Float
  | .nan => 0.0 / 0.0
  | .infinite neg => if neg then -(1.0 / 0.0) else 1.0 / 0.0
  | .finite neg digits exp =>
    let size : Int := (Nat.toDigits 10 digits).length
    let inf := if neg then -(1.0 / 0.0) else 1.0 / 0.0
    let zero := if neg then -0.0 else 0.0
    if digits == 0 then zero
    else if size + exp > 310 then inf
    else if size + exp < -330 then zero
    else
      let r := if exp ≥ 0 then Binary64.ofRatio neg (digits * Nat.pow 10 exp.toNat) 1
        else Binary64.ofRatio neg digits (Nat.pow 10 (-exp).toNat)
      r.getD inf

/-- The double that a text denotes, or `none` for a text outside the decimal grammar. -/
def readFloat?
    (s : String) :
    Option Float :=
  let cs := normalize s
  let cs := if cs.contains '_' then dropUnderscores ' ' cs else some cs
  (cs.bind literal?).map Literal.toFloat

/-- The most digits an integer text may have. -/
def digitLimit : Nat := 4300

/-- The message of an integer text with `count` digits, more than `digitLimit`. -/
def digitLimitMessage
    (count : Nat) :
    String :=
  "Exceeds the limit (" ++ toString digitLimit ++
    " digits) for integer string conversion: value has " ++ toString count ++
    " digits; use sys.set_int_max_str_digits() to increase the limit"

/-- What reading an integer text gives. -/
inductive IntReading where
  | value (n : Int)
  /-- The text is outside the integer grammar. -/
  | invalid
  /-- The leading run has `count` digits, more than `digitLimit`. -/
  | tooManyDigits (count : Nat)
  deriving Repr, DecidableEq

/-- Splits off the run of digits and single underscores that starts an integer body: its
digits and what follows; `none` when two underscores meet or the run ends with one.
`prev` is the character before the rest. -/
def digitRun : Char → List Char → Option (List Char × List Char)
  | prev, [] => if prev == '_' then none else some ([], [])
  | prev, c :: rest =>
    if c == '_' then
      if prev == '_' then none else digitRun '_' rest
    else if isDigit c then (digitRun c rest).map fun (ds, r) => (c :: ds, r)
    else if prev == '_' then none
    else some ([], c :: rest)

/-- Reads an integer text (see the module comment for the order of the checks). -/
def readInt
    (s : String) :
    IntReading :=
  let (neg, body) := sign ((s.toList.map normalizeChar).dropWhile isSpace)
  match body with
  | '_' :: _ => .invalid
  | _ =>
    match digitRun ' ' body with
    | none => .invalid
    | some (ds, rest) =>
      if ds.length > digitLimit then .tooManyDigits ds.length
      else if ds.isEmpty || !rest.all isSpace then .invalid
      else
        let v : Int := digitsValue ds
        .value (if neg then -v else v)

end CorridorRank.NumberText
