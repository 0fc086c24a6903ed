import CorridorRank.Fault
import CorridorRank.Num.Read

/-!
# Reading JSON text

`Json.parse` reads one JSON document into a `Value`: objects become records (a repeated
name keeps its first place and its last value), arrays lists, numbers without fraction or
exponent integers of any size and the others doubles (rounded to nearest), and the words
`NaN`, `Infinity` and `-Infinity` the matching doubles. Blanks are space, tab, line feed and
carriage return. Strings may not hold raw control characters; they become texts, where a
`\u` escape of a surrogate without its partner stays a lone surrogate.

A text that is not a document fails with a `Json.Failure`: what was expected and the
character position where reading stopped; its message adds the line and column.
Reading also stops, whatever follows, at an integer literal with more digits than integer
reading allows, and at an array or object opened `nestLimit` levels deep.
-/

namespace CorridorRank.Json

/-- Why a text is not read as a JSON document. -/
inductive Failure where
  /-- The text breaks the grammar: what was expected, and the character index where
  reading stopped. -/
  | malformed (reason : String) (pos : Nat)
  /-- An integer literal has `count` digits, more than integer reading allows. -/
  | tooManyDigits (count : Nat)
  /-- An array (or an object, when `object` holds) was opened `nestLimit` levels deep. -/
  | tooDeep (object : Bool)
  deriving Repr

/-- The depth at which opening an array or object stops reading. -/
def nestLimit : Nat := 990

/-- The text of a grammar failure: reason, then line, column and character index. The column counts
from the last line feed before the position. -/
def malformedMessage
    (reason : String)
    (pos : Nat)
    (doc : String) :
    String :=
  let before := doc.toList.take pos
  let line := before.count '\n' + 1
  let col := (before.reverse.takeWhile (· != '\n')).length + 1
  reason ++ ": line " ++ toString line ++ " column " ++ toString col ++ " (char " ++
    toString pos ++ ")"

/-- The fault a failure to read `doc` stands for. -/
def Failure.toFault
    (doc : String) :
    Failure → Fault
  | .malformed reason pos => .jsonDecode (malformedMessage reason pos doc)
  | .tooManyDigits count => .valueError (NumberText.digitLimitMessage count)
  | .tooDeep object =>
    .recursionError ("maximum recursion depth exceeded while decoding a JSON " ++
      (if object then "object" else "array") ++ " from a unicode string")

/-- The outcome of reading a part of the text: a value and the position after it. -/
abbrev Step := Except Failure (Value × Nat)

/-- Whether a character is a JSON blank. -/
def isBlank
    (c : Char) :
    Bool := c == ' ' || c == '\t' || c == '\n' || c == '\r'

/-- The first position at or after `i` that is not a blank. -/
def skipBlank
    (cs : Array Char)
    (i : Nat) :
    Nat :=
  if h : i < cs.size then
    if isBlank cs[i] then skipBlank cs (i + 1) else i
  else i
termination_by cs.size - i

/-- The value of a hexadecimal digit. -/
def hexValue
    (c : Char) :
    Option Nat :=
  if '0' ≤ c && c ≤ '9' then some (c.toNat - 48)
  else if 'a' ≤ c && c ≤ 'f' then some (c.toNat - 87)
  else if 'A' ≤ c && c ≤ 'F' then some (c.toNat - 55)
  else none

/-- The value of four hexadecimal digits starting at `i`. -/
def hex4
    (cs : Array Char)
    (i : Nat) :
    Option Nat :=
  (List.range 4).foldlM (fun acc k => (hexValue (cs.getD (i + k) ' ')).map (acc * 16 + ·)) 0

/-- Reads the code points of a string whose opening quote is at `start`, from position `i`,
accumulating them in reverse; returns the text and the position after the closing quote.
A `\u` escape of a high surrogate followed by one of a low surrogate is one code point;
any other surrogate escape stays a lone surrogate. -/
def stringBody
    (cs : Array Char)
    (start : Nat)
    (i : Nat)
    (acc : List Nat) :
    Except Failure (Text × Nat) :=
  if h : i < cs.size then
    let c := cs[i]
    if c == Char.ofNat 34 then .ok (⟨acc.reverse⟩, i + 1)
    else if c == Char.ofNat 92 then
      if h2 : i + 1 < cs.size then
        let e := cs[i + 1]
        let simple : Option Char :=
          if e == Char.ofNat 34 then some e
          else if e == Char.ofNat 92 then some e
          else if e == '/' then some '/'
          else if e == 'b' then some (Char.ofNat 8)
          else if e == 'f' then some (Char.ofNat 12)
          else if e == 'n' then some '\n'
          else if e == 'r' then some '\r'
          else if e == 't' then some '\t'
          else none
        match simple with
        | some ch => stringBody cs start (i + 2) (ch.toNat :: acc)
        | none =>
          if e != 'u' then .error (.malformed "Invalid \\escape" i)
          else if i + 6 ≥ cs.size then .error (.malformed "Invalid \\uXXXX escape" (i + 1))
          else match hex4 cs (i + 2) with
            | none => .error (.malformed "Invalid \\uXXXX escape" (i + 1))
            | some hi =>
              if 0xD800 ≤ hi && hi < 0xDC00 && i + 12 < cs.size &&
                  cs.getD (i + 6) ' ' == Char.ofNat 92 && cs.getD (i + 7) ' ' == 'u' then
                match hex4 cs (i + 8) with
                | none => .error (.malformed "Invalid \\uXXXX escape" (i + 7))
                | some lo =>
                  if 0xDC00 ≤ lo && lo < 0xE000 then
                    stringBody cs start (i + 12)
                      ((0x10000 + (hi - 0xD800) * 0x400 + (lo - 0xDC00)) :: acc)
                  else stringBody cs start (i + 6) (hi :: acc)
              else stringBody cs start (i + 6) (hi :: acc)
      else .error (.malformed "Unterminated string starting at" start)
    else if c.toNat < 0x20 then .error (.malformed "Invalid control character at" i)
    else stringBody cs start (i + 1) (c.toNat :: acc)
  else .error (.malformed "Unterminated string starting at" start)
termination_by cs.size - i

/-- Whether a character is an ASCII digit. -/
def isDigit
    (c : Char) :
    Bool := '0' ≤ c && c ≤ '9'

/-- The end of the run of digits starting at `i`. -/
def digitsEnd
    (cs : Array Char)
    (i : Nat) :
    Nat :=
  if h : i < cs.size then
    if isDigit cs[i] then digitsEnd cs (i + 1) else i
  else i
termination_by cs.size - i

/-- Reads a number at `i`: `-? (0 | [1-9][0-9]*) (. [0-9]+)? ([eE] [+-]? [0-9]+)?`; `none`
when no number starts there. Without fraction and exponent it is an integer, which fails
when it has too many digits. -/
def number?
    (cs : Array Char)
    (i : Nat) :
    Option Step :=
  let j := if cs.getD i ' ' == '-' then i + 1 else i
  if !isDigit (cs.getD j ' ') then none
  else
    let intEnd := if cs.getD j ' ' == '0' then j + 1 else digitsEnd cs j
    let fracEnd :=
      if cs.getD intEnd ' ' == '.' && isDigit (cs.getD (intEnd + 1) ' ') then
        digitsEnd cs (intEnd + 1)
      else intEnd
    let expEnd :=
      let c := cs.getD fracEnd ' '
      if c == 'e' || c == 'E' then
        let k := if cs.getD (fracEnd + 1) ' ' == '+' || cs.getD (fracEnd + 1) ' ' == '-' then
          fracEnd + 2 else fracEnd + 1
        if isDigit (cs.getD k ' ') then digitsEnd cs k else fracEnd
      else fracEnd
    let text := String.ofList ((cs.extract i expEnd).toList)
    if fracEnd == intEnd && expEnd == fracEnd then
      match NumberText.readInt text with
      | .value n => some (.ok (.int n, expEnd))
      | .tooManyDigits count => some (.error (.tooManyDigits count))
      | .invalid => none
    else
      (NumberText.readFloat? text).map fun x => .ok (.float x, expEnd)

/-- Whether the characters from `i` spell `word`. -/
def spells
    (cs : Array Char)
    (i : Nat)
    (word : String) :
    Bool :=
  (cs.extract i (i + word.length)).toList == word.toList

mutual

/-- Reads a value at `i` (no blanks skipped) inside `depth` open arrays and objects.
`fuel` bounds the nesting and the number of items, each of which consumes at least one
character. -/
def value
    (cs : Array Char) :
    Nat → Nat → Nat → Step
  | 0, _, i => .error (.malformed "Expecting value" i)
  | fuel + 1, depth, i =>
    let c := cs.getD i ' '
    if i ≥ cs.size then .error (.malformed "Expecting value" i)
    else if c == Char.ofNat 34 then
      (stringBody cs i (i + 1) []).map fun (s, j) => (.str s, j)
    else if c == Char.ofNat 123 then
      if depth + 1 ≥ nestLimit then .error (.tooDeep true)
      else object cs fuel (depth + 1) (skipBlank cs (i + 1)) [] true
    else if c == '[' then
      if depth + 1 ≥ nestLimit then .error (.tooDeep false)
      else array cs fuel (depth + 1) (skipBlank cs (i + 1)) [] true
    else if c == 'n' && spells cs i "null" then .ok (.null, i + 4)
    else if c == 't' && spells cs i "true" then .ok (.bool true, i + 4)
    else if c == 'f' && spells cs i "false" then .ok (.bool false, i + 5)
    else match number? cs i with
      | some r => r
      | none =>
        if c == 'N' && spells cs i "NaN" then .ok (.float (0.0 / 0.0), i + 3)
        else if c == 'I' && spells cs i "Infinity" then .ok (.float (1.0 / 0.0), i + 8)
        else if c == '-' && spells cs i "-Infinity" then .ok (.float (-(1.0 / 0.0)), i + 9)
        else .error (.malformed "Expecting value" i)

/-- Reads array items from `i` (after blanks), the items so far in reverse. -/
def array
    (cs : Array Char) :
    Nat → Nat → Nat → List Value → Bool → Step
  | 0, _, i, _, _ => .error (.malformed "Expecting value" i)
  | fuel + 1, depth, i, acc, first =>
    if first && cs.getD i ' ' == ']' && i < cs.size then .ok (.list [], i + 1)
    else match value cs fuel depth i with
      | .error e => .error e
      | .ok (v, j) =>
        let j := skipBlank cs j
        if j < cs.size && cs.getD j ' ' == ']' then .ok (.list (v :: acc).reverse, j + 1)
        else if j < cs.size && cs.getD j ' ' == ',' then
          array cs fuel depth (skipBlank cs (j + 1)) (v :: acc) false
        else .error (.malformed "Expecting ',' delimiter" j)

/-- Reads object members from `i` (after blanks), the members so far in order. -/
def object
    (cs : Array Char) :
    Nat → Nat → Nat → List (Text × Value) → Bool → Step
  | 0, _, i, _, _ => .error (.malformed "Expecting value" i)
  | fuel + 1, depth, i, acc, first =>
    if first && cs.getD i ' ' == Char.ofNat 125 && i < cs.size then .ok (.dict [], i + 1)
    else if !(i < cs.size && cs.getD i ' ' == Char.ofNat 34) then
      .error (.malformed "Expecting property name enclosed in double quotes" i)
    else match stringBody cs i (i + 1) [] with
      | .error e => .error e
      | .ok (key, j) =>
        let j := skipBlank cs j
        if !(j < cs.size && cs.getD j ' ' == ':') then
          .error (.malformed "Expecting ':' delimiter" j)
        else match value cs fuel depth (skipBlank cs (j + 1)) with
          | .error e => .error e
          | .ok (v, k) =>
            let acc := Value.setField acc key v
            let k := skipBlank cs k
            if k < cs.size && cs.getD k ' ' == Char.ofNat 125 then .ok (.dict acc, k + 1)
            else if k < cs.size && cs.getD k ' ' == ',' then
              object cs fuel depth (skipBlank cs (k + 1)) acc false
            else .error (.malformed "Expecting ',' delimiter" k)

end

/-- Reads a whole document: blanks around one value, nothing else. -/
def parseChars
    (cs : Array Char) :
    Except Failure Value := do
  if cs.getD 0 ' ' == Char.ofNat 0xFEFF && cs.size > 0 then
    throw (.malformed "Unexpected UTF-8 BOM (decode using utf-8-sig)" 0)
  let (v, j) ← value cs (2 * cs.size + 2) 0 (skipBlank cs 0)
  let j := skipBlank cs j
  if j != cs.size then throw (.malformed "Extra data" j)
  pure v

/-- Reads a JSON document, failing with the fault its failure stands for. -/
def parse
    (doc : String) :
    Except Fault Value :=
  match parseChars doc.toList.toArray with
  | .ok v => .ok v
  | .error f => .error (f.toFault doc)

end CorridorRank.Json
