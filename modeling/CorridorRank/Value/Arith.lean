import CorridorRank.Fault
import CorridorRank.Num.Binary64
import CorridorRank.Num.Read

/-!
# Arithmetic and order on values

Numbers are integers of any size and doubles; booleans count as 0 and 1. Two integers
combine exactly, except that true division rounds the exact quotient once to the nearest
double. An integer meeting a double is first rounded to a double, which fails for one
beyond the double range. Order and equality between an integer and a double are decided
exactly, and not-a-number is unordered and unequal to everything.

Texts, lists and tuples concatenate with their own kind and repeat by an integer count;
texts, lists and tuples are ordered lexicographically. Every other combination is a
`Fault.typeError` naming the operator and the two kinds.

The conversions `Value.toFloat` and `Value.toInt` read texts by the number grammar and
turn doubles into integers by truncation.
-/

namespace CorridorRank

/-- A number of the value model. -/
inductive Num where
  | int (n : Int)
  | float (x : Float)
  deriving Inhabited

namespace Num

/-- The value holding a number. -/
def toValue : Num → Value
  | .int n => .int n
  | .float x => .float x

/-- A number as a double, failing for an integer beyond the double range. -/
def toFloat : Num → Except Fault Float
  | .int n => match Binary64.ofInt n with
    | some x => .ok x
    | none => .error Fault.intTooLarge
  | .float x => .ok x

/-- How two numbers are ordered; `none` when one is not a number. -/
def order? : Num → Num → Option Ordering
  | .int a, .int b => some (compare a b)
  | .int a, .float y => Binary64.compareInt a y
  | .float x, .int b => (Binary64.compareInt b x).map Ordering.swap
  | .float x, .float y =>
    if x < y then some .lt else if x == y then some .eq else if y < x then some .gt else none

end Num

namespace Value

/-- The number a value holds, booleans counting as 0 and 1. -/
def num? : Value → Option Num
  | .bool b => some (.int (if b then 1 else 0))
  | .int n => some (.int n)
  | .float x => some (.float x)
  | _ => none

/-- The integer a value holds, booleans counting as 0 and 1 (a repetition count). -/
def count? : Value → Option Int
  | .bool b => some (if b then 1 else 0)
  | .int n => some n
  | _ => none

/-- The order comparisons. -/
inductive Comparison where
  | lt
  | le
  | gt
  | ge
  deriving DecidableEq

/-- The symbol of a comparison, as error texts write it. -/
def Comparison.symbol : Comparison → String
  | .lt => "<"
  | .le => "<="
  | .gt => ">"
  | .ge => ">="

/-- Whether an ordering satisfies a comparison. -/
def Comparison.holds : Comparison → Ordering → Bool
  | .lt, o => o == .lt
  | .le, o => o != .gt
  | .gt, o => o == .gt
  | .ge, o => o != .lt

mutual

/-- Equality of values: numbers by exact value across kinds, texts by characters, lists
and tuples item by item, records field by field regardless of order. Values of different
kinds are unequal. -/
def equal : Value → Value → Bool
  | .null, .null => true
  | .str a, .str b => a == b
  | .list xs, .list ys => equalItems xs ys
  | .tuple xs, .tuple ys => equalItems xs ys
  | .dict fs, .dict gs => fs.length == gs.length && equalFields fs gs
  | a, b => match a.num?, b.num? with
    | some x, some y => Num.order? x y == some .eq
    | _, _ => false

/-- Item-wise equality of two lists of values. -/
def equalItems : List Value → List Value → Bool
  | [], [] => true
  | x :: xs, y :: ys => equal x y && equalItems xs ys
  | _, _ => false

/-- Whether every field of the first record has an equal value in the second. -/
def equalFields : List (Text × Value) → List (Text × Value) → Bool
  | [], _ => true
  | (k, v) :: rest, gs =>
    (match field? gs k with
      | some w => equal v w
      | none => false) && equalFields rest gs

end

mutual

/-- The kind of the first part of a value that cannot serve as a record key: lists and
records cannot, tuples can when all their items can, everything else can. -/
def unhashable : Value → Option String
  | .list _ => some "list"
  | .dict _ => some "dict"
  | .tuple items => unhashableItems items
  | _ => none

/-- The first item of a list that cannot serve as a record key. -/
def unhashableItems : List Value → Option String
  | [] => none
  | x :: xs => match unhashable x with
    | some t => some t
    | none => unhashableItems xs

end

mutual

/-- An order comparison of two values: numbers exactly (false whenever not-a-number takes
part), texts by code points, lists and tuples lexicographically (the first unequal items
decide, else the lengths). Other kinds cannot be ordered. -/
def compareWith
    (op : Comparison) :
    Value → Value → Except Fault Bool
  | .str a, .str b => .ok (op.holds (Text.compare a b))
  | .list xs, .list ys => compareItems op xs ys
  | .tuple xs, .tuple ys => compareItems op xs ys
  | a, b => match a.num?, b.num? with
    | some x, some y => .ok ((Num.order? x y).map op.holds |>.getD false)
    | _, _ => .error (Fault.notComparable op.symbol a b)

/-- Lexicographic comparison of two item lists. -/
def compareItems
    (op : Comparison) :
    List Value → List Value → Except Fault Bool
  | x :: xs, y :: ys => if equal x y then compareItems op xs ys else compareWith op x y
  | xs, ys => .ok (op.holds (compare xs.length ys.length))

end

/-- `a < b`. -/
def lt
    (a b : Value) :
    Except Fault Bool := compareWith .lt a b

/-- `a > b`. -/
def gt
    (a b : Value) :
    Except Fault Bool := compareWith .gt a b

/-- The larger of two values: the second only if it is greater than the first. -/
def max2
    (a b : Value) :
    Except Fault Value := do
  if (← compareWith .gt b a) then pure b else pure a

/-- The smaller of two values: the second only if it is less than the first. -/
def min2
    (a b : Value) :
    Except Fault Value := do
  if (← compareWith .lt b a) then pure b else pure a

/-- Rounds the exact quotient of two integers to the nearest double. -/
def intQuotient
    (a b : Int) :
    Except Fault Float :=
  if b == 0 then .error (.zeroDivision "division by zero")
  else match Binary64.ofRatio ((a < 0) != (b < 0)) a.natAbs b.natAbs with
    | some x => .ok x
    | none => .error (.overflowError "integer division result too large for a float")

/-- The remainder of `x` by `y` with the sign of `x`, computed exactly. The remainder of the
magnitudes is taken over their common denominator. -/
def floatRemainder
    (x y : Float) :
    Float :=
  match Binary64.shape x, Binary64.shape y with
  | .finite nx sx ex, .finite _ sy ey =>
    if sy == 0 then 0.0 / 0.0
    else
      let (a, da) := Binary64.magnitude sx ex
      let (b, db) := Binary64.magnitude sy ey
      let r := (a * db) % (b * da)
      (Binary64.ofRatio nx r (da * db)).getD (0.0 / 0.0)
  | .finite _ _ _, .infinite _ => x
  | _, _ => 0.0 / 0.0

/-- Whether the sign bit of a double is set. -/
def signBit
    (x : Float) :
    Bool := x.toBits >>> 63 == 1

/-- Floor division of doubles: the quotient of `x` less its remainder, moved to the floor,
and then to the nearest whole double; a zero quotient takes the sign of `x / y`. -/
def floatFloorDiv
    (x y : Float) :
    Float :=
  let m := floatRemainder x y
  let d := (x - m) / y
  let d := if !(m == 0.0) && ((y < 0.0) != (m < 0.0)) then d - 1.0 else d
  if d == 0.0 then (if signBit (x / y) then -0.0 else 0.0)
  else
    let f := d.floor
    if d - f > 0.5 then f + 1.0 else f

/-- The arithmetic operators. -/
inductive Operator where
  | add
  | sub
  | mul
  | div
  | floorDiv
  deriving DecidableEq

/-- The symbol of an operator, as error texts write it. -/
def Operator.symbol : Operator → String
  | .add => "+"
  | .sub => "-"
  | .mul => "*"
  | .div => "/"
  | .floorDiv => "//"

/-- An operator on two numbers. -/
def numArith
    (op : Operator)
    (a b : Num) :
    Except Fault Value :=
  match op, a, b with
  | .add, .int x, .int y => .ok (.int (x + y))
  | .sub, .int x, .int y => .ok (.int (x - y))
  | .mul, .int x, .int y => .ok (.int (x * y))
  | .div, .int x, .int y => Value.float <$> intQuotient x y
  | .floorDiv, .int x, .int y =>
    if y == 0 then .error (.zeroDivision "integer division or modulo by zero")
    else .ok (.int (Int.fdiv x y))
  | op, a, b => do
    let x ← a.toFloat
    let y ← b.toFloat
    match op with
    | .add => pure (.float (x + y))
    | .sub => pure (.float (x - y))
    | .mul => pure (.float (x * y))
    | .div =>
      if y == 0.0 then throw (.zeroDivision "float division by zero") else pure (.float (x / y))
    | .floorDiv =>
      if y == 0.0 then throw (.zeroDivision "float floor division by zero")
      else pure (.float (floatFloorDiv x y))

/-- The largest size of a sequence (a signed 64-bit count). -/
def countLimit : Int := Int.pow 2 63 - 1

/-- The largest number of items a repetition may build; a larger result cannot be held. -/
def itemLimit : Nat := Nat.pow 2 28

/-- Checks the size of a repetition of `len ≥ 1` items `n ≥ 1` times: the size must fit a
signed 64-bit count (`tooLong` otherwise) and the result must be small enough to hold. -/
def checkRepeat
    (len : Nat)
    (n : Nat)
    (tooLong : Fault) :
    Except Fault Unit :=
  if (len : Int) > countLimit / n then .error tooLong
  else if len * n > itemLimit then .error .memoryError
  else .ok ()

/-- A text, list or tuple repeated `n` times (nothing for `n ≤ 0`). The count must fit a
signed 64-bit integer. An empty sequence, or a count below one, gives the empty sequence before any
length is checked. -/
def repeatSeq
    (seq : Value)
    (n : Int) :
    Except Fault Value :=
  if n > countLimit || n < -countLimit - 1 then
    .error (.overflowError "cannot fit 'int' into an index-sized integer")
  else
    let k := n.toNat
    match seq with
    | .str t => do
      if t.isEmpty || k = 0 then return .str Text.empty
      checkRepeat t.length k (.overflowError "repeated string is too long")
      pure (.str ⟨(List.replicate k t.points).flatten⟩)
    | .list xs => do
      if xs.isEmpty || k = 0 then return .list []
      checkRepeat xs.length k .memoryError
      pure (.list (List.replicate k xs).flatten)
    | .tuple xs => do
      if xs.isEmpty || k = 0 then return .tuple []
      checkRepeat xs.length k .memoryError
      pure (.tuple (List.replicate k xs).flatten)
    | v => .error (Fault.unsupported "*" v (.int n))

/-- Whether a value is a text, list or tuple. -/
def isSequence : Value → Bool
  | .str _ | .list _ | .tuple _ => true
  | _ => false

/-- A binary operator on two values. -/
def arith
    (op : Operator)
    (a b : Value) :
    Except Fault Value :=
  match a.num?, b.num? with
  | some x, some y => numArith op x y
  | _, _ =>
    match op, a, b with
    | .add, .str x, .str y => .ok (.str (x ++ y))
    | .add, .list x, .list y => .ok (.list (x ++ y))
    | .add, .tuple x, .tuple y => .ok (.tuple (x ++ y))
    | .add, .str _, b => .error (.typeError
        ("can only concatenate str (not \"" ++ b.typeName ++ "\") to str"))
    | .add, .list _, b => .error (.typeError
        ("can only concatenate list (not \"" ++ b.typeName ++ "\") to list"))
    | .add, .tuple _, b => .error (.typeError
        ("can only concatenate tuple (not \"" ++ b.typeName ++ "\") to tuple"))
    | .mul, a, b =>
      if a.isSequence then
        match b.count? with
        | some n => repeatSeq a n
        | none => .error (.typeError ("can't multiply sequence by non-int of type '" ++
            b.typeName ++ "'"))
      else if b.isSequence then
        match a.count? with
        | some n => repeatSeq b n
        | none => .error (.typeError ("can't multiply sequence by non-int of type '" ++
            a.typeName ++ "'"))
      else .error (Fault.unsupported op.symbol a b)
    | op, a, b => .error (Fault.unsupported op.symbol a b)

/-- `a + b`. -/
def add
    (a b : Value) :
    Except Fault Value := arith .add a b

/-- `a - b`. -/
def sub
    (a b : Value) :
    Except Fault Value := arith .sub a b

/-- `a * b`. -/
def mul
    (a b : Value) :
    Except Fault Value := arith .mul a b

/-- `a / b`. -/
def div
    (a b : Value) :
    Except Fault Value := arith .div a b

/-- `a // b`. -/
def floorDiv
    (a b : Value) :
    Except Fault Value := arith .floorDiv a b

/-- A value as a double: numbers directly, texts by the decimal grammar. -/
def toFloat : Value → Except Fault Float
  | .str t => match NumberText.readFloat? (t.withStand '?') with
    | some x => .ok x
    | none => .error (.valueError ("could not convert string to float: " ++ Text.quote t))
  | v => match v.num? with
    | some n => n.toFloat
    | none => .error (.typeError
        ("float() argument must be a string or a real number, not '" ++ v.typeName ++ "'"))

/-- A double truncated toward zero to an integer; not-a-number and infinities fail. -/
def truncFloat
    (x : Float) :
    Except Fault Int :=
  match Binary64.shape x with
  | .nan => .error (.valueError "cannot convert float NaN to integer")
  | .infinite _ => .error (.overflowError "cannot convert float infinity to integer")
  | .finite neg sig exp => .ok (Binary64.truncate neg sig exp)

/-- A value as an integer: integers directly, doubles truncated, texts by the integer
grammar. The message of an invalid text shows at most 200 characters of its literal. -/
def toInt : Value → Except Fault Int
  | .str t => match NumberText.readInt (t.withStand '?') with
    | .value n => .ok n
    | .tooManyDigits count => .error (.valueError (NumberText.digitLimitMessage count))
    | .invalid => .error (.valueError ("invalid literal for int() with base 10: " ++
        String.ofList ((Text.quote t).toList.take 200)))
  | .float x => truncFloat x
  | v => match v.count? with
    | some n => .ok n
    | none => .error (.typeError
        ("int() argument must be a string, a bytes-like object or a real number, not '" ++
          v.typeName ++ "'"))

/-- A value as a double after `toFloat`, kept as a value. -/
def asFloat
    (v : Value) :
    Except Fault Value := Value.float <$> v.toFloat

end Value

end CorridorRank
