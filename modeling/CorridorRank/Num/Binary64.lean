/-!
# Doubles as exact binary fractions

A finite double is `(-1)^neg · sig · 2^exp`. This module reads that form off the bits of a
`Float` (`Binary64.shape`) and, the other way, builds the double nearest to a non-negative
rational `num / den`, a tie going to the even significand (`Binary64.ofRatio`). Every exact
quantity of the library becomes a float through `ofRatio`: integers, quotients of integers,
decimal texts and values rounded to a number of places. Comparisons between an integer and a
float are made exactly on these fractions (`Binary64.compareInt`).
-/

namespace CorridorRank.Binary64

/-- The three kinds of double: not a number, a signed infinity, or a finite `sig · 2^exp`
with its sign (the sign of zero is kept). -/
inductive Shape where
  | nan
  | infinite (neg : Bool)
  | finite (neg : Bool) (sig : Nat) (exp : Int)
  deriving Repr, DecidableEq

/-- Number of stored fraction bits of a double. -/
def fractionBits : Nat := 52

/-- The least exponent of a significand unit: subnormals are multiples of `2^-1074`. -/
def leastExponent : Int := -1074

/-- The greatest exponent with which a 53-bit significand stays finite. -/
def greatestExponent : Int := 971

/-- Reads sign, significand and exponent off 64 bits: the sign bit, an 11-bit exponent field
and a 52-bit fraction. -/
def Shape.ofBits
    (bits : Nat) :
    Shape :=
  let neg := bits / Nat.pow 2 63 % 2 == 1
  let field := bits / Nat.pow 2 fractionBits % 2048
  let frac := bits % Nat.pow 2 fractionBits
  if field == 2047 then
    if frac == 0 then .infinite neg else .nan
  else if field == 0 then .finite neg frac leastExponent
  else .finite neg (frac + Nat.pow 2 fractionBits) ((field : Int) - 1075)

/-- Reads sign, significand and exponent off the 64 bits of a double. -/
def shape
    (x : Float) :
    Shape := Shape.ofBits x.toBits.toNat

/-- The double with the given sign, significand and exponent, or `none` when the value is
beyond the largest finite double. The significand is below `2^53`; one below `2^52` is
subnormal and then carries the least exponent. -/
def encode
    (neg : Bool)
    (sig : Nat)
    (exp : Int) :
    Option Float :=
  let signBit := if neg then Nat.pow 2 63 else 0
  if sig == 0 then some (Float.ofBits (UInt64.ofNat signBit))
  else if exp > greatestExponent then none
  else if sig < Nat.pow 2 fractionBits then some (Float.ofBits (UInt64.ofNat (signBit + sig)))
  else
    let field := (exp + 1075).toNat
    some (Float.ofBits (UInt64.ofNat
      (signBit + field * Nat.pow 2 fractionBits + (sig - Nat.pow 2 fractionBits))))

/-- `⌊num / (den · 2^e)⌋` together with the rest, as numerator and denominator of the
scaled quotient. -/
def scaled
    (num den : Nat)
    (e : Int) :
    Nat × Nat :=
  if e ≥ 0 then (num, den * Nat.pow 2 e.toNat) else (num * Nat.pow 2 (-e).toNat, den)

/-- The quotient `n / d` rounded to the nearest integer, a half going to the even one. -/
def roundHalfEven
    (n d : Nat) :
    Nat :=
  let q := n / d
  let r := n % d
  if 2 * r > d || (2 * r == d && q % 2 == 1) then q + 1 else q

/-- Significand and exponent of the double nearest to `num / den` (both positive), before
the range check: the exponent is the least one for which the rounded significand is below
`2^53`, and never below `leastExponent`. -/
def nearestParts
    (num den : Nat) :
    Nat × Int :=
  let e0 : Int := (num.log2 : Int) - den.log2 - 52
  let (n0, d0) := scaled num den e0
  let e1 := if n0 / d0 < Nat.pow 2 fractionBits then e0 - 1 else e0
  let e := max e1 leastExponent
  let (n, d) := scaled num den e
  let q := roundHalfEven n d
  if q == Nat.pow 2 (fractionBits + 1) then (Nat.pow 2 fractionBits, e + 1) else (q, e)

/-- The double nearest to `±num / den`, a tie going to the even significand; `none` when the
rounded value is beyond the largest finite double. A zero numerator gives a zero of the
given sign. -/
def ofRatio
    (neg : Bool)
    (num den : Nat) :
    Option Float :=
  if num == 0 || den == 0 then encode neg 0 0
  else
    let (sig, exp) := nearestParts num den
    encode neg sig exp

/-- The double nearest to an integer, or `none` when it is too large. -/
def ofInt
    (n : Int) :
    Option Float :=
  ofRatio (n < 0) n.natAbs 1

/-- A finite double as an exact fraction `num / den` of its absolute value. -/
def magnitude
    (sig : Nat)
    (exp : Int) :
    Nat × Nat :=
  if exp ≥ 0 then (sig * Nat.pow 2 exp.toNat, 1) else (sig, Nat.pow 2 (-exp).toNat)

/-- Exact comparison of an integer with a double; `none` when the double is not a number. Both sides
are compared over the denominator of the double's magnitude. -/
def compareInt
    (n : Int)
    (x : Float) :
    Option Ordering :=
  match shape x with
  | .nan => none
  | .infinite neg => some (if neg then .gt else .lt)
  | .finite neg sig exp =>
    let (num, den) := magnitude sig exp
    let rhs : Int := if neg then -((num : Int)) else num
    some (compare (n * den) rhs)

/-- Truncation of a finite double toward zero, as an integer. -/
def truncate
    (neg : Bool)
    (sig : Nat)
    (exp : Int) :
    Int :=
  let (num, den) := magnitude sig exp
  let q : Int := (num / den : Nat)
  if neg then -q else q

end CorridorRank.Binary64
