import CorridorRank.Num.Binary64

/-!
# Decimal digits of a double

`Decimal.shortest` gives, for a positive finite double, the decimal with the fewest
significant digits that reads back as that double (the nearest of them when two qualify,
an exact tie going to the even digit). `Decimal.toPlaces` rounds the exact value of a double
to a fixed number of decimal places, a half going to the even neighbour. Both work on exact
natural-number arithmetic over the fraction that `Binary64.shape` reads off the bits.
-/

namespace CorridorRank.Decimal

open Binary64

/-- A decimal `digits · 10^exp`. -/
structure Sci where
  digits : Nat
  exp : Int
  deriving Repr, DecidableEq

/-- Compares `c · 10^k` with the fraction `x / d`. -/
def compareScaled
    (c : Nat)
    (k : Int)
    (x d : Nat) :
    Ordering :=
  if k ≥ 0 then compare (c * Nat.pow 10 k.toNat * d) x
  else compare (c * d) (x * Nat.pow 10 (-k).toNat)

/-- Moves an estimate `k` of `⌊log10 (x / d)⌋` to the exact value, a step at a time. -/
def fixLog10
    (x d : Nat) :
    Nat → Int → Int
  | 0, k => k
  | fuel + 1, k =>
    if compareScaled 1 k x d == .gt then fixLog10 x d fuel (k - 1)
    else if compareScaled 1 (k + 1) x d != .gt then fixLog10 x d fuel (k + 1)
    else k

/-- `⌊log10 (x / d)⌋` for positive `x` and `d`. The bit lengths give it to within two. -/
def floorLog10
    (x d : Nat) :
    Int :=
  let est : Int := ((x.log2 : Int) - d.log2) * 30103 / 100000
  fixLog10 x d 8 est

/-- `⌊x / (d · 10^k)⌋`. -/
def floorScaled
    (x d : Nat)
    (k : Int) :
    Nat :=
  if k ≥ 0 then x / (d * Nat.pow 10 k.toNat) else x * Nat.pow 10 (-k).toNat / d

/-- Drops trailing zero digits, raising the exponent to match. -/
def trim : Nat → Sci → Sci
  | 0, s => s
  | fuel + 1, s =>
    if s.digits != 0 && s.digits % 10 == 0 then trim fuel ⟨s.digits / 10, s.exp + 1⟩ else s

/-- The rounding interval of a positive double `sig · 2^exp`: the reals that read back as
it, as numerators over a common denominator, with whether the ends belong to it (they do
when the significand is even). -/
structure Interval where
  low : Nat
  value : Nat
  high : Nat
  den : Nat
  closed : Bool

/-- The interval around `sig · 2^exp`. Below a power of two the gap to the next smaller
double is half as wide, so the low end is nearer. -/
def interval
    (sig : Nat)
    (exp : Int) :
    Interval :=
  let lowGap := if sig == Nat.pow 2 fractionBits && exp > leastExponent then 1 else 2
  let up := if exp ≥ 0 then Nat.pow 2 exp.toNat else 1
  let den := if exp ≥ 0 then 4 else 4 * Nat.pow 2 (-exp).toNat
  { low := (4 * sig - lowGap) * up, value := 4 * sig * up, high := (4 * sig + 2) * up,
    den := den, closed := sig % 2 == 0 }

/-- Whether `c · 10^k` lies in the interval. -/
def Interval.holds
    (i : Interval)
    (c : Nat)
    (k : Int) :
    Bool :=
  let lo := compareScaled c k i.low i.den
  let hi := compareScaled c k i.high i.den
  (lo == .gt || (lo == .eq && i.closed)) && (hi == .lt || (hi == .eq && i.closed))

/-- Of the two neighbours `c` and `c + 1` (times `10^k`) of the value, the one that reads
back, the nearer if both do, the even one on an exact tie. The distances to the value are compared
over a common denominator. -/
def pick
    (i : Interval)
    (c : Nat)
    (k : Int) :
    Option Nat :=
  match i.holds c k, i.holds (c + 1) k with
  | true, true =>
    let below := if k ≥ 0 then i.value - c * Nat.pow 10 k.toNat * i.den
      else i.value * Nat.pow 10 (-k).toNat - c * i.den
    let above := if k ≥ 0 then (c + 1) * Nat.pow 10 k.toNat * i.den - i.value
      else (c + 1) * i.den - i.value * Nat.pow 10 (-k).toNat
    if below < above then some c
    else if above < below then some (c + 1)
    else if c % 2 == 0 then some c else some (c + 1)
  | true, false => some c
  | false, true => some (c + 1)
  | false, false => none

/-- Tries 1, 2, … significant digits; the first count at which a neighbour reads back wins. -/
def search
    (i : Interval)
    (lg : Int) :
    Nat → Nat → Sci
  | 0, p => ⟨floorScaled i.value i.den (lg - (p : Int) + 1), lg - (p : Int) + 1⟩
  | fuel + 1, p =>
    let k := lg - (p : Int) + 1
    match pick i (floorScaled i.value i.den k) k with
    | some c => ⟨c, k⟩
    | none => search i lg fuel (p + 1)

/-- The shortest decimal that reads back as the positive double `sig · 2^exp`, without
trailing zeros. Seventeen digits always suffice. -/
def shortest
    (sig : Nat)
    (exp : Int) :
    Sci :=
  let i := interval sig exp
  let lg := floorLog10 i.value i.den
  let s := search i lg 17 1
  trim 20 s

/-- The decimal digits of a natural number. -/
def digitsOf
    (n : Nat) :
    List Char :=
  (Nat.toDigits 10 n)

/-- The absolute value of the double `sig · 2^exp` times `10^places`, rounded to an integer,
a half going to the even one. -/
def scaledRound
    (sig : Nat)
    (exp : Int)
    (places : Nat) :
    Nat :=
  let (num, den) := magnitude sig exp
  roundHalfEven (num * Nat.pow 10 places) den

/-- Text of a double with exactly `places` decimals: the exact value rounded half to even,
a minus sign whenever the double is negative (also when the digits are all zero). -/
def toPlaces
    (x : Float)
    (places : Nat) :
    String :=
  match shape x with
  | .nan => "nan"
  | .infinite neg => if neg then "-inf" else "inf"
  | .finite neg sig exp =>
    let r := scaledRound sig exp places
    let ds := digitsOf r
    let ds := List.replicate (places + 1 - ds.length) '0' ++ ds
    let whole := ds.take (ds.length - places)
    let frac := ds.drop (ds.length - places)
    let body := if places == 0 then String.ofList whole
      else String.ofList whole ++ "." ++ String.ofList frac
    if neg then "-" ++ body else body

/-- A double rounded to `places` decimals, as the double nearest to the rounded decimal.
Not-a-number and infinities are kept, and so is the sign of a zero result. -/
def roundPlaces
    (x : Float)
    (places : Nat) :
    Float :=
  match shape x with
  | .finite neg sig exp =>
    (ofRatio neg (scaledRound sig exp places) (Nat.pow 10 places)).getD x
  | _ => x

end CorridorRank.Decimal
