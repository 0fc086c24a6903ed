import CorridorRank.Value.Arith

/-!
# UTC calendar time of a timestamp

A timestamp counts milliseconds since 1970-01-01T00:00:00 UTC. Turning it into a calendar
moment (`Civil.ofMillis`) divides it by 1000 into seconds as a double, splits that into
whole seconds and microseconds (the fraction scaled by 10^6 in double arithmetic and rounded
half to even, a carry moving to the seconds), and reads the proleptic Gregorian date off
the whole seconds. The whole seconds must lie in [-2^63, 2^63] as a double; the upper end,
2^63, does not fit a signed 64-bit count and is taken as -2^63, the value the conversion of
that double gives. The year less 1900 must fit a signed 32-bit count; the year itself is
then that count plus 1900 wrapped to 32 bits, and must lie in 1..9999. Each limit has its
own fault, checked in that order.

`Civil.isoText` writes `YYYY-MM-DDTHH:MM:SS[.ffffff]+00:00`, the fraction only when there
are microseconds; `Civil.clockText` writes `HH:MM`.
-/

namespace CorridorRank

/-- A moment of the UTC calendar, to the microsecond. -/
structure Civil where
  year : Int
  month : Nat
  day : Nat
  hour : Nat
  minute : Nat
  second : Nat
  micro : Nat
  deriving Repr, DecidableEq

namespace Civil

/-- Year, month and day of a count of days since 1970-01-01, in the proleptic Gregorian
calendar (eras of 400 years of 146097 days). -/
def dateOfDays
    (days : Int) :
    Int × Nat × Nat :=
  let z := days + 719468
  let era := Int.fdiv z 146097
  let doe := z - era * 146097
  let yoe := (doe - doe / 1460 + doe / 36524 - doe / 146096) / 365
  let y := yoe + era * 400
  let doy := doe - (365 * yoe + yoe / 4 - yoe / 100)
  let mp := (5 * doy + 2) / 153
  let d := doy - (153 * mp + 2) / 5 + 1
  let m := if mp < 10 then mp + 3 else mp - 9
  let y := if m ≤ 2 then y + 1 else y
  (y, m.toNat, d.toNat)

/-- The calendar moment of whole seconds since the epoch and microseconds. -/
def ofSeconds
    (secs : Int)
    (micro : Nat) :
    Civil :=
  let days := Int.fdiv secs 86400
  let rest := (secs - days * 86400).toNat
  let (y, m, d) := dateOfDays days
  { year := y, month := m, day := d, hour := rest / 3600, minute := rest % 3600 / 60,
    second := rest % 60, micro := micro }

/-- Rounds a double to the nearest whole double, a half going to the even one. -/
def roundHalfEven
    (x : Float) :
    Float :=
  let r := x.round
  if (x - r).abs == 0.5 then 2.0 * (x / 2.0).round else r

/-- The whole part of a double, toward zero, as a double. -/
def wholePart
    (x : Float) :
    Float :=
  if x < 0.0 then x.ceil else x.floor

/-- Splits seconds into whole seconds and microseconds: the fraction times 10^6 rounded
half to even, the whole part moved by one when the microseconds leave [0, 10^6). The whole seconds
must lie in `[-2^63, 2^63]`, and `2^63` itself wraps to `-2^63`. -/
def splitSeconds
    (t : Float) :
    Except Fault (Int × Nat) :=
  if t.isNaN then .error (.valueError "Invalid value NaN (not a number)")
  else
    let whole := wholePart t
    let frac := if t.isInf then 0.0 else t - whole
    let us := roundHalfEven (frac * 1000000.0)
    let (whole, us) :=
      if us ≥ 1000000.0 then (whole + 1.0, us - 1000000.0)
      else if us < 0.0 then (whole - 1.0, us + 1000000.0)
      else (whole, us)
    if !(-9223372036854775808.0 ≤ whole && whole ≤ 9223372036854775808.0) then
      .error (.overflowError "timestamp out of range for platform time_t")
    else
      match Value.truncFloat whole, Value.truncFloat us with
      | .ok s, .ok u => .ok (if s = 9223372036854775808 then -9223372036854775808 else s, u.toNat)
      | _, _ => .error (.overflowError "timestamp out of range for platform time_t")

/-- An integer wrapped to a signed 32-bit count. -/
def wrap32
    (n : Int) :
    Int :=
  let m := n % 4294967296
  if m ≥ 2147483648 then m - 4294967296 else m

/-- The calendar moment of a count of seconds (a double), with its range checks. -/
def ofSecondsFloat
    (t : Float) :
    Except Fault Civil := do
  let (secs, micro) ← splitSeconds t
  let c := ofSeconds secs micro
  let tmYear := c.year - 1900
  if !(-2147483648 ≤ tmYear && tmYear ≤ 2147483647) then
    throw (.osError "[Errno 75] Value too large for defined data type")
  let year := wrap32 (tmYear + 1900)
  if !(1 ≤ year && year ≤ 9999) then
    throw (.valueError ("year " ++ Value.intText year ++ " is out of range"))
  pure c

/-- The calendar moment of a timestamp in milliseconds (any number value). -/
def ofMillis
    (ms : Value) :
    Except Fault Civil := do
  let secs ← Value.div ms (.int 1000)
  match secs with
  | .float t => ofSecondsFloat t
  | other => throw (Fault.unsupported "/" other (.int 1000))

/-- A natural number in decimal, zero-padded to `width`. -/
def pad
    (width : Nat)
    (n : Nat) :
    String :=
  let ds := Nat.toDigits 10 n
  String.ofList (List.replicate (width - ds.length) '0' ++ ds)

/-- `YYYY-MM-DDTHH:MM:SS`, then `.ffffff` if there are microseconds, then the UTC offset. -/
def isoText
    (c : Civil) :
    String :=
  pad 4 c.year.toNat ++ "-" ++ pad 2 c.month ++ "-" ++ pad 2 c.day ++ "T" ++ pad 2 c.hour ++
    ":" ++ pad 2 c.minute ++ ":" ++ pad 2 c.second ++
    (if c.micro == 0 then "" else "." ++ pad 6 c.micro) ++ "+00:00"

/-- `HH:MM`. -/
def clockText
    (c : Civil) :
    String :=
  pad 2 c.hour ++ ":" ++ pad 2 c.minute

end Civil

end CorridorRank
