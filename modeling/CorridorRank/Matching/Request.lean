import CorridorRank.Clock.Pattern
import CorridorRank.Fault
import CorridorRank.Text.Blank
import CorridorRank.Text.Upper

/-!
# Journey requests

A request names its two stations by three-character codes, and its departure by a date
`YYYY-MM-DD` and a time `HH:MM`. The fields arrive as untyped values.

`JourneyRequest.validate` checks, in this order: each station (a falsy value is rejected, a
value that is not text cannot be trimmed, and the trimmed upper-cased text must be three
ASCII capitals or digits), then the date, then the time (a value that is not text is a type
fault, text that does not read is rejected). `JourneyRequest.normalized` trims and
upper-cases both station codes.
-/

namespace CorridorRank

/-- A journey request as it arrives: station codes, date and time. -/
structure JourneyRequest where
  origin : Value
  destination : Value
  date : Value
  time : Value
  deriving Inhabited

namespace JourneyRequest

/-- Whether a text is three ASCII capitals or digits. -/
def isStationCode
    (t : Text) :
    Bool :=
  t.length == 3 && t.points.all fun n => (65 ≤ n && n ≤ 90) || (48 ≤ n && n ≤ 57)

/-- A station code trimmed of blanks and upper-cased; only text can be trimmed. -/
def normalCode
    (v : Value) :
    Except Fault Text :=
  match v with
  | .str t => .ok (Text.upper (Text.strip t))
  | other => .error (Fault.noAttribute other "strip")

/-- Checks one station field, named `label` in the fault. -/
def checkCode
    (label : String)
    (v : Value) :
    Except Fault Unit := do
  let rejected : Fault :=
    .valueError (Text.ofString (label ++ " must be a 3 character CRS code, got " ++ v.literal))
  if !v.truthy then throw rejected
  let code ← normalCode v
  if !isStationCode code then throw rejected

/-- The text of a date or time field; any other value is a type fault. -/
def textArgument
    (v : Value) :
    Except Fault Text :=
  match v with
  | .str t => .ok t
  | .null => .error (.typeError "strptime() argument 1 must be str, not None")
  | other => .error (.typeError ("strptime() argument 1 must be str, not " ++ other.typeName))

/-- Checks a request: origin, destination, date, time. A lone surrogate in the date or the time
stands as `?`, which matches no part of a pattern. -/
def validate
    (r : JourneyRequest) :
    Except Fault Unit := do
  checkCode "origin_crs" r.origin
  checkCode "destination_crs" r.destination
  let date ← textArgument r.date
  if (Pattern.readDate? (date.withStand '?')).isNone then
    throw (.valueError ("date must be YYYY-MM-DD, got " ++ r.date.literal))
  let time ← textArgument r.time
  if (Pattern.readClock? (time.withStand '?')).isNone then
    throw (.valueError ("time must be HH:mm, got " ++ r.time.literal))

/-- The request with both station codes trimmed and upper-cased. -/
def normalized
    (r : JourneyRequest) :
    Except Fault JourneyRequest := do
  let o ← normalCode r.origin
  let d ← normalCode r.destination
  pure { r with origin := .str o, destination := .str d }

end JourneyRequest

end CorridorRank
