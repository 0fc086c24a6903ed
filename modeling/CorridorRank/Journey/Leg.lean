import CorridorRank.Journey.Mode
import CorridorRank.Journey.Place
import CorridorRank.Clock.Civil

/-!
# Legs

A leg is one continuous ride: its mode, where it starts and ends, its start and end
timestamps (milliseconds), its distance in metres and the trip and route it belongs to.
Times, distance and identifiers are kept as given; a leg read from a planner record has
integer times and a double distance. A distance of nothing means the planner gave none.

`Leg.ofPlanner` reads a planner leg record. Its faults come in a fixed order: not a record,
then no distance, then (in field order) a bad place, a missing or bad start or end time, a
bad distance; a missing field is reported by name, a bad value with the reason. An infinite
time or a distance too large for a double is no scoring fault and stops the reading as an
overflow.
-/

namespace CorridorRank

/-- One continuous ride of an itinerary. -/
structure Leg where
  mode : LegMode
  origin : Place
  destination : Place
  startTime : Value
  endTime : Value
  distance : Value := .null
  tripId : Value := .null
  routeId : Value := .null
  deriving Inhabited

namespace Leg

/-- The leg's duration in minutes, from its timestamps. -/
def durationMinutes
    (leg : Leg) :
    Except Fault Value := do
  Value.div (← Value.sub leg.endTime leg.startTime) (.int 60000)

/-- The calendar moment the leg starts. -/
def startCivil
    (leg : Leg) :
    Except Fault Civil := Civil.ofMillis leg.startTime

/-- The calendar moment the leg ends. -/
def endCivil
    (leg : Leg) :
    Except Fault Civil := Civil.ofMillis leg.endTime

/-- A required field of a record; its absence is a missing-key fault. -/
def require
    (fields : List (Text × Value))
    (key : String) :
    Except Fault Value :=
  match Value.field? fields key with
  | some v => .ok v
  | none => .error (.keyError (.str key))

/-- How a fault met while reading the fields of leg `index` is reported: a missing key as a
missing field, a value of the wrong kind or form as an invalid value; others unchanged. -/
def fieldFault
    (index : Option Value) :
    Fault → Fault
  | .keyError (.str key) => .scoring (.legFieldMissing index key)
  | .attributeError m | .typeError m | .valueError m => .scoring (.legFieldInvalid index m)
  | e => e

/-- The fields of a planner leg record, read in order, its distance already present. -/
def readFields
    (fields : List (Text × Value))
    (distance : Value) :
    Except Fault Leg := do
  let data := Value.dict fields
  let trip := (← data.get "trip").orEmpty
  let route := (← data.get "route").orEmpty
  let mode := LegMode.parse (← data.get "mode")
  let origin ← Place.ofPlanner (← data.get "from")
  let destination ← Place.ofPlanner (← data.get "to")
  let start ← (← require fields "startTime").toInt
  let stop ← (← require fields "endTime").toInt
  let dist ← distance.toFloat
  let tripId ← trip.get "gtfsId"
  let routeId ← route.get "gtfsId"
  pure { mode := mode, origin := origin, destination := destination, startTime := .int start,
         endTime := .int stop, distance := .float dist, tripId := tripId, routeId := routeId }

/-- Reads a planner leg record; `index` is its position in the itinerary, when known. -/
def ofPlanner
    (data : Value)
    (index : Option Value) :
    Except Fault Leg :=
  match data with
  | .dict fields =>
    match (Value.field? fields "distance").getD .null with
    | .null => .error (.scoring (.legWithoutDistance index))
    | distance =>
      match readFields fields distance with
      | .ok leg => .ok leg
      | .error e => .error (fieldFault index e)
  | _ => .error (.scoring (.legNotRecord index))

end Leg

end CorridorRank
