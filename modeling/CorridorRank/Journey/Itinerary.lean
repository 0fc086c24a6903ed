import CorridorRank.Journey.Leg

/-!
# Itineraries

An itinerary is an ordered sequence of legs with overall start and end timestamps, and the
duration and generalised cost the planner reported, if any. `Itinerary.ofLegs` takes start
and end from the first and last leg and refuses no legs. `Itinerary.ofPlanner` reads a
planner itinerary record: not a record, then legs that are not a list, then no legs, then
the first leg that fails, then its own times, duration and cost. Its own start and end
default to the legs' when absent; a reported duration is checked against the timestamps,
which can only fail when their difference is too large for a double.
-/

namespace CorridorRank

/-- An ordered sequence of legs from origin to destination. -/
structure Itinerary where
  legs : List Leg
  startTime : Value
  endTime : Value
  durationSeconds : Value := .null
  generalizedCost : Value := .null
  deriving Inhabited

namespace Itinerary

/-- Interchanges: one fewer than the legs, and none for at most one leg. -/
def transferCount
    (it : Itinerary) :
    Nat := it.legs.length - 1

/-- The duration in minutes from the itinerary's own timestamps. -/
def derivedDurationMinutes
    (it : Itinerary) :
    Except Fault Value := do
  Value.div (← Value.sub it.endTime it.startTime) (.int 60000)

/-- The calendar moment the itinerary starts. -/
def startCivil
    (it : Itinerary) :
    Except Fault Civil := Civil.ofMillis it.startTime

/-- The calendar moment the itinerary ends. -/
def endCivil
    (it : Itinerary) :
    Except Fault Civil := Civil.ofMillis it.endTime

/-- An itinerary spanning its legs, from the first leg's start to the last leg's end. -/
def ofLegs
    (legs : List Leg)
    (durationSeconds : Value := .null) :
    Except Fault Itinerary :=
  match legs.head?, legs.getLast? with
  | some first, some last =>
    .ok { legs := legs, startTime := first.startTime, endTime := last.endTime,
          durationSeconds := durationSeconds }
  | _, _ => .error (.scoring .noLegs)

/-- Reads the legs of a planner itinerary in order; the first failure wins. -/
def readLegs
    (raw : List Value) :
    Except Fault (List Leg) :=
  (raw.zipIdx.mapM fun (v, i) => Leg.ofPlanner v (some (.int i)))

/-- A value converted by `conv` unless it is nothing. -/
def optional
    (v : Value)
    (conv : Value → Except Fault Value) :
    Except Fault Value :=
  match v with
  | .null => .ok .null
  | v => conv v

/-- How a fault met while reading the itinerary's own fields is reported. -/
def fieldFault : Fault → Fault
  | .typeError m | .valueError m => .scoring (.itineraryFieldInvalid m)
  | e => e

/-- The itinerary's own times, duration and cost, the legs' times standing in for absent
ones. -/
def readOwnFields
    (fields : List (Text × Value))
    (legs : List Leg)
    (first last : Leg) :
    Except Fault Itinerary := do
  let start ← ((Value.field? fields "startTime").getD first.startTime).toInt
  let stop ← ((Value.field? fields "endTime").getD last.endTime).toInt
  let duration ← optional ((Value.field? fields "duration").getD .null) Value.asFloat
  let cost ← optional ((Value.field? fields "generalizedCost").getD .null) Value.asFloat
  pure { legs := legs, startTime := .int start, endTime := .int stop,
         durationSeconds := duration, generalizedCost := cost }

/-- Reads a planner itinerary record. When the record reports a duration, the span of its timestamps
is divided into seconds, which fails when the quotient does not fit a double. -/
def ofPlanner
    (data : Value) :
    Except Fault Itinerary :=
  match data with
  | .dict fields => do
    let raw := ((Value.field? fields "legs").getD .null).orElse (.list [])
    let rawLegs ← match raw with
      | .list xs | .tuple xs => pure xs
      | _ => throw (.scoring .legsNotList)
    let legs ← readLegs rawLegs
    let (some first, some last) := (legs.head?, legs.getLast?)
      | throw (.scoring .noLegs)
    let it ← match readOwnFields fields legs first last with
      | .ok it => pure it
      | .error e => throw (fieldFault e)
    if !(it.durationSeconds matches .null) then
      let _ ← Value.div (← Value.sub it.endTime it.startTime) (.int 1000)
    pure it
  | _ => .error (.scoring .itineraryNotRecord)

end Itinerary

end CorridorRank
