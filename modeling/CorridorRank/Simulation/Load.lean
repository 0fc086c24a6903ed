import CorridorRank.Csv.Read
import CorridorRank.Value.Access

/-!
# Loading itineraries from a leg table

A leg table has one row per leg with the columns `itinerary_id`, `leg_index`, `mode`,
`from_name`, `from_stop`, `to_name`, `to_stop`, `start_time_ms`, `end_time_ms`,
`distance_m`, `trip_id` and `route_id`. `loadItineraries` rebuilds planner-shaped
itinerary records from it:

* every row is grouped by its itinerary id, groups in order of first appearance (a table
  without the id column fails on its first row);
* at most `limit` groups are rebuilt (no limit rebuilds all); the limit is compared before
  each group;
* a group's rows are ordered by their leg index read as an integer, stably; all indices are
  read before any row is ordered;
* each row becomes a planner leg record with integer times and, only when the distance cell
  is non-empty, a double distance; the itinerary spans its first leg's start to its last
  leg's end.
-/

namespace CorridorRank

namespace LegTable

/-- Whether two group keys are the same: equal texts, or both missing. -/
def sameKey
    (a b : Value) :
    Bool :=
  match a, b with
  | .str x, .str y => x == y
  | .null, .null => true
  | _, _ => false

/-- Adds a row to its group, a new key making a new group at the end. -/
def addToGroup
    (groups : List (Value × List (List (Text × Value))))
    (key : Value)
    (row : List (Text × Value)) :
    List (Value × List (List (Text × Value))) :=
  if groups.any (sameKey key ·.1) then
    groups.map fun (k, rows) => if sameKey key k then (k, rows ++ [row]) else (k, rows)
  else groups ++ [(key, [row])]

/-- The rows grouped by itinerary id, in order of first appearance. -/
def group
    (rows : List (List (Text × Value))) :
    Except Fault (List (Value × List (List (Text × Value)))) :=
  rows.foldlM (fun groups row => do
    let key ← (Value.dict row).lookup "itinerary_id"
    pure (addToGroup groups key row)) []

/-- A planner place record: a name and a stop id. -/
def placeRecord
    (name stop : Value) :
    Value :=
  .dict [("name", name), ("stop", .dict [("gtfsId", stop)])]

/-- The planner leg record of one row, with its start and end times. -/
def legRecord
    (row : List (Text × Value)) :
    Except Fault (Value × Int × Int) := do
  let cell := (Value.dict row).lookup
  let mode ← cell "mode"
  let fromName ← cell "from_name"
  let fromStop ← cell "from_stop"
  let toName ← cell "to_name"
  let toStop ← cell "to_stop"
  let start ← (← cell "start_time_ms").toInt
  let finish ← (← cell "end_time_ms").toInt
  let trip ← cell "trip_id"
  let route ← cell "route_id"
  let fields : List (Text × Value) :=
    [("mode", mode), ("from", placeRecord fromName fromStop), ("to", placeRecord toName toStop),
     ("startTime", .int start), ("endTime", .int finish),
     ("trip", .dict [("gtfsId", trip)]), ("route", .dict [("gtfsId", route)])]
  let distance := (Value.field? row "distance_m").getD .null
  if distance.truthy then
    pure (.dict (fields ++ [(Text.ofString "distance", Value.float (← distance.toFloat))]), start,
      finish)
  else pure (.dict fields, start, finish)

/-- A group's rows ordered by leg index, stably; every index is read first. -/
def orderLegs
    (rows : List (List (Text × Value))) :
    Except Fault (List (List (Text × Value))) := do
  let keyed ← rows.mapM fun row => do
    let i ← (← (Value.dict row).lookup "leg_index").toInt
    pure (i, row)
  pure ((keyed.mergeSort fun a b => decide (a.1 ≤ b.1)).map (·.2))

/-- The itinerary record of one group. -/
def itineraryRecord
    (key : Value)
    (rows : List (List (Text × Value))) :
    Except Fault Value := do
  let legs ← (← orderLegs rows).mapM legRecord
  match legs.head?, legs.getLast? with
  | some (_, start, _), some (_, _, finish) =>
    pure (.dict [("id", key), ("startTime", .int start), ("endTime", .int finish),
      ("legs", .list (legs.map (·.1)))])
  | _, _ => throw (.indexError "list index out of range")

/-- Rebuilds groups in order until the limit is reached. -/
def rebuild
    (limit : Value) :
    List (Value × List (List (Text × Value))) → List Value →
    Except Fault (List Value)
  | [], done => pure done.reverse
  | (key, rows) :: rest, done => do
    let full ← match limit with
      | .null => pure false
      | l => Value.compareWith .ge (.int done.length) l
    if full then pure done.reverse
    else rebuild limit rest ((← itineraryRecord key rows) :: done)

/-- The planner-shaped itineraries of the rows of a leg table, at most `limit` of them. -/
def load
    (rows : List (List (Text × Value)))
    (limit : Value) :
    Except Fault (List Value) := do
  let groups ← group rows
  rebuild limit groups []

end LegTable

/-- The planner-shaped itineraries of a leg table, at most `limit` of them. -/
def loadItineraries
    (text : String)
    (limit : Value) :
    Except Fault (List Value) :=
  LegTable.load (Csv.rows text) limit

end CorridorRank
