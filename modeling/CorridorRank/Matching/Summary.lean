import CorridorRank.Scoring.Rank
import CorridorRank.Text.Split

/-!
# Route summaries

What a rider is shown of a ranked route: for each leg the two station names, departure and
arrival as `HH:MM` in UTC, and the operator code; the total duration as `4h 30m`, `45m` or
`2h`; whether it is direct, the first interchange station otherwise, the score rounded to
one decimal and the corridor.

The duration counts whole minutes by floor division, then splits them into hours and
minutes with the remainder taken non-negative, so one millisecond before zero reads
`-1h 59m`. The operator code is the part of a route id after its last `:` and before the
first `-` following it, `Unknown` when that is empty or there is no route id.
-/

namespace CorridorRank

namespace Summary

/-- `HH:MM` (UTC) of a timestamp in milliseconds. -/
def clockOf
    (ms : Value) :
    Except Fault String := do
  let c ← Civil.ofMillis ms
  pure c.clockText

/-- Minutes as `h`/`m` text: hours by floor division, minutes the non-negative remainder. -/
def minutesText
    (total : Int) :
    String :=
  let hours := total / 60
  let minutes := total % 60
  if hours == 0 then Value.intText minutes ++ "m"
  else if minutes == 0 then Value.intText hours ++ "h"
  else Value.intText hours ++ "h " ++ Value.intText minutes ++ "m"

/-- A duration in milliseconds as text, counting whole minutes toward minus infinity. -/
def durationText
    (ms : Value) :
    Except Fault String := do
  let q ← Value.floorDiv ms (.int 60000)
  let total ← q.toInt
  pure (minutesText total)

/-- The operator code of a route id. -/
def operatorOf
    (routeId : Value) :
    Except Fault Text :=
  if !routeId.truthy then .ok "Unknown"
  else match routeId with
    | .str s =>
      let code := ((Text.splitAt ':' s).getLast?).getD Text.empty
      let head := ((Text.splitAt '-' code).head?).getD Text.empty
      .ok (if head.isEmpty then Text.ofString "Unknown" else head)
    | other => .error (Fault.noAttribute other "split")

end Summary

/-- One leg as shown to a rider. -/
structure LegSummary where
  origin : Value
  destination : Value
  departure : String
  arrival : String
  operator : Text
  deriving Inhabited

/-- One route as shown to a rider. -/
structure RouteSummary where
  legs : List LegSummary
  totalDuration : String
  isDirect : Bool
  interchange : Option Value
  score : Float
  corridorId : Value
  deriving Inhabited

namespace RouteSummary

/-- The summary of one leg. -/
def ofLeg
    (leg : Leg) :
    Except Fault LegSummary := do
  let departure ← Summary.clockOf leg.startTime
  let arrival ← Summary.clockOf leg.endTime
  let operator ← Summary.operatorOf leg.routeId
  pure ⟨leg.origin.name, leg.destination.name, departure, arrival, operator⟩

/-- The summary of a ranked route: legs first, then the duration of the whole itinerary. -/
def ofRoute
    (route : ScoredRoute) :
    Except Fault RouteSummary := do
  let it := route.itinerary
  let legs ← it.legs.mapM ofLeg
  let span ← Value.sub it.endTime it.startTime
  let total ← Summary.durationText span
  let isDirect := legs.length == 1
  let interchange ← if isDirect then pure none
    else match legs with
      | first :: _ => pure (some first.destination)
      | [] => throw (.indexError "list index out of range")
  pure { legs := legs, totalDuration := total, isDirect := isDirect, interchange := interchange,
         score := Decimal.roundPlaces route.score.score 1, corridorId := route.score.corridorId }

end RouteSummary

end CorridorRank
