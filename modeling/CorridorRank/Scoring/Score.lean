import CorridorRank.Scoring.Aggregate
import CorridorRank.Scoring.Corridor
import CorridorRank.Scoring.Policy
import CorridorRank.Geo.Coordinates

/-!
# Corridor scores

The score of an itinerary is its effective journey time in minutes: the duration, plus a
detour penalty proportional to the duration for the part of the detour ratio above the
policy's threshold, plus a penalty per interchange. The detour ratio is route kilometres
over great-circle kilometres, at least 1, and 1 when the endpoints coincide.

`scoreItinerary` checks, in order: reversed legs, overlapping legs (only under a strict
policy), the aggregation (no legs, a missing distance), then the endpoints; only then does
it derive the corridor key, unless one is given. The policy is used as given, unvalidated.
-/

namespace CorridorRank

/-- The breakdown of one itinerary's score; all penalties in minutes. -/
structure CorridorScore where
  corridorId : Value
  score : Float
  durationMinutes : Float
  detourPenalty : Float
  transferPenalty : Float
  detourRatio : Float
  routeDistanceKm : Float
  transferCount : Nat
  straightLineKm : Float
  deriving Inhabited

/-- Route over straight-line distance, at least 1; 1 when the straight line is not
positive. -/
def detourRatio
    (routeKm straightKm : Value) :
    Except Fault Value := do
  if !(← Value.compareWith .le straightKm (.int 0)) then
    Value.max2 (.float 1.0) (← Value.div routeKm straightKm)
  else pure (.float 1.0)

/-- The detour penalty: the excess of the ratio over the threshold (never negative) times
the duration times the detour weight. -/
def detourPenalty
    (ratio duration : Value)
    (p : Policy) :
    Except Fault Value := do
  let excess ← Value.max2 (.float 0.0) (← Value.sub ratio p.detourThreshold)
  Value.mul (← Value.mul excess duration) p.detourWeight

/-- The order check under a policy: a scoring fault of the check fails it only when the
policy is strict; any other fault is passed on. -/
def checkOrderUnder
    (legs : List Leg)
    (p : Policy) :
    Except Fault Unit :=
  match checkLegOrder legs with
  | .error (.scoring cause) => if p.strictOrdering.truthy then throw (.scoring cause) else pure ()
  | .error e => throw e
  | .ok () => pure ()

/-- The score of an itinerary between two endpoints under a policy. -/
def scoreItinerary
    (it : Itinerary)
    (origin destination : Value)
    (corridor : Option Value)
    (p : Policy) :
    Except Fault CorridorScore := do
  checkLegTimes it.legs
  checkOrderUnder it.legs p
  let agg ← Aggregate.ofLegs it.legs p.mergeSameTrip.truthy
  let straightKm ← Coordinates.distanceOf origin destination
  let ratio ← detourRatio (.float agg.routeDistanceKm) (.float straightKm)
  let penalty ← detourPenalty ratio (.float agg.durationMinutes) p
  let transfer ← Value.mul (.int agg.transferCount) p.perTransferPenalty
  let total ← Value.add (← Value.add (.float agg.durationMinutes) penalty) transfer
  let corridorId ← match corridor with
    | some c => pure c
    | none => Value.str <$> it.corridorKey
  pure { corridorId := corridorId, score := ← total.toFloat,
         durationMinutes := agg.durationMinutes, detourPenalty := ← penalty.toFloat,
         transferPenalty := ← transfer.toFloat, detourRatio := ← ratio.toFloat,
         routeDistanceKm := agg.routeDistanceKm, transferCount := agg.transferCount,
         straightLineKm := straightKm }

end CorridorRank
