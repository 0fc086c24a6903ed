import CorridorRank.Value.Arith

/-!
# Coordinates and great-circle distance

An endpoint is a latitude in [-90, 90] and a longitude in [-180, 180], in degrees.
`Coordinates.ofValue` reads one from a loosely typed pair (any two-item sequence whose
items convert to doubles) and rejects a malformed pair before an out-of-range latitude, and
that before an out-of-range longitude. `Coordinates.distanceKm` is the haversine distance
on a sphere of radius 6371 km; equal endpoints are at distance zero.
-/

namespace CorridorRank

/-- A point on the globe, in degrees. -/
structure Coordinates where
  lat : Float
  lon : Float
  deriving Inhabited

namespace Coordinates

/-- The mean Earth radius, in kilometres. -/
def earthRadiusKm : Float := 6371.0

/-- Degrees to radians. -/
def radians
    (deg : Float) :
    Float := deg * 0.017453292519943295

/-- The two items of a pair-like value: a two-item list or tuple, a two-character text, or
a record with two fields (its names). -/
def pairOf? : Value → Option (Value × Value)
  | .list [a, b] | .tuple [a, b] => some (a, b)
  | .str t => match t.points with
    | [a, b] => some (.str ⟨[a]⟩, .str ⟨[b]⟩)
    | _ => none
  | .dict [(a, _), (b, _)] => some (.str a, .str b)
  | _ => none

/-- Whether a conversion fault only means the pair is malformed; an overflow is not. -/
def malformedBy : Fault → Bool
  | .typeError _ | .valueError _ => true
  | _ => false

/-- The coordinates a value denotes, checked to be in range. -/
def ofValue
    (v : Value) :
    Except Fault Coordinates := do
  let malformed : Fault := .scoring (.malformedCoordinates v.literal)
  let some (a, b) := pairOf? v | throw malformed
  let conv (x : Value) : Except Fault Float :=
    match x.toFloat with
    | .ok f => .ok f
    | .error e => .error (if malformedBy e then malformed else e)
  let lat ← conv a
  let lon ← conv b
  if !(-90.0 ≤ lat && lat ≤ 90.0) then throw (.scoring (.latitudeOutOfRange lat))
  if !(-180.0 ≤ lon && lon ≤ 180.0) then throw (.scoring (.longitudeOutOfRange lon))
  pure ⟨lat, lon⟩

/-- The haversine distance between two points, in kilometres. The haversine term is capped
at 1, which rounding can exceed for antipodal points. -/
def distanceKm
    (a b : Coordinates) :
    Float :=
  if a.lat == b.lat && a.lon == b.lon then 0.0
  else
    let phi1 := radians a.lat
    let phi2 := radians b.lat
    let dPhi := radians (b.lat - a.lat)
    let dLambda := radians (b.lon - a.lon)
    let h := Float.pow (Float.sin (dPhi / 2.0)) 2.0 +
      Float.cos phi1 * Float.cos phi2 * Float.pow (Float.sin (dLambda / 2.0)) 2.0
    let h := if h < 1.0 then h else 1.0
    2.0 * earthRadiusKm * Float.asin (Float.sqrt h)

/-- The distance between two loosely typed endpoints, each checked first. -/
def distanceOf
    (a b : Value) :
    Except Fault Float := do
  let p ← ofValue a
  let q ← ofValue b
  pure (distanceKm p q)

end Coordinates

end CorridorRank
