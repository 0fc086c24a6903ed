import CorridorRank.Journey.Itinerary

/-!
# Leg aggregates and leg order

`Aggregate.ofLegs` reduces an itinerary's legs to what the score needs: the route distance
in kilometres (the sum of the leg distances over 1000), the number of interchanges, and the
duration in minutes from the first leg's start to the last leg's end. With same-trip
merging, a junction between two legs of one (true) trip is no interchange.

`checkLegTimes` refuses a leg that ends before it starts; `checkLegOrder` also refuses a leg
that ends after the next one starts. Both report the first offending leg, and reversed legs
are looked for before overlaps.
-/

namespace CorridorRank

/-- What the score needs of an itinerary's legs. -/
structure Aggregate where
  routeDistanceKm : Float
  transferCount : Nat
  durationMinutes : Float
  deriving Inhabited

namespace Aggregate

/-- The sum of the leg distances in metres, each converted to a double; a leg without a
distance stops the sum with its position. -/
def totalMetres
    (legs : List Leg) :
    Except Fault Float :=
  legs.zipIdx.foldlM (fun total (leg, i) => do
    match leg.distance with
    | .null => throw (.scoring (.distanceMissing i))
    | d => pure (total + (← d.toFloat))) 0.0

/-- Whether the junction between two consecutive legs is an interchange. -/
def isInterchange
    (merge : Bool)
    (prev next : Leg) :
    Bool :=
  !(merge && prev.tripId.truthy && Value.equal prev.tripId next.tripId)

/-- The number of interchanges between consecutive legs. -/
def interchanges
    (merge : Bool) :
    List Leg → Nat
  | prev :: next :: rest =>
    (if isInterchange merge prev next then 1 else 0) + interchanges merge (next :: rest)
  | _ => 0

/-- Distance, interchanges and duration of a sequence of legs. -/
def ofLegs
    (legs : List Leg)
    (merge : Bool) :
    Except Fault Aggregate := do
  let (some first, some last) := (legs.head?, legs.getLast?)
    | throw (.scoring .nothingToAggregate)
  let metres ← totalMetres legs
  let duration ← Value.div (← Value.sub last.endTime first.startTime) (.int 60000)
  let durationMinutes ← duration.toFloat
  pure { routeDistanceKm := metres / 1000.0, transferCount := interchanges merge legs,
         durationMinutes := durationMinutes }

theorem interchanges_le
    (merge : Bool)
    (legs : List Leg) :
    interchanges merge legs ≤ legs.length - 1 := by
  induction legs with
  | nil => simp [interchanges]
  | cons a rest ih =>
    cases rest with
    | nil => simp [interchanges]
    | cons b rest =>
      simp only [interchanges, List.length_cons] at ih ⊢
      split <;> omega

end Aggregate

/-- Fails at the first leg that ends before it starts. -/
def checkLegTimes
    (legs : List Leg) :
    Except Fault Unit :=
  legs.zipIdx.forM fun (leg, i) => do
    if (← Value.lt leg.endTime leg.startTime) then throw (.scoring (.legReversed i))

/-- Fails at the first leg that ends after the next one starts. -/
def checkOverlaps : List Leg → Nat → Except Fault Unit
  | prev :: next :: rest, i => do
    if (← Value.gt prev.endTime next.startTime) then throw (.scoring (.legsOverlap i))
    checkOverlaps (next :: rest) (i + 1)
  | _, _ => pure ()

/-- Fails at the first reversed leg, else at the first overlap. -/
def checkLegOrder
    (legs : List Leg) :
    Except Fault Unit := do
  checkLegTimes legs
  checkOverlaps legs 0

end CorridorRank
