import CorridorRank.Proofs.Scoring.Stages

/-!
# Which fault scoring reports

Scoring an itinerary runs its checks in a fixed order, each reporting the first offending leg
of its own pass: a leg that ends before it starts, then (under a strict policy only) a leg
that ends after the next one starts, then no legs at all, then a leg without a distance, and
only then the endpoints. On legs timed in whole milliseconds (`Leg.Timed`) each check is a
comparison of integers, so which fault is reported is decided by the legs alone
(`scoreItinerary_fault_precedence`).

Past the checks, scoring returns once the arithmetic stays in doubles: the span of the legs
in minutes must round to a finite double, which it does for timestamps below `2^999`
milliseconds in size, and the weights are the doubles the policy declares. A span far
beyond that overflows while the legs are aggregated, before any endpoint is looked at
(`scoreItinerary_huge_span_overflows`).
-/

namespace CorridorRank

open Traversal

/-! ## The order of the checks -/

namespace Itinerary

/-- The legs pass the order checks of a policy: none is reversed, and under a strict policy
none ends after the next one starts. -/
def InOrder
    (it : Itinerary)
    (p : Policy) :
    Prop :=
  (∀ leg ∈ it.legs, leg.reversed = false) ∧
    (p.strictOrdering.truthy → it.legs.IsChain fun prev next => prev.overlaps next = false)

/-- Every leg has a distance that converts to a double. -/
def Measured
    (it : Itinerary) :
    Prop :=
  ∀ leg ∈ it.legs, ∃ metres, leg.distance.toFloat = .ok metres

/-- Timestamps below `2^999` milliseconds in size and at most `2^1000` legs, so that the span
in minutes and the interchange count convert to doubles. -/
def Moderate
    (it : Itinerary) :
    Prop :=
  (∀ leg ∈ it.legs, leg.startMs.natAbs < Nat.pow 2 999 ∧ leg.endMs.natAbs < Nat.pow 2 999) ∧
    it.legs.length ≤ Nat.pow 2 1000

end Itinerary

section Scoring

variable {it : Itinerary} {origin destination : Value} {corridor : Option Value} {p : Policy}
  {before after : List Leg} {leg prev next : Leg}

/-- Scoring fails at the first reversed leg, whatever the policy and the endpoints. -/
theorem scoreItinerary_first_reversed
    (timed : ∀ l ∈ it.legs, l.Timed)
    (split : it.legs = before ++ leg :: after)
    (forwardBefore : ∀ l ∈ before, l.reversed = false)
    (reversed : leg.reversed = true) :
    scoreItinerary it origin destination corridor p =
      .error (.scoring (.legReversed before.length)) := by
  unfold scoreItinerary
  rw [checkLegTimes_first_reversed timed split forwardBefore reversed]
  rfl

/-- Under a strict policy, scoring legs none of which is reversed fails at the first leg that
ends after the next one starts. -/
theorem scoreItinerary_first_overlap
    (timed : ∀ l ∈ it.legs, l.Timed)
    (forward : ∀ l ∈ it.legs, l.reversed = false)
    (strict : p.strictOrdering.truthy = true)
    (split : it.legs = before ++ prev :: next :: after)
    (apartBefore : (before ++ [prev]).IsChain fun a b => a.overlaps b = false)
    (overlapping : prev.overlaps next = true) :
    scoreItinerary it origin destination corridor p =
      .error (.scoring (.legsOverlap before.length)) := by
  have timesPass := checkLegTimes_eq_ok timed forward
  unfold scoreItinerary
  rw [timesPass, ok_bind,
    checkOrderUnder_first_overlap timed timesPass strict split apartBefore overlapping]
  rfl

/-- Scoring no legs fails, whatever the policy and the endpoints. -/
theorem scoreItinerary_no_legs
    (empty : it.legs = []) :
    scoreItinerary it origin destination corridor p = .error (.scoring .nothingToAggregate) := by
  unfold scoreItinerary
  rw [empty]
  rfl

/-- Scoring legs in order fails as their aggregation does, whatever the endpoints. -/
theorem scoreItinerary_aggregate_fault
    (timed : ∀ l ∈ it.legs, l.Timed)
    (inOrder : it.InOrder p)
    {fault : Fault}
    (faulty : Aggregate.ofLegs it.legs p.mergeSameTrip.truthy = .error fault) :
    scoreItinerary it origin destination corridor p = .error fault := by
  have timesPass := checkLegTimes_eq_ok timed inOrder.1
  unfold scoreItinerary
  rw [timesPass, ok_bind, checkOrderUnder_eq_ok timed timesPass inOrder.2, ok_bind, faulty]
  rfl

/-- Scoring legs in order fails at the first leg without a distance, whatever the endpoints. -/
theorem scoreItinerary_first_missing
    (timed : ∀ l ∈ it.legs, l.Timed)
    (inOrder : it.InOrder p)
    (split : it.legs = before ++ leg :: after)
    (measuredBefore : ∀ l ∈ before, ∃ metres, l.distance.toFloat = .ok metres)
    (missing : leg.distance = .null) :
    scoreItinerary it origin destination corridor p =
      .error (.scoring (.distanceMissing before.length)) :=
  scoreItinerary_aggregate_fault timed inOrder (ofLegs_first_missing _ split missing measuredBefore)

/-- Scoring measured legs in order fails as the endpoints do. -/
theorem scoreItinerary_endpoint_fault
    (timed : ∀ l ∈ it.legs, l.Timed)
    (inOrder : it.InOrder p)
    (nonempty : it.legs ≠ [])
    (measured : it.Measured)
    (moderate : it.Moderate)
    {fault : Fault}
    (faulty : Coordinates.distanceOf origin destination = .error fault) :
    scoreItinerary it origin destination corridor p = .error fault := by
  have timesPass := checkLegTimes_eq_ok timed inOrder.1
  obtain ⟨agg, aggregated, -⟩ :=
    ofLegs_returns p.mergeSameTrip.truthy nonempty timed measured moderate.1
  unfold scoreItinerary
  rw [timesPass, ok_bind, checkOrderUnder_eq_ok timed timesPass inOrder.2, ok_bind, aggregated,
    ok_bind, faulty]
  rfl

/-- Scoring measured legs in order between valid endpoints, under double weights, returns a
score, once the corridor is given or can be derived. There are fewer interchanges than legs. -/
theorem scoreItinerary_returns
    (timed : ∀ l ∈ it.legs, l.Timed)
    (inOrder : it.InOrder p)
    (nonempty : it.legs ≠ [])
    (measured : it.Measured)
    (moderate : it.Moderate)
    {o d : Coordinates}
    (validOrigin : Coordinates.ofValue origin = .ok o)
    (validDestination : Coordinates.ofValue destination = .ok d)
    (weights : p.FloatWeights)
    (named : corridor.isSome ∨ it.Keyed) :
    ∃ score, scoreItinerary it origin destination corridor p = .ok score := by
  have timesPass := checkLegTimes_eq_ok timed inOrder.1
  obtain ⟨agg, aggregated, transfers⟩ :=
    ofLegs_returns p.mergeSameTrip.truthy nonempty timed measured moderate.1
  have straight : Coordinates.distanceOf origin destination = .ok (Coordinates.distanceKm o d) := by
    unfold Coordinates.distanceOf
    rw [validOrigin, ok_bind, validDestination]
    rfl
  obtain ⟨ratio, ratioOk⟩ := detourRatio_float agg.routeDistanceKm (Coordinates.distanceKm o d)
  obtain ⟨penalty, penaltyOk⟩ := detourPenalty_float weights ratio agg.durationMinutes
  obtain ⟨perTransfer, perTransferOk⟩ := weights.2.2
  have few : (agg.transferCount : Int).natAbs < Nat.pow 2 1000 := by
    have counted := Aggregate.interchanges_le p.mergeSameTrip.truthy it.legs
    have short := moderate.2
    have positive : 0 < it.legs.length := List.length_pos_iff.mpr nonempty
    rw [Int.natAbs_natCast, transfers]
    generalize Nat.pow 2 1000 = bound at short ⊢
    omega
  obtain ⟨transfer, transferOk⟩ := Value.mul_int_float few perTransfer
  unfold scoreItinerary
  rw [timesPass, ok_bind, checkOrderUnder_eq_ok timed timesPass inOrder.2, ok_bind, aggregated,
    ok_bind, straight, ok_bind, ratioOk, ok_bind, penaltyOk, ok_bind, perTransferOk, transferOk,
    ok_bind, Value.add_float, ok_bind, Value.add_float, ok_bind]
  cases corridor with
  | some c => exact ⟨_, rfl⟩
  | none =>
      obtain ⟨key, keyOk⟩ := Itinerary.corridorKey_returns (named.resolve_left (by simp))
      rw [keyOk]
      exact ⟨_, rfl⟩

/-- Whether the policy is strict matters only for legs with an overlap and no reversed leg. The
first reversed leg fails both. -/
theorem scoreItinerary_strictness
    (timed : ∀ l ∈ it.legs, l.Timed)
    (settled : (∃ leg ∈ it.legs, leg.reversed = true) ∨
      it.legs.IsChain fun a b => a.overlaps b = false)
    (strict : Value) :
    scoreItinerary it origin destination corridor { p with strictOrdering := strict } =
      scoreItinerary it origin destination corridor p := by
  rcases settled with someReversed | apart
  · obtain ⟨before, first, after, split, forward, firstReversed⟩ :=
      exists_first_reversed someReversed
    rw [scoreItinerary_first_reversed timed split forward firstReversed,
      scoreItinerary_first_reversed timed split forward firstReversed]
  · cases timesCheck : checkLegTimes it.legs with
    | error fault =>
        unfold scoreItinerary
        rw [timesCheck]
        rfl
    | ok passed =>
        unfold scoreItinerary
        rw [timesCheck, ok_bind, ok_bind, checkOrderUnder_eq_ok timed timesCheck fun _ => apart,
          checkOrderUnder_eq_ok timed timesCheck fun _ => apart]
        rfl

end Scoring

/-! ## Which fault scoring reports -/

/-- Which fault scoring reports, on legs timed in whole milliseconds, whatever the policy and
the endpoints. In order:

* the first reversed leg;
* under a strict policy, with no reversed leg, the first leg that ends after the next one
  starts (reported as the index of the later leg);
* no legs;
* with the legs in order, the first leg without a distance, every distance before it
  converting to a double;
* with the legs in order, measured and moderate: the fault of the origin, else of the
  destination; with both valid and double weights, a score, once the corridor is given or
  can be derived.

And whether the policy is strict changes nothing unless some leg ends after the next one
starts and none is reversed. -/
theorem scoreItinerary_fault_precedence
    (it : Itinerary)
    (origin destination : Value)
    (corridor : Option Value)
    (p : Policy)
    (timed : ∀ leg ∈ it.legs, leg.Timed) :
    (∀ before leg after, it.legs = before ++ leg :: after →
      (∀ l ∈ before, l.reversed = false) → leg.reversed = true →
      scoreItinerary it origin destination corridor p =
        .error (.scoring (.legReversed before.length))) ∧
    ((∀ leg ∈ it.legs, leg.reversed = false) → p.strictOrdering.truthy = true →
      ∀ before prev next after, it.legs = before ++ prev :: next :: after →
      (before ++ [prev]).IsChain (fun a b => a.overlaps b = false) → prev.overlaps next = true →
      scoreItinerary it origin destination corridor p =
        .error (.scoring (.legsOverlap before.length))) ∧
    (it.legs = [] →
      scoreItinerary it origin destination corridor p = .error (.scoring .nothingToAggregate)) ∧
    (it.InOrder p → ∀ before leg after, it.legs = before ++ leg :: after →
      (∀ l ∈ before, ∃ metres, l.distance.toFloat = .ok metres) → leg.distance = .null →
      scoreItinerary it origin destination corridor p =
        .error (.scoring (.distanceMissing before.length))) ∧
    (it.InOrder p → it.legs ≠ [] → it.Measured → it.Moderate →
      (∀ fault, Coordinates.ofValue origin = .error fault →
        scoreItinerary it origin destination corridor p = .error fault) ∧
      (∀ o fault, Coordinates.ofValue origin = .ok o →
        Coordinates.ofValue destination = .error fault →
        scoreItinerary it origin destination corridor p = .error fault) ∧
      (∀ o d, Coordinates.ofValue origin = .ok o → Coordinates.ofValue destination = .ok d →
        p.FloatWeights → corridor.isSome ∨ it.Keyed →
        ∃ score, scoreItinerary it origin destination corridor p = .ok score)) ∧
    ((∃ leg ∈ it.legs, leg.reversed = true) ∨ it.legs.IsChain (fun a b => a.overlaps b = false) →
      ∀ strict, scoreItinerary it origin destination corridor { p with strictOrdering := strict } =
        scoreItinerary it origin destination corridor p) := by
  refine ⟨fun before leg after split forwardBefore reversed =>
      scoreItinerary_first_reversed timed split forwardBefore reversed,
    fun forward strict before prev next after split apartBefore overlapping =>
      scoreItinerary_first_overlap timed forward strict split apartBefore overlapping,
    scoreItinerary_no_legs,
    fun inOrder before leg after split measuredBefore missing =>
      scoreItinerary_first_missing timed inOrder split measuredBefore missing,
    fun inOrder nonempty measured moderate => ⟨?_, ?_, ?_⟩,
    fun settled strict => scoreItinerary_strictness timed settled strict⟩
  · intro fault faulty
    exact scoreItinerary_endpoint_fault timed inOrder nonempty measured moderate
      (Coordinates.distanceOf_origin faulty)
  · intro o fault valid faulty
    exact scoreItinerary_endpoint_fault timed inOrder nonempty measured moderate
      (Coordinates.distanceOf_destination valid faulty)
  · intro o d validOrigin validDestination weights named
    exact scoreItinerary_returns timed inOrder nonempty measured moderate validOrigin
      validDestination weights named

/-- Two itineraries scored with no corridor given. An hour-long rail leg of 40 km between two
valid points returns a score under the default policy. Three legs, the first two
overlapping, the second without a distance and the third running backward, between an
origin whose latitude is out of range and a valid destination, fail at the backward leg,
the first fault in the order of precedence, under a lenient and under a strict policy. -/
theorem scoreItinerary_hour_leg_returns_faulty_legs_reversed :
    (∃ score, scoreItinerary
      ⟨[⟨.rail, ⟨.str "Paddington", .null⟩, ⟨.str "Reading", .null⟩, .int 0, .int 3600000,
        .int 40000, .null, .null⟩], .int 0, .int 3600000, .null, .null⟩
      (.list [.int 51, .int 0]) (.list [.int 52, .int 0]) none {} = .ok score) ∧
    let faulty : Itinerary :=
      ⟨[⟨.rail, Place.named "A", Place.named "B", .int 0, .int 1800000, .int 1000, .null, .null⟩,
        ⟨.bus, Place.named "B", Place.named "C", .int 1200000, .int 2400000, .null, .null, .null⟩,
        ⟨.rail, Place.named "C", Place.named "D", .int 3000000, .int 2700000, .int 1000, .null,
          .null⟩], .int 0, .int 2700000, .null, .null⟩
    scoreItinerary faulty (.list [.int 100, .int 0]) (.list [.int 52, .int 0]) none {} =
        .error (.scoring (.legReversed 2)) ∧
      scoreItinerary faulty (.list [.int 100, .int 0]) (.list [.int 52, .int 0]) none
        { strictOrdering := .bool true } = .error (.scoring (.legReversed 2)) := by
  have single : ∀ {l leg : Leg}, l ∈ [leg] → l = leg := fun member => List.mem_singleton.mp member
  refine ⟨?hourLeg, ?faulty⟩
  case hourLeg =>
    refine ((scoreItinerary_fault_precedence _ _ _ _ {} ?timed).2.2.2.2.1 ?inOrder ?nonempty
      ?measured ?moderate).2.2 ?o ?d ?origin ?destination ?weights (Or.inr ⟨?routes, ?names⟩)
    case timed => exact fun l member => single member ▸ And.intro rfl rfl
    case inOrder => exact ⟨fun l member => single member ▸ rfl, fun strict => by cases strict⟩
    case nonempty => exact List.cons_ne_nil _ _
    case measured => exact fun l member => single member ▸ ⟨_, rfl⟩
    case moderate =>
      exact ⟨fun l member => single member ▸ ⟨by decide +kernel, by decide +kernel⟩,
        by decide +kernel⟩
    case origin | destination => rfl
    case weights => exact ⟨⟨_, rfl⟩, ⟨_, rfl⟩, ⟨_, rfl⟩⟩
    case routes =>
      intro l member falsy
      cases single member
      cases falsy
    case names =>
      intro l member
      cases member
  case faulty =>
    intro faulty
    have timed : ∀ leg ∈ faulty.legs, leg.Timed := by
      simp only [faulty, List.forall_mem_cons]
      exact ⟨⟨rfl, rfl⟩, ⟨rfl, rfl⟩, ⟨rfl, rfl⟩, fun l member => by cases member⟩
    have forwardBefore : ∀ l ∈ faulty.legs.take 2, l.reversed = false := by decide
    exact ⟨(scoreItinerary_fault_precedence faulty _ _ none {} timed).1 _ _ [] rfl forwardBefore
        rfl,
      (scoreItinerary_fault_precedence faulty _ _ none _ timed).1 _ _ [] rfl forwardBefore rfl⟩

/-- A leg spanning `10^400` milliseconds overflows while the legs are aggregated: its span in
minutes is beyond the largest double. The origin, whose latitude is out of range, is never
looked at. -/
theorem scoreItinerary_huge_span_overflows :
    scoreItinerary
      ⟨[⟨.rail, ⟨.str "A", .null⟩, ⟨.str "B", .null⟩, .int 0, .int (Int.pow 10 400), .int 1000,
        .null, .null⟩], .int 0, .int (Int.pow 10 400), .null, .null⟩
      (.list [.int 100, .int 0]) (.list [.int 0, .int 0]) none {} =
      .error (.overflowError "integer division result too large for a float") := by
  have single : ∀ {l leg : Leg}, l ∈ [leg] → l = leg := fun member => List.mem_singleton.mp member
  refine scoreItinerary_aggregate_fault ?timed ?inOrder
    (@ofLegs_span_fault _ _ ?timed ?measured ?first ?last ?heads ?lasts _
      (Value.intQuotient_overflow ?nonzero ?beyond))
  case timed => exact fun l member => single member ▸ And.intro rfl rfl
  case inOrder =>
    refine ⟨fun l member => ?_, fun strict => by cases strict⟩
    rw [single member]
    decide +kernel
  case measured => exact fun l member => single member ▸ ⟨_, rfl⟩
  case heads | lasts => rfl
  case nonzero => decide
  case beyond => decide +kernel

end CorridorRank
