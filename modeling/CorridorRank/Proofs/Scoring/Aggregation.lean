import CorridorRank.Proofs.Scoring.Stages

/-!
# What aggregating legs computes

`Aggregate.ofLegs` reduces a sequence of legs to a route distance, an interchange count and a
duration. On legs timed in whole milliseconds whose distances convert to doubles, all three
can be said without the loops (`ofLegs_distance_duration_interchanges`):

* the route distance is the distances added in order, starting from `0.0`, over 1000;
* the duration is the span from the first leg's start to the last leg's end divided into
  minutes and rounded once to a double; aggregation returns exactly when that quotient is a
  finite double, and otherwise fails with the overflow of the division
  (`ofLegs_huge_span_overflows`);
* the interchanges are one fewer than the legs, less, when legs on one trip merge, the
  junctions between consecutive legs of one trip (`sameTripJunctions`). So there are never
  more interchanges than the itinerary's own count, merging never adds one, and the two
  counts agree exactly when nothing merges.
-/

namespace CorridorRank

open Traversal

/-! ## Junctions on one trip -/

/-- Two consecutive legs ride one trip: the first has a trip id, and the next one's equals
it. -/
def Leg.sameTrip
    (prev next : Leg) :
    Bool :=
  prev.tripId.truthy && Value.equal prev.tripId next.tripId

/-- The number of junctions between consecutive legs that stay on one trip. -/
def sameTripJunctions
    (legs : List Leg) :
    Nat :=
  (legs.zip legs.tail).countP fun pair => pair.1.sameTrip pair.2

@[simp]
theorem sameTripJunctions_cons_cons
    (prev next : Leg)
    (rest : List Leg) :
    sameTripJunctions (prev :: next :: rest) =
      sameTripJunctions (next :: rest) + if prev.sameTrip next then 1 else 0 := by
  simp [sameTripJunctions, List.countP_cons]

/-- A junction is an interchange unless legs on one trip merge and it stays on one trip. -/
theorem Aggregate.isInterchange_eq
    (merge : Bool)
    (prev next : Leg) :
    Aggregate.isInterchange merge prev next = !(merge && prev.sameTrip next) := by
  simp [Aggregate.isInterchange, Leg.sameTrip, Bool.and_assoc]

/-- Of the junctions between consecutive legs, one fewer than the legs, those that stay on
one trip are at most all of them. -/
theorem sameTripJunctions_le
    (legs : List Leg) :
    sameTripJunctions legs ≤ legs.length - 1 := by
  have atMost := List.countP_le_length (p := fun pair : Leg × Leg => pair.1.sameTrip pair.2)
    (l := legs.zip legs.tail)
  rw [List.length_zip, List.length_tail, Nat.min_eq_right (Nat.sub_le _ _)] at atMost
  exact atMost

/-- Every junction is an interchange, or merged because it stays on one trip. At most one leg has no
junction at all. -/
theorem interchanges_add_merged
    (merge : Bool)
    (legs : List Leg) :
    Aggregate.interchanges merge legs + (if merge then sameTripJunctions legs else 0) =
      legs.length - 1 := by
  fun_induction Aggregate.interchanges merge legs with
  | case1 prev next rest ih =>
      simp only [List.length_cons, Nat.add_sub_cancel] at ih ⊢
      rw [Aggregate.isInterchange_eq, sameTripJunctions_cons_cons]
      cases merge <;> cases prev.sameTrip next <;> simp at ih ⊢ <;> omega
  | case2 legs short =>
      match legs, short with
      | [], _ => simp [sameTripJunctions]
      | [_], _ => simp [sameTripJunctions]
      | _ :: _ :: _, short => exact absurd rfl (short _ _ _)

/-- The interchanges are the junctions less, when legs on one trip merge, those that stay on
one trip. -/
theorem interchanges_eq
    (merge : Bool)
    (legs : List Leg) :
    Aggregate.interchanges merge legs =
      (legs.length - 1) - if merge then sameTripJunctions legs else 0 := by
  have counted := interchanges_add_merged merge legs
  omega

/-- The interchanges are one fewer than the legs exactly when nothing merges: legs on one trip
do not merge, or no junction stays on one trip. -/
theorem interchanges_eq_junctions_iff
    (merge : Bool)
    (legs : List Leg) :
    Aggregate.interchanges merge legs = legs.length - 1 ↔
      merge = false ∨ sameTripJunctions legs = 0 := by
  have counted := interchanges_add_merged merge legs
  have bounded := sameTripJunctions_le legs
  cases merge <;> simp at counted ⊢ <;> omega

/-- Merging legs on one trip never adds an interchange. -/
theorem interchanges_merged_le
    (legs : List Leg) :
    Aggregate.interchanges true legs ≤ Aggregate.interchanges false legs := by
  have merged := interchanges_add_merged true legs
  have unmerged := interchanges_add_merged false legs
  simp only [if_true, Bool.false_eq_true, if_false, Nat.add_zero] at merged unmerged
  omega

/-! ## The route distance -/

/-- A fold over numbered legs that adds each leg's distance, as a double, to what it has
summed, sums the converted distances in order. -/
theorem foldlM_adds_distances
    {step : Float → Leg × Nat → Except Fault Float}
    (adds : ∀ total leg i metres, leg.distance.toFloat = .ok metres →
      step total (leg, i) = .ok (total + metres))
    {legs : List Leg}
    {metres : List Float}
    (converted : List.Forall₂ (fun leg m => leg.distance.toFloat = .ok m) legs metres)
    (start : Nat)
    (init : Float) :
    (legs.zipIdx start).foldlM step init = .ok (metres.foldl (· + ·) init) := by
  induction converted generalizing start init with
  | nil => rfl
  | @cons leg m rest ms converts _ ih =>
      rw [List.zipIdx_cons, List.foldlM_cons, adds init leg start m converts, ok_bind]
      exact ih (start + 1) (init + m)

/-- The distance sum of legs whose distances convert to doubles is those doubles added in
order, starting from `0.0`. A missing distance does not convert to a double. -/
theorem totalMetres_eq_foldl
    {legs : List Leg}
    {metres : List Float}
    (measured : legs.mapM (fun leg => leg.distance.toFloat) = .ok metres) :
    Aggregate.totalMetres legs = .ok (metres.foldl (· + ·) 0.0) := by
  unfold Aggregate.totalMetres
  refine foldlM_adds_distances (fun total leg i m converts => ?_)
    ((mapM_eq_ok_iff _ _ _).mp measured) 0 0.0
  dsimp only
  split
  next missing =>
    rw [missing] at converts
    cases converts
  next =>
    rw [converts]
    rfl

/-! ## The aggregate -/

/-- On legs timed in whole milliseconds whose distances convert to doubles, aggregation is
the distances added in order over 1000, the interchanges, and the span divided into minutes,
failing as that division does. -/
theorem ofLegs_eq_quotient
    {legs : List Leg}
    (merge : Bool)
    {metres : List Float}
    (nonempty : legs ≠ [])
    (timed : ∀ leg ∈ legs, leg.Timed)
    (measured : legs.mapM (fun leg => leg.distance.toFloat) = .ok metres) :
    Aggregate.ofLegs legs merge =
      (Value.intQuotient ((legs.getLast nonempty).endMs - (legs.head nonempty).startMs)
        60000).map (fun minutes =>
          { routeDistanceKm := metres.foldl (· + ·) 0.0 / 1000.0,
            transferCount := Aggregate.interchanges merge legs, durationMinutes := minutes }) := by
  unfold Aggregate.ofLegs
  rw [List.head?_eq_some_head nonempty, List.getLast?_eq_some_getLast nonempty]
  dsimp only
  rw [totalMetres_eq_foldl measured, ok_bind, (timed _ (List.getLast_mem nonempty)).2,
    (timed _ (List.head_mem nonempty)).1, Value.sub_int, ok_bind, Value.div_int]
  generalize Value.intQuotient _ 60000 = quotient
  cases quotient <;> rfl

/-- What aggregating the legs of an itinerary computes. On legs timed in whole milliseconds
whose distances convert to doubles, aggregation returns exactly when the span from the first
leg's start to the last leg's end, divided into minutes, rounds to a finite double (so
whenever the span is below `2^1000` milliseconds in size), and fails as that division does
otherwise. What it returns is the distances added in order over 1000, that quotient, and
the interchanges: one fewer than the legs, less the junctions on one trip when such legs
merge. So there are never more interchanges than the itinerary counts, as many exactly when
nothing merges, and merging never adds one. -/
theorem ofLegs_distance_duration_interchanges
    (it : Itinerary)
    (merge : Bool)
    {metres : List Float}
    (nonempty : it.legs ≠ [])
    (timed : ∀ leg ∈ it.legs, leg.Timed)
    (measured : it.legs.mapM (fun leg => leg.distance.toFloat) = .ok metres) :
    Aggregate.ofLegs it.legs merge =
      (Value.intQuotient ((it.legs.getLast nonempty).endMs - (it.legs.head nonempty).startMs)
        60000).map (fun minutes =>
          { routeDistanceKm := metres.foldl (· + ·) 0.0 / 1000.0,
            transferCount := Aggregate.interchanges merge it.legs,
            durationMinutes := minutes }) ∧
    (((it.legs.getLast nonempty).endMs - (it.legs.head nonempty).startMs).natAbs <
      Nat.pow 2 1000 → ∃ agg, Aggregate.ofLegs it.legs merge = .ok agg) ∧
    Aggregate.interchanges merge it.legs =
      it.transferCount - (if merge then sameTripJunctions it.legs else 0) ∧
    sameTripJunctions it.legs ≤ it.transferCount ∧
    (Aggregate.interchanges merge it.legs = it.transferCount ↔
      merge = false ∨ sameTripJunctions it.legs = 0) ∧
    Aggregate.interchanges true it.legs ≤ Aggregate.interchanges false it.legs := by
  have aggregated := ofLegs_eq_quotient merge nonempty timed measured
  refine ⟨aggregated, fun small => ?_, interchanges_eq merge it.legs,
    sameTripJunctions_le it.legs, interchanges_eq_junctions_iff merge it.legs,
    interchanges_merged_le it.legs⟩
  obtain ⟨minutes, divided⟩ := Value.intQuotient_ok small (by decide : (60000 : Int) ≠ 0)
  rw [aggregated, divided]
  exact ⟨_, rfl⟩

/-- A rail leg from `A` to `B` on a trip, timed in milliseconds. -/
def tripLeg
    (start stop : Int)
    (metres : Float)
    (trip : String) :
    Leg :=
  ⟨.rail, ⟨.str "A", .null⟩, ⟨.str "B", .null⟩, .int start, .int stop, .float metres, .str trip,
    .null⟩

/-- Two legs on trip `T1`, then one on `T2`, an hour in all: merging legs on one trip leaves one
interchange of the two. -/
theorem ofLegs_same_trip_legs_merge :
    Aggregate.interchanges true [tripLeg 0 1200000 10000.0 "1:T1",
      tripLeg 1320000 2400000 10000.0 "1:T1", tripLeg 2700000 3600000 10000.0 "1:T2"] =
      1 := by
  have merged := (@ofLegs_distance_duration_interchanges
    ⟨[tripLeg 0 1200000 10000.0 "1:T1", tripLeg 1320000 2400000 10000.0 "1:T1",
      tripLeg 2700000 3600000 10000.0 "1:T2"], .int 0, .int 3600000, .null, .null⟩ true
    [10000.0, 10000.0, 10000.0] (List.cons_ne_nil _ _)
    (by simp [tripLeg, Leg.Timed, Leg.startMs, Leg.endMs, Value.intRank]) rfl).2.2.1
  rw [merged]
  decide

/-- A leg spanning `10^400` milliseconds cannot be aggregated: its span in minutes is beyond
the largest double, and the division overflows. -/
theorem ofLegs_huge_span_overflows :
    Aggregate.ofLegs [⟨.rail, ⟨.str "A", .null⟩, ⟨.str "B", .null⟩, .int 0,
      .int (Int.pow 10 400), .int 1000, .null, .null⟩] false =
      .error (.overflowError "integer division result too large for a float") := by
  have single : ∀ {l leg : Leg}, l ∈ [leg] → l = leg := fun member => List.mem_singleton.mp member
  refine @ofLegs_span_fault _ _ ?timed ?measured ?first ?last ?heads ?lasts _
    (Value.intQuotient_overflow ?nonzero ?beyond)
  case timed => exact fun l member => single member ▸ And.intro rfl rfl
  case measured => exact fun l member => single member ▸ ⟨_, rfl⟩
  case heads | lasts => rfl
  case nonzero => decide
  case beyond => decide +kernel

end CorridorRank
