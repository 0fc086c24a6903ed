import Mathlib
import CorridorRank.Proofs.Scoring.Precedence
import CorridorRank.Proofs.Doubles.Conversion

/-!
# The duration and the detour ratio of a score

A returning score's duration is the span of its legs, from the first leg's start to the last
leg's end, divided into minutes and rounded once to a double. So it is at least zero whenever
the last leg ends no earlier than the first starts (`scoreItinerary_duration_ratio_bounds`).

The time check makes each leg run forward, but only the overlap check chains the legs one
after another, and scoring lets an overlap pass unless the policy is strict. Under a strict
policy, or with legs in chronological order, the span is forward and the duration at least
zero; under a lenient policy, legs that each run forward but come out of order can span
backward.

The detour ratio is at least one under any policy: it is the larger of one and the route's
length over the straight line.
-/

namespace CorridorRank

open Traversal Binary64

/-! ## Legs in chronological order -/

/-- Legs that each run forward, each ending no later than the next one starts, span forward:
the first starts no later than the last ends. Along the chain, each leg starts no later than it
ends, and ends no later than the next one starts. -/
theorem startMs_le_endMs_of_chain
    {legs : List Leg}
    {first last : Leg}
    (forward : ∀ l ∈ legs, l.reversed = false)
    (apart : legs.IsChain fun a b => a.overlaps b = false)
    (heads : legs.head? = some first)
    (lasts : legs.getLast? = some last) :
    first.startMs ≤ last.endMs := by
  induction apart generalizing first with
  | nil => cases heads
  | singleton leg =>
      obtain rfl : leg = first := Option.some.inj heads
      obtain rfl : leg = last := Option.some.inj lasts
      simpa [Leg.reversed] using forward leg (by simp)
  | @cons_cons prev next rest notOverlapping _ ih =>
      obtain rfl : prev = first := Option.some.inj heads
      have later : next.startMs ≤ last.endMs :=
        ih (fun l member => forward l (List.mem_cons_of_mem prev member)) rfl
          (by rwa [List.getLast?_cons_cons] at lasts)
      have prevForward : prev.startMs ≤ prev.endMs := by
        simpa [Leg.reversed] using forward prev (by simp)
      have gap : prev.endMs ≤ next.startMs := by
        simpa [Leg.overlaps] using notOverlapping
      omega

/-! ## The detour ratio -/

/-- The larger of a number and a double is the double only when it is above the number. -/
theorem Value.max2_number
    {x : Float}
    (number : x.isNaN = false)
    (y : Float) :
    Value.max2 (.float x) (.float y) = .ok (.float (if x < y then y else x)) := by
  unfold Value.max2
  rw [Value.compareWith_num .gt rfl rfl, ok_bind]
  have above : ((Num.order? (.float y) (.float x)).map (Value.Comparison.holds .gt)).getD
      false = decide (x < y) := by
    cases nan : y.isNaN with
    | false =>
        rw [Num.order?_float nan number]
        simp only [Option.map_some, Option.getD_some, Value.Comparison.holds,
          doubleRank_lt_iff number nan, ← compare_gt_iff_gt]
        cases compare (doubleRank y) (doubleRank x) <;> rfl
    | true =>
        rw [Num.order?_nan nan]
        simp [not_lt_of_isNaN_right nan]
  rw [above]
  by_cases less : x < y <;> simp [less, pure, Except.pure]

/-- The detour ratio of two doubles: the route over the straight line when the straight line
is above zero and the quotient above one, and one otherwise. -/
theorem detourRatio_eq
    (route straight : Float) :
    detourRatio (.float route) (.float straight) =
      .ok (.float (if 0.0 < straight ∧ 1.0 < route / straight then route / straight else 1.0)) := by
  have zeroNumber : (0.0 : Float).isNaN = false := rfl
  have divided : (straight == 0.0) = false →
      Value.div (.float route) (.float straight) = .ok (.float (route / straight)) := by
    intro nonzero
    show (if straight == 0.0 then throw _ else pure _) = _
    rw [nonzero]
    rfl
  unfold detourRatio
  cases nan : straight.isNaN with
  | true =>
      have unordered : Value.compareWith .le (.float straight) (.int 0) = .ok false := by
        rw [Value.compareWith_num .le rfl rfl, Num.order?_float_int_zero, Num.order?_nan nan _]
        rfl
      have nonzero : (straight == 0.0) = false := by
        rw [beq_zero_eq, unpack_of_isNaN nan]
        rfl
      rw [unordered, ok_bind, Bool.not_false, if_pos rfl, divided nonzero, ok_bind,
        Value.max2_number rfl, if_neg (not_lt_of_isNaN_right (isNaN_div_of_isNaN_right nan)),
        if_neg fun both => not_lt_of_isNaN_right nan both.1]
  | false =>
      rw [Value.compareWith_le_int_zero nan, ok_bind, Bool.not_not]
      by_cases positive : 0.0 < straight
      · have nonzero : (straight == 0.0) = false := by
          rw [doubleRank_beq nan zeroNumber, decide_eq_false_iff_not]
          exact ((doubleRank_lt_iff zeroNumber nan).mp positive).ne'
        rw [decide_eq_true positive, if_pos rfl, divided nonzero, ok_bind, Value.max2_number rfl]
        simp only [positive, true_and]
      · rw [decide_eq_false positive, if_neg Bool.false_ne_true, if_neg fun both => positive both.1]
        rfl

/-- A detour ratio is at least one. -/
theorem one_le_ratio
    {route straight : Float} :
    1.0 ≤ if 0.0 < straight ∧ 1.0 < route / straight then route / straight else 1.0 := by
  split
  · next above => exact float_le_of_lt above.2
  · decide

/-- The detour ratio of two doubles is at least one. -/
theorem one_le_detourRatio
    {route straight ratio : Float}
    (run : detourRatio (.float route) (.float straight) = .ok (.float ratio)) :
    1.0 ≤ ratio := by
  rw [detourRatio_eq] at run
  cases run
  exact one_le_ratio

/-! ## What a returning score is made of -/

/-- A value holding a number converts to a double as the number does. -/
theorem Value.toFloat_of_num
    {v : Value}
    {n : Num}
    (number : v.num? = some n) :
    v.toFloat = n.toFloat := by
  cases v <;> simp_all [Value.toFloat, Value.num?]

/-- A double plus a value is a double: the value converted, then added. A double adds to numbers
only. -/
theorem Value.add_float_left
    {x : Float}
    {v total : Value}
    (run : Value.add (.float x) v = .ok total) :
    ∃ y, v.toFloat = .ok y ∧ total = .float (x + y) := by
  unfold Value.add Value.arith at run
  cases number : v.num? with
  | none =>
      rw [number] at run
      cases v <;> cases run
  | some n =>
      rw [number] at run
      cases converted : n.toFloat with
      | error fault =>
          cases n <;> simp_all [Value.num?, Value.numArith, Num.toFloat, bind, Except.bind]
      | ok y =>
          refine ⟨y, (Value.toFloat_of_num number).trans converted, ?_⟩
          cases n <;>
            simp_all [Value.num?, Value.numArith, Num.toFloat, bind, Except.bind, pure, Except.pure]

/-- On timed legs, an aggregate that returns holds the sum of the leg distances over 1000, the
interchanges under its merging, and the span from the first leg's start to the last leg's end
in minutes. -/
theorem ofLegs_ok_eq
    {legs : List Leg}
    {merge : Bool}
    {agg : Aggregate}
    (timed : ∀ l ∈ legs, l.Timed)
    (aggregated : Aggregate.ofLegs legs merge = .ok agg) :
    ∃ first last metres, legs.head? = some first ∧ legs.getLast? = some last ∧
      Aggregate.totalMetres legs = .ok metres ∧
      Value.intQuotient (last.endMs - first.startMs) 60000 = .ok agg.durationMinutes ∧
      agg.routeDistanceKm = metres / 1000.0 ∧
      agg.transferCount = Aggregate.interchanges merge legs := by
  unfold Aggregate.ofLegs at aggregated
  cases heads : legs.head? with
  | none =>
      rw [heads] at aggregated
      cases aggregated
  | some first =>
      cases lasts : legs.getLast? with
      | none =>
          rw [heads, lasts] at aggregated
          cases aggregated
      | some last =>
          rw [heads, lasts] at aggregated
          dsimp only at aggregated
          obtain ⟨metres, measured, aggregated⟩ := bind_eq_ok.mp aggregated
          rw [(timed last (List.mem_of_getLast? lasts)).2,
            (timed first (List.mem_of_mem_head? heads)).1, Value.sub_int, ok_bind,
            Value.div_int] at aggregated
          obtain ⟨duration, divided, aggregated⟩ := bind_eq_ok.mp aggregated
          cases quotient : Value.intQuotient (last.endMs - first.startMs) 60000 with
          | error fault =>
              rw [quotient] at divided
              cases divided
          | ok minutes =>
              rw [quotient] at divided
              cases divided
              obtain ⟨converted, toDouble, built⟩ := bind_eq_ok.mp aggregated
              cases toDouble
              cases built
              exact ⟨first, last, metres, rfl, rfl, measured, quotient, rfl, rfl⟩

/-- On timed legs, an aggregate that returns has the duration of the span from the first leg's
start to the last leg's end, in minutes. -/
theorem ofLegs_ok_span
    {legs : List Leg}
    {merge : Bool}
    {agg : Aggregate}
    (timed : ∀ l ∈ legs, l.Timed)
    (aggregated : Aggregate.ofLegs legs merge = .ok agg) :
    ∃ first last, legs.head? = some first ∧ legs.getLast? = some last ∧
      Value.intQuotient (last.endMs - first.startMs) 60000 = .ok agg.durationMinutes := by
  obtain ⟨first, last, -, heads, lasts, -, quotient, -⟩ := ofLegs_ok_eq timed aggregated
  exact ⟨first, last, heads, lasts, quotient⟩

section Scoring

variable {it : Itinerary} {origin destination : Value} {corridor : Option Value} {p : Policy}
  {score : CorridorScore}

/-- What a returning score is made of: it passed the time and order checks; its duration,
route length and interchanges are those of the aggregate of the legs under the policy's
merging; its straight line is the one between the endpoints and its ratio the ratio of the
two; its corridor is the one given or the key of the legs; its penalties are the policy's,
each as a double; and its total is their sum, added in order. The ratio of two doubles is a double,
so the score's ratio is the one computed, and the totals are doubles; past the corridor, given or
derived, both paths build the same score. -/
theorem scoreItinerary_ok_parts
    (run : scoreItinerary it origin destination corridor p = .ok score) :
    checkLegTimes it.legs = .ok () ∧ checkOrderUnder it.legs p = .ok () ∧
    ∃ agg, Aggregate.ofLegs it.legs p.mergeSameTrip.truthy = .ok agg ∧
      score.durationMinutes = agg.durationMinutes ∧
      score.routeDistanceKm = agg.routeDistanceKm ∧ score.transferCount = agg.transferCount ∧
      Coordinates.distanceOf origin destination = .ok score.straightLineKm ∧
      detourRatio (.float agg.routeDistanceKm) (.float score.straightLineKm) =
        .ok (.float score.detourRatio) ∧
      (match corridor with
        | some c => score.corridorId = c
        | none => Value.str <$> it.corridorKey = .ok score.corridorId) ∧
      (detourPenalty (.float score.detourRatio) (.float score.durationMinutes) p >>=
        Value.toFloat) = .ok score.detourPenalty ∧
      (Value.mul (.int score.transferCount) p.perTransferPenalty >>= Value.toFloat) =
        .ok score.transferPenalty ∧
      score.score = (score.durationMinutes + score.detourPenalty) + score.transferPenalty := by
  unfold scoreItinerary at run
  obtain ⟨⟨⟩, timesPass, run⟩ := bind_eq_ok.mp run
  obtain ⟨⟨⟩, orderPass, run⟩ := bind_eq_ok.mp run
  obtain ⟨agg, aggregated, run⟩ := bind_eq_ok.mp run
  obtain ⟨straight, measured, run⟩ := bind_eq_ok.mp run
  obtain ⟨ratio, ratioRun, run⟩ := bind_eq_ok.mp run
  obtain ⟨penalty, penaltyRun, run⟩ := bind_eq_ok.mp run
  obtain ⟨transfer, transferRun, run⟩ := bind_eq_ok.mp run
  obtain ⟨subtotal, subtotalRun, run⟩ := bind_eq_ok.mp run
  obtain ⟨total, totalRun, run⟩ := bind_eq_ok.mp run
  obtain ⟨ratioDouble, ratioFloat⟩ := detourRatio_float agg.routeDistanceKm straight
  rw [ratioFloat] at ratioRun
  cases ratioRun
  obtain ⟨penaltyDouble, penaltyConverted, rfl⟩ := Value.add_float_left subtotalRun
  obtain ⟨transferDouble, transferConverted, rfl⟩ := Value.add_float_left totalRun
  cases corridor <;> dsimp only at run <;> obtain ⟨corridorId, corridorRun, run⟩ := bind_eq_ok.mp run
  all_goals
    obtain ⟨scored, scoredConverted, run⟩ := bind_eq_ok.mp run
    obtain ⟨penaltyDouble', penaltyConverted', run⟩ := bind_eq_ok.mp run
    obtain ⟨transferDouble', transferConverted', run⟩ := bind_eq_ok.mp run
    obtain ⟨ratioDouble', ratioConverted, run⟩ := bind_eq_ok.mp run
    rw [pure_eq_ok] at run
    subst run
    rw [penaltyConverted] at penaltyConverted'
    rw [transferConverted] at transferConverted'
    cases penaltyConverted'
    cases transferConverted'
    cases scoredConverted
    cases ratioConverted
    refine ⟨timesPass, orderPass, agg, aggregated, rfl, rfl, rfl, measured, ratioFloat, ?_,
      bind_eq_ok.mpr ⟨penalty, penaltyRun, penaltyConverted⟩,
      bind_eq_ok.mpr ⟨transfer, transferRun, transferConverted⟩, rfl⟩
  · exact corridorRun
  · exact (pure_eq_ok.mp corridorRun).symm

/-- A returning score passed the time and order checks; its duration is that of the aggregate
of the legs, and its detour ratio the ratio of two doubles. -/
theorem scoreItinerary_ok_stages
    (run : scoreItinerary it origin destination corridor p = .ok score) :
    checkLegTimes it.legs = .ok () ∧ checkOrderUnder it.legs p = .ok () ∧
      (∃ agg, Aggregate.ofLegs it.legs p.mergeSameTrip.truthy = .ok agg ∧
        agg.durationMinutes = score.durationMinutes) ∧
      ∃ route straight,
        detourRatio (.float route) (.float straight) = .ok (.float score.detourRatio) := by
  obtain ⟨timesPass, orderPass, agg, aggregated, duration, -, -, -, ratio, -⟩ :=
    scoreItinerary_ok_parts run
  exact ⟨timesPass, orderPass, ⟨agg, aggregated, duration.symm⟩, _, _, ratio⟩

end Scoring

/-! ## The duration and the detour ratio -/

/-- The duration and the detour ratio of a returning score, on legs timed in whole
milliseconds, whatever the policy and the endpoints.

* The duration is the span from the first leg's start to the last leg's end, divided into
  minutes and rounded once to a double; it is at least zero when the last leg ends no earlier
  than the first starts.
* So it is at least zero under a strict policy, and under any policy when each leg ends no
  later than the next one starts.
* The detour ratio is at least one.

Legs in order span forward, and a strict policy has the order check fail on any overlap. -/
theorem scoreItinerary_duration_ratio_bounds
    (it : Itinerary)
    (origin destination : Value)
    (corridor : Option Value)
    (p : Policy)
    (timed : ∀ leg ∈ it.legs, leg.Timed)
    {score : CorridorScore}
    (run : scoreItinerary it origin destination corridor p = .ok score) :
    (∃ first last, it.legs.head? = some first ∧ it.legs.getLast? = some last ∧
      Value.intQuotient (last.endMs - first.startMs) 60000 = .ok score.durationMinutes ∧
      (first.startMs ≤ last.endMs → 0.0 ≤ score.durationMinutes)) ∧
    ((p.strictOrdering.truthy = true ∨ it.legs.IsChain fun a b => a.overlaps b = false) →
      0.0 ≤ score.durationMinutes) ∧
    1.0 ≤ score.detourRatio := by
  obtain ⟨timesPass, orderPass, ⟨agg, aggregated, duration⟩, route, straight, ratio⟩ :=
    scoreItinerary_ok_stages run
  obtain ⟨first, last, heads, lasts, quotient⟩ := ofLegs_ok_span timed aggregated
  rw [duration] at quotient
  have spanSign : first.startMs ≤ last.endMs → 0.0 ≤ score.durationMinutes :=
    fun forwardSpan => Value.zero_le_intQuotient (by omega) (by decide) quotient
  refine ⟨⟨first, last, heads, lasts, quotient, spanSign⟩, fun ordered => spanSign ?_,
    one_le_detourRatio ratio⟩
  have forward := forward_of_checkLegTimes timed timesPass
  rcases ordered with strict | apart
  · exact startMs_le_endMs_of_chain forward
      (apart_of_checkOrderUnder timed timesPass strict orderPass) heads lasts
  · exact startMs_le_endMs_of_chain forward apart heads lasts

end CorridorRank
