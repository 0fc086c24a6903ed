import Mathlib
import CorridorRank.Proofs.Ranking.KeyOrder
import CorridorRank.Proofs.Scoring.Doubles
import CorridorRank.Proofs.Scoring.FanOut

/-!
# The stages of scoring

Scoring an itinerary checks its legs, aggregates them, measures the endpoints and combines
the results. Each stage has its lemmas here, so that what scoring reports is read off them
and never off the body of `scoreItinerary`.

On legs timed in whole milliseconds (`Leg.Timed`) each order check is a comparison of
integers: the time check fails at the first reversed leg and the overlap check at the first
leg that ends after the next one starts. Aggregation fails at the first leg without a
distance, and otherwise comes down to dividing the span of the legs into minutes
(`ofLegs_eq_span`), which returns for timestamps below `2^999` milliseconds in size. Past
the endpoints, all the arithmetic stays in doubles once the weights are doubles: the detour
ratio divides only by a straight line above zero.
-/

namespace CorridorRank

open Traversal

/-! ## Timed legs -/

/-- Integers are ordered by their values. -/
theorem Value.gt_int
    (a b : Int) :
    Value.gt (.int a) (.int b) = .ok (decide (b < a)) := by
  have holds : (compare a b == Ordering.gt) = decide (b < a) := by
    rw [Bool.eq_iff_iff, beq_iff_eq, decide_eq_true_iff, Int.compare_eq_gt]
  simp [Value.gt, Value.compareWith, Value.num?, Num.order?, Value.Comparison.holds, holds]

namespace Leg

/-- The leg's start in milliseconds, as an integer (0 for a start that is none). -/
def startMs
    (leg : Leg) :
    Int := leg.startTime.intRank

/-- The leg's end in milliseconds, as an integer (0 for an end that is none). -/
def endMs
    (leg : Leg) :
    Int := leg.endTime.intRank

/-- A leg timed in whole milliseconds: its start and its end are integers. -/
def Timed
    (leg : Leg) :
    Prop :=
  leg.startTime = .int leg.startMs ∧ leg.endTime = .int leg.endMs

/-- The leg ends before it starts. -/
def reversed
    (leg : Leg) :
    Bool := decide (leg.endMs < leg.startMs)

/-- The leg ends after the next one starts. -/
def overlaps
    (prev next : Leg) :
    Bool := decide (next.startMs < prev.endMs)

/-- The comparison the time check makes answers whether a timed leg is reversed. -/
theorem lt_times
    {leg : Leg}
    (timed : leg.Timed) :
    Value.lt leg.endTime leg.startTime = .ok leg.reversed := by
  rw [timed.1, timed.2, Value.lt_int]
  rfl

/-- The comparison the order check makes answers whether two timed legs overlap. -/
theorem gt_times
    {prev next : Leg}
    (timedPrev : prev.Timed)
    (timedNext : next.Timed) :
    Value.gt prev.endTime next.startTime = .ok (prev.overlaps next) := by
  rw [timedPrev.2, timedNext.1, Value.gt_int]
  rfl

end Leg

/-! ## Arithmetic in doubles -/

namespace Value

/-- Two numbers always compare: the comparison answers, and never faults. -/
theorem compareWith_num
    (op : Comparison)
    {a b : Value}
    {x y : Num}
    (numberA : a.num? = some x)
    (numberB : b.num? = some y) :
    compareWith op a b = .ok (((Num.order? x y).map op.holds).getD false) := by
  unfold compareWith
  split
  · simp [num?] at numberA
  · simp [num?] at numberA
  · simp [num?] at numberA
  · rw [numberA, numberB]

theorem sub_int
    (a b : Int) :
    Value.sub (.int a) (.int b) = .ok (.int (a - b)) := rfl

/-- Integers divide exactly, the quotient rounded once to a double. -/
theorem div_int
    (a b : Int) :
    Value.div (.int a) (.int b) = Value.float <$> intQuotient a b := rfl

theorem sub_float
    (x y : Float) :
    Value.sub (.float x) (.float y) = .ok (.float (x - y)) := rfl

theorem add_float
    (x y : Float) :
    Value.add (.float x) (.float y) = .ok (.float (x + y)) := rfl

theorem mul_float
    (x y : Float) :
    Value.mul (.float x) (.float y) = .ok (.float (x * y)) := rfl

/-- The larger of two doubles is a double. -/
theorem max2_float
    (x y : Float) :
    ∃ z, max2 (.float x) (.float y) = .ok (.float z) := by
  unfold max2
  rw [compareWith_num .gt rfl rfl, ok_bind]
  split
  · exact ⟨y, rfl⟩
  · exact ⟨x, rfl⟩

/-- An integer times a double is the product of the integer's double and the double. -/
theorem mul_int_float_eq
    {n : Int}
    {x : Float}
    (converts : Binary64.ofInt n = some x)
    (y : Float) :
    Value.mul (.int n) (.float y) = .ok (.float (x * y)) := by
  show (do
    let x ← (Num.int n).toFloat
    let y ← (Num.float y).toFloat
    pure (Value.float (x * y)) : Except Fault Value) = _
  rw [Num.toFloat, converts]
  rfl

/-- An integer below `2^1000` in size times a double is a double. -/
theorem mul_int_float
    {n : Int}
    (small : n.natAbs < Nat.pow 2 1000)
    (y : Float) :
    ∃ z, Value.mul (.int n) (.float y) = .ok (.float z) := by
  obtain ⟨x, converts⟩ := Option.isSome_iff_exists.mp (Binary64.ofInt_isSome small)
  exact ⟨x * y, mul_int_float_eq converts y⟩

end Value

/-! ## The order checks -/

section OrderChecks

variable {legs before after : List Leg} {leg prev next : Leg}

/-- The time check passes legs none of which is reversed. -/
theorem checkLegTimes_eq_ok
    (timed : ∀ l ∈ legs, l.Timed)
    (forward : ∀ l ∈ legs, l.reversed = false) :
    checkLegTimes legs = .ok () := by
  unfold checkLegTimes
  refine forM_eq_ok fun ⟨l, i⟩ member => ?_
  have inLegs := List.fst_mem_of_mem_zipIdx member
  simp only [Leg.lt_times (timed l inLegs), forward l inLegs]
  rfl

/-- The time check fails at the first reversed leg. -/
theorem checkLegTimes_first_reversed
    (timed : ∀ l ∈ legs, l.Timed)
    (split : legs = before ++ leg :: after)
    (forwardBefore : ∀ l ∈ before, l.reversed = false)
    (reversed : leg.reversed = true) :
    checkLegTimes legs = .error (.scoring (.legReversed before.length)) := by
  subst split
  unfold checkLegTimes
  rw [List.zipIdx_append, List.zipIdx_cons, Nat.zero_add]
  refine forM_eq_error (fun ⟨l, i⟩ member => ?_) ?_
  · have inBefore := List.fst_mem_of_mem_zipIdx member
    simp only [Leg.lt_times (timed l (by simp [inBefore])), forwardBefore l inBefore]
    rfl
  · simp only [Leg.lt_times (timed leg (by simp)), reversed]
    rfl

/-- The overlap check passes legs none of which ends after the next one starts. -/
theorem checkOverlaps_eq_ok
    (timed : ∀ l ∈ legs, l.Timed)
    (apart : legs.IsChain fun prev next => prev.overlaps next = false)
    (i : Nat) :
    checkOverlaps legs i = .ok () := by
  induction apart generalizing i with
  | nil => rfl
  | singleton => rfl
  | @cons_cons prev next rest notOverlapping _ ih =>
      rw [checkOverlaps, Leg.gt_times (timed prev (by simp)) (timed next (by simp)),
        notOverlapping]
      exact ih (fun l member => timed l (List.mem_cons_of_mem prev member)) (i + 1)

/-- The overlap check fails at the first leg that ends after the next one starts, counting
from `i`. By induction on the legs before the overlap: the leg after each of them is the next of
them, or the overlapping leg after the last. -/
theorem checkOverlaps_first_overlap
    (timed : ∀ l ∈ legs, l.Timed)
    (split : legs = before ++ prev :: next :: after)
    (apartBefore : (before ++ [prev]).IsChain fun a b => a.overlaps b = false)
    (overlapping : prev.overlaps next = true)
    (i : Nat) :
    checkOverlaps legs i = .error (.scoring (.legsOverlap (i + before.length))) := by
  subst split
  induction before generalizing i with
  | nil =>
      rw [List.nil_append, checkOverlaps, Leg.gt_times (timed prev (by simp)) (timed next (by simp)),
        overlapping]
      rfl
  | cons first rest ih =>
      obtain ⟨second, tail, shape⟩ : ∃ second tail, rest ++ prev :: next :: after =
          second :: tail ∧ (rest ++ [prev]).head? = some second := by
        cases rest with
        | nil => exact ⟨prev, next :: after, rfl, rfl⟩
        | cons second tail => exact ⟨second, tail ++ prev :: next :: after, rfl, rfl⟩
      have apartFirst : first.overlaps second = false := by
        rw [List.cons_append, List.isChain_cons] at apartBefore
        exact apartBefore.1 second shape.2
      have secondTimed : second.Timed := timed second (by rw [List.cons_append, shape.1]; simp)
      rw [List.cons_append, shape.1, checkOverlaps,
        Leg.gt_times (timed first (by simp)) secondTimed, apartFirst]
      have rest := ih (List.IsChain.tail apartBefore) (i + 1)
        (fun l member => timed l (List.mem_cons_of_mem first member))
      rw [shape.1, Nat.add_right_comm] at rest
      rw [List.length_cons, ← Nat.add_assoc]
      exact rest

/-- On timed legs the overlap check fails only by reporting an overlap. -/
theorem checkOverlaps_scoring
    (timed : ∀ l ∈ legs, l.Timed)
    (i : Nat) :
    checkOverlaps legs i = .ok () ∨
      ∃ j, checkOverlaps legs i = .error (.scoring (.legsOverlap j)) := by
  induction legs generalizing i with
  | nil => exact Or.inl rfl
  | cons prev rest ih =>
      cases rest with
      | nil => exact Or.inl rfl
      | cons next rest =>
          rw [checkOverlaps, Leg.gt_times (timed prev (by simp)) (timed next (by simp))]
          cases prev.overlaps next with
          | false => exact ih (fun l member => timed l (List.mem_cons_of_mem prev member)) (i + 1)
          | true => exact Or.inr ⟨i, rfl⟩

/-- Once the time check has passed, the order check is the overlap check. -/
theorem checkLegOrder_of_times
    (timesPass : checkLegTimes legs = .ok ()) :
    checkLegOrder legs = checkOverlaps legs 0 := by
  rw [checkLegOrder, timesPass]
  rfl

/-- Once the time check has passed, the order check of a policy passes legs none of which
overlaps the next, and passes any timed legs under a lenient policy. A lenient policy lets the
overlap the check reports pass. -/
theorem checkOrderUnder_eq_ok
    {p : Policy}
    (timed : ∀ l ∈ legs, l.Timed)
    (timesPass : checkLegTimes legs = .ok ())
    (apart : p.strictOrdering.truthy → legs.IsChain fun a b => a.overlaps b = false) :
    checkOrderUnder legs p = .ok () := by
  unfold checkOrderUnder
  rw [checkLegOrder_of_times timesPass]
  cases strict : p.strictOrdering.truthy with
  | true =>
      rw [checkOverlaps_eq_ok timed (apart strict)]
      rfl
  | false =>
      rcases checkOverlaps_scoring timed 0 with passes | ⟨j, fails⟩
      · rw [passes]
        rfl
      · rw [fails]
        simp

/-- Under a strict policy, once the time check has passed, the order check fails at the first
leg that ends after the next one starts. -/
theorem checkOrderUnder_first_overlap
    {p : Policy}
    (timed : ∀ l ∈ legs, l.Timed)
    (timesPass : checkLegTimes legs = .ok ())
    (strict : p.strictOrdering.truthy = true)
    (split : legs = before ++ prev :: next :: after)
    (apartBefore : (before ++ [prev]).IsChain fun a b => a.overlaps b = false)
    (overlapping : prev.overlaps next = true) :
    checkOrderUnder legs p = .error (.scoring (.legsOverlap before.length)) := by
  have order : checkLegOrder legs = .error (.scoring (.legsOverlap before.length)) := by
    rw [checkLegOrder_of_times timesPass, ← Nat.zero_add before.length]
    exact checkOverlaps_first_overlap timed split apartBefore overlapping 0
  unfold checkOrderUnder
  rw [order]
  simp only [strict, if_true]
  rfl

/-- Legs with a reversed leg split at the first one. -/
theorem exists_first_reversed
    (someReversed : ∃ l ∈ legs, l.reversed = true) :
    ∃ before leg after, legs = before ++ leg :: after ∧ (∀ l ∈ before, l.reversed = false) ∧
      leg.reversed = true := by
  obtain ⟨leg, member, reversed⟩ := someReversed
  obtain ⟨first, found⟩ : ∃ first, legs.find? Leg.reversed = some first :=
    Option.isSome_iff_exists.mp (List.find?_isSome.mpr ⟨leg, member, reversed⟩)
  obtain ⟨firstReversed, before, after, split, forwardBefore⟩ :=
    List.find?_eq_some_iff_append.mp found
  exact ⟨before, first, after, split, fun l inBefore => by simpa using forwardBefore l inBefore,
    firstReversed⟩

/-- Timed legs that pass the time check have no reversed leg. The first reversed leg would have
failed the check. -/
theorem forward_of_checkLegTimes
    (timed : ∀ l ∈ legs, l.Timed)
    (timesPass : checkLegTimes legs = .ok ()) :
    ∀ l ∈ legs, l.reversed = false := by
  intro l member
  cases reversed : l.reversed with
  | false => rfl
  | true =>
      obtain ⟨before, leg, after, split, forwardBefore, firstReversed⟩ :=
        exists_first_reversed ⟨l, member, reversed⟩
      rw [checkLegTimes_first_reversed timed split forwardBefore firstReversed] at timesPass
      cases timesPass

/-- Timed legs that pass the overlap check each end no later than the next one starts. -/
theorem apart_of_checkOverlaps
    (timed : ∀ l ∈ legs, l.Timed)
    {i : Nat}
    (passed : checkOverlaps legs i = .ok ()) :
    legs.IsChain fun a b => a.overlaps b = false := by
  induction legs generalizing i with
  | nil => exact .nil
  | cons prev rest ih =>
      cases rest with
      | nil => exact .singleton prev
      | cons next rest =>
          rw [checkOverlaps, Leg.gt_times (timed prev (by simp)) (timed next (by simp))] at passed
          cases overlapping : prev.overlaps next with
          | true =>
              rw [overlapping] at passed
              cases passed
          | false =>
              rw [overlapping] at passed
              exact .cons_cons overlapping
                (ih (fun l member => timed l (List.mem_cons_of_mem prev member)) passed)

/-- Under a strict policy, timed legs that pass the time check and the order check each end
no later than the next one starts. A strict policy fails on the overlap the check reports. -/
theorem apart_of_checkOrderUnder
    {p : Policy}
    (timed : ∀ l ∈ legs, l.Timed)
    (timesPass : checkLegTimes legs = .ok ())
    (strict : p.strictOrdering.truthy = true)
    (passed : checkOrderUnder legs p = .ok ()) :
    legs.IsChain fun a b => a.overlaps b = false := by
  rcases checkOverlaps_scoring timed 0 with passes | ⟨j, fails⟩
  · exact apart_of_checkOverlaps timed passes
  · unfold checkOrderUnder at passed
    rw [checkLegOrder_of_times timesPass, fails] at passed
    simp only [strict, if_true] at passed
    cases passed

end OrderChecks

/-! ## Aggregation -/

section Aggregation

variable {legs before after : List Leg} {leg : Leg}

/-- The distance sum returns when every leg's distance converts to a double. -/
theorem totalMetres_returns
    (measured : ∀ l ∈ legs, ∃ metres, l.distance.toFloat = .ok metres) :
    ∃ total, Aggregate.totalMetres legs = .ok total := by
  unfold Aggregate.totalMetres
  refine foldlM_returns (fun ⟨l, i⟩ member gathered => ?_) 0.0
  obtain ⟨metres, converts⟩ := measured l (List.fst_mem_of_mem_zipIdx member)
  dsimp only
  split
  next missing =>
    rw [missing] at converts
    cases converts
  next =>
    rw [converts]
    exact ⟨_, rfl⟩

/-- The distance sum fails at the first leg without a distance. -/
theorem totalMetres_first_missing
    (split : legs = before ++ leg :: after)
    (missing : leg.distance = .null)
    (measuredBefore : ∀ l ∈ before, ∃ metres, l.distance.toFloat = .ok metres) :
    Aggregate.totalMetres legs = .error (.scoring (.distanceMissing before.length)) := by
  subst split
  unfold Aggregate.totalMetres
  rw [List.zipIdx_append, List.zipIdx_cons, Nat.zero_add]
  refine foldlM_eq_error ?_ ?_ 0.0
  · rintro ⟨l, i⟩ member gathered
    obtain ⟨metres, converts⟩ := measuredBefore l (List.fst_mem_of_mem_zipIdx member)
    dsimp only
    split
    next missing =>
      rw [missing] at converts
      cases converts
    next =>
      rw [converts]
      exact ⟨_, rfl⟩
  · intro gathered
    dsimp only
    rw [missing]
    rfl

/-- Aggregation fails at the first leg without a distance. -/
theorem ofLegs_first_missing
    (merge : Bool)
    (split : legs = before ++ leg :: after)
    (missing : leg.distance = .null)
    (measuredBefore : ∀ l ∈ before, ∃ metres, l.distance.toFloat = .ok metres) :
    Aggregate.ofLegs legs merge = .error (.scoring (.distanceMissing before.length)) := by
  have nonempty : legs ≠ [] := by simp [split]
  unfold Aggregate.ofLegs
  rw [List.head?_eq_some_head nonempty, List.getLast?_eq_some_getLast nonempty]
  dsimp only
  rw [totalMetres_first_missing split missing measuredBefore]
  rfl

/-- On timed legs whose distances convert to doubles, aggregation comes down to dividing the
span, from the first leg's start to the last leg's end, into minutes. -/
theorem ofLegs_eq_span
    (merge : Bool)
    (timed : ∀ l ∈ legs, l.Timed)
    (measured : ∀ l ∈ legs, ∃ metres, l.distance.toFloat = .ok metres)
    {first last : Leg}
    (heads : legs.head? = some first)
    (lasts : legs.getLast? = some last) :
    ∃ total, Aggregate.ofLegs legs merge =
      (Value.intQuotient (last.endMs - first.startMs) 60000).map fun minutes =>
        { routeDistanceKm := total / 1000.0, transferCount := Aggregate.interchanges merge legs,
          durationMinutes := minutes } := by
  obtain ⟨total, summed⟩ := totalMetres_returns measured
  refine ⟨total, ?_⟩
  unfold Aggregate.ofLegs
  rw [heads, lasts]
  dsimp only
  rw [summed, ok_bind, (timed last (List.mem_of_getLast? lasts)).2,
    (timed first (List.mem_of_mem_head? heads)).1, Value.sub_int, ok_bind, Value.div_int]
  generalize Value.intQuotient (last.endMs - first.startMs) 60000 = quotient
  cases quotient <;> rfl

/-- Legs whose distances convert to doubles and whose timestamps are below `2^999`
milliseconds in size aggregate, with the interchanges counted between consecutive legs. The span is
at most the sum of two timestamps, each below half of `2^1000`; the exponents stay symbolic, so that
no power is computed. -/
theorem ofLegs_returns
    (merge : Bool)
    (nonempty : legs ≠ [])
    (timed : ∀ l ∈ legs, l.Timed)
    (measured : ∀ l ∈ legs, ∃ metres, l.distance.toFloat = .ok metres)
    (moderate : ∀ l ∈ legs, l.startMs.natAbs < Nat.pow 2 999 ∧ l.endMs.natAbs < Nat.pow 2 999) :
    ∃ agg, Aggregate.ofLegs legs merge = .ok agg ∧
      agg.transferCount = Aggregate.interchanges merge legs := by
  have heads := List.head?_eq_some_head nonempty
  have lasts := List.getLast?_eq_some_getLast nonempty
  have span : ((legs.getLast nonempty).endMs - (legs.head nonempty).startMs).natAbs <
      Nat.pow 2 1000 := by
    have halves : ∀ k : Nat, ∀ a b : Int, a.natAbs < Nat.pow 2 k → b.natAbs < Nat.pow 2 k →
        (a - b).natAbs < Nat.pow 2 (k + 1) := fun k a b smallA smallB => by
      have within := Int.natAbs_sub_le a b
      show _ < 2 ^ (k + 1)
      rw [Nat.pow_succ]
      change _ < 2 ^ k at smallA smallB
      omega
    have lastSmall := (moderate _ (List.getLast_mem nonempty)).2
    have firstSmall := (moderate _ (List.head_mem nonempty)).1
    rw [show (1000 : Nat) = 999 + 1 from rfl]
    generalize 999 = k at lastSmall firstSmall ⊢
    exact halves k _ _ lastSmall firstSmall
  obtain ⟨minutes, divided⟩ := Value.intQuotient_ok span (by decide : (60000 : Int) ≠ 0)
  obtain ⟨total, spanned⟩ := ofLegs_eq_span merge timed measured heads lasts
  rw [spanned, divided]
  exact ⟨_, rfl, rfl⟩

/-- Aggregation fails as dividing the span of the legs into minutes does. -/
theorem ofLegs_span_fault
    (merge : Bool)
    (timed : ∀ l ∈ legs, l.Timed)
    (measured : ∀ l ∈ legs, ∃ metres, l.distance.toFloat = .ok metres)
    {first last : Leg}
    (heads : legs.head? = some first)
    (lasts : legs.getLast? = some last)
    {fault : Fault}
    (faulty : Value.intQuotient (last.endMs - first.startMs) 60000 = .error fault) :
    Aggregate.ofLegs legs merge = .error fault := by
  obtain ⟨total, spanned⟩ := ofLegs_eq_span merge timed measured heads lasts
  rw [spanned, faulty]
  rfl

end Aggregation

/-! ## Detour ratio and penalty -/

/-- The detour ratio of two doubles is a double: the route is divided by the straight line
only when that is above zero, so never by zero. A straight line equal to zero, of either sign,
compares as at most zero. -/
theorem detourRatio_float
    (route straight : Float) :
    ∃ ratio, detourRatio (.float route) (.float straight) = .ok (.float ratio) := by
  obtain ⟨atMostZero, compared⟩ : ∃ answer,
      Value.compareWith .le (.float straight) (.int 0) = .ok answer :=
    ⟨_, Value.compareWith_num .le rfl rfl⟩
  unfold detourRatio
  rw [compared, ok_bind]
  cases atMostZero with
  | true => exact ⟨1.0, rfl⟩
  | false =>
      have nonzero : (straight == 0.0) = false := by
        cases zero : straight == 0.0 with
        | false => rfl
        | true =>
            rw [Value.compareWith_le_zero zero] at compared
            cases compared
      have divided : Value.div (.float route) (.float straight) =
          .ok (.float (route / straight)) := by
        show (if straight == 0.0 then throw _ else pure _) = _
        rw [nonzero]
        rfl
      obtain ⟨ratio, larger⟩ := Value.max2_float 1.0 (route / straight)
      refine ⟨ratio, ?_⟩
      simp only [Bool.not_false, if_true]
      rw [divided, ok_bind, larger]

/-- The weights of the score are doubles, as the policy declares them. -/
def Policy.FloatWeights
    (p : Policy) :
    Prop :=
  (∃ weight, p.detourWeight = .float weight) ∧ (∃ threshold, p.detourThreshold = .float threshold) ∧
    ∃ penalty, p.perTransferPenalty = .float penalty

/-- With double weights, the detour penalty of a double ratio over a double duration is a
double. -/
theorem detourPenalty_float
    {p : Policy}
    (weights : p.FloatWeights)
    (ratio duration : Float) :
    ∃ penalty, detourPenalty (.float ratio) (.float duration) p = .ok (.float penalty) := by
  obtain ⟨⟨weight, weighted⟩, ⟨threshold, thresholded⟩, -⟩ := weights
  obtain ⟨excess, capped⟩ := Value.max2_float 0.0 (ratio - threshold)
  unfold detourPenalty
  rw [thresholded, weighted, Value.sub_float, ok_bind, capped, ok_bind, Value.mul_float, ok_bind,
    Value.mul_float]
  exact ⟨_, rfl⟩

/-! ## Endpoints and corridor keys -/

/-- The distance between endpoints fails as soon as the origin does. -/
theorem Coordinates.distanceOf_origin
    {origin destination : Value}
    {fault : Fault}
    (faulty : Coordinates.ofValue origin = .error fault) :
    Coordinates.distanceOf origin destination = .error fault := by
  unfold Coordinates.distanceOf
  rw [faulty]
  rfl

/-- With a valid origin, the distance between endpoints fails as the destination does. -/
theorem Coordinates.distanceOf_destination
    {origin destination : Value}
    {o : Coordinates}
    {fault : Fault}
    (valid : Coordinates.ofValue origin = .ok o)
    (faulty : Coordinates.ofValue destination = .error fault) :
    Coordinates.distanceOf origin destination = .error fault := by
  unfold Coordinates.distanceOf
  rw [valid, ok_bind, faulty]
  rfl

/-- Joining values that are all texts returns. -/
theorem joinTexts_returns
    (sep : Text)
    {items : List Value}
    (texts : ∀ v ∈ items, ∃ t, v = .str t) :
    ∃ joined, joinTexts sep items = .ok joined := by
  unfold joinTexts
  refine bind_returns (mapM_returns fun ⟨v, i⟩ member => ?_) fun parts => ⟨_, rfl⟩
  obtain ⟨t, rfl⟩ := texts v (List.fst_mem_of_mem_zipIdx member)
  exact ⟨t, rfl⟩

namespace Itinerary

/-- The corridor key can be derived: every route id is a text or falsy, and every interchange
is named by a text. -/
def Keyed
    (it : Itinerary) :
    Prop :=
  (∀ leg ∈ it.legs, leg.routeId.truthy → ∃ t, leg.routeId = .str t) ∧
    ∀ leg ∈ it.legs.dropLast, ∃ t, leg.destination.name = .str t

/-- An itinerary whose route ids and interchange names are texts has a corridor key. A falsy route
id stands as `Unknown`. -/
theorem corridorKey_returns
    {it : Itinerary}
    (keyed : it.Keyed) :
    ∃ key, it.corridorKey = .ok key := by
  obtain ⟨routes, names⟩ := keyed
  have routeTexts : ∀ v ∈ it.legs.map (fun leg => leg.routeId.orElse (.str "Unknown")),
      ∃ t, v = .str t := by
    simp only [List.mem_map]
    rintro v ⟨leg, member, rfl⟩
    unfold Value.orElse
    split
    next truthy => exact routes leg member truthy
    next => exact ⟨_, rfl⟩
  have stationTexts : ∀ v ∈ it.legs.dropLast.map (·.destination.name), ∃ t, v = .str t := by
    simp only [List.mem_map]
    rintro v ⟨leg, member, rfl⟩
    exact names leg member
  unfold corridorKey
  refine bind_returns (joinTexts_returns "," routeTexts) fun routes => ?_
  split
  · exact ⟨_, rfl⟩
  · exact bind_returns (joinTexts_returns "," stationTexts) fun stations => ⟨_, rfl⟩

end Itinerary

end CorridorRank
