import CorridorRank.Proofs.Doubles.Conversion
import CorridorRank.Proofs.Scoring.Validation
import CorridorRank.Proofs.Scoring.Aggregation

/-!
# Bounds and monotonicity of scores

A score is the duration, plus the detour penalty, plus the interchange penalty, each penalty
a product of doubles and the total a sum of doubles. Each operation of doubles rounds the exact
result once, and rounding keeps order; so the score inherits the order of its terms wherever
its products and sums are numbers, and products only of factors at least zero.

The factors are at least zero once the duration is: the excess ratio is never below zero by
construction, and validation keeps the detour weight and the penalty per interchange from
being below zero. Under a strict policy, or on legs in chronological order, the duration is at
least zero. Then a score that is a number has penalties at least zero and is at least its
duration (`scoreItinerary_score_bounds`), and it grows with the detour weight, the penalty per
interchange, a lower threshold, less merging of legs on one trip and longer legs
(`scoreItinerary_monotone`). Changing only the penalty per interchange changes only the
interchange penalty and the total, each the exact result rounded once.

Neither holds without its conditions. A lenient policy scores legs that come out of order
with a duration, and a score, below zero (`scoreItinerary_backward_legs_below_zero`); and
validation accepts an infinite detour weight, under which an itinerary with no detour scores
not-a-number (`scoreItinerary_infinite_weight_nan`).
-/

namespace CorridorRank

open Traversal Binary64

/-! ## The detour ratio -/

/-- Over one straight line, the detour ratio grows with the route. -/
theorem detourRatio_le_detourRatio
    {route route' straight ratio ratio' : Float}
    (longer : route ≤ route')
    (run : detourRatio (.float route) (.float straight) = .ok (.float ratio))
    (run' : detourRatio (.float route') (.float straight) = .ok (.float ratio')) :
    ratio ≤ ratio' := by
  rw [detourRatio_eq] at run run'
  cases run
  cases run'
  split
  · next above =>
      obtain ⟨positive, overOne⟩ := above
      have grows := div_le_div_of_one_lt longer positive overOne
      rw [if_pos ⟨positive, float_lt_of_lt_of_le overOne grows⟩]
      exact grows
  · exact one_le_ratio

/-! ## The excess ratio -/

theorem zero_le_excessRatio
    (ratio threshold : Float) :
    0.0 ≤ excessRatio ratio threshold := by
  unfold excessRatio
  split
  · next positive => exact float_le_of_lt positive
  · decide

/-- The excess ratio grows with the ratio and shrinks with the threshold: a difference above
zero stays above zero when its first term grows and its second shrinks. -/
theorem excessRatio_le_excessRatio
    {ratio ratio' threshold threshold' : Float}
    (larger : ratio ≤ ratio')
    (lower : threshold' ≤ threshold) :
    excessRatio ratio threshold ≤ excessRatio ratio' threshold' := by
  unfold excessRatio
  split
  · next positive =>
      have number : (ratio - threshold).isNaN = false :=
        Bool.eq_false_iff.mpr fun nan => not_lt_of_isNaN_right nan positive
      have grows := float_sub_le_sub larger lower number (number_sub_of_le larger lower positive)
      rw [if_pos (float_lt_of_lt_of_le positive grows)]
      exact grows
  · exact zero_le_excessRatio ratio' threshold'

/-- Over one threshold, the excess ratio grows with the ratio. -/
theorem excessRatio_le_of_le
    {ratio ratio' : Float}
    (larger : ratio ≤ ratio')
    (threshold : Float) :
    excessRatio ratio threshold ≤ excessRatio ratio' threshold := by
  by_cases positive : 0.0 < ratio - threshold
  · have number : (ratio - threshold).isNaN = false :=
      Bool.eq_false_iff.mpr fun nan => not_lt_of_isNaN_right nan positive
    exact excessRatio_le_excessRatio larger (float_le_refl (numbers_of_sub number).2)
  · rw [show excessRatio ratio threshold = 0.0 from if_neg positive]
    exact zero_le_excessRatio ratio' threshold

/-! ## The terms of a score -/

namespace CorridorScore.WeighedBy

variable {s t : CorridorScore} {p q : Policy} {w θ c w' θ' c' : Float}

/-- The terms of a score that is a number are numbers: the duration plus the detour penalty,
the detour penalty and the interchange penalty. -/
theorem numbers_of_score
    (weighed : s.WeighedBy p)
    (number : s.score.isNaN = false) :
    (s.durationMinutes + s.detourPenalty).isNaN = false ∧ s.detourPenalty.isNaN = false ∧
      s.transferPenalty.isNaN = false := by
  rw [weighed.total] at number
  obtain ⟨subtotal, transferNumber⟩ := numbers_of_add number
  exact ⟨subtotal, (numbers_of_add subtotal).2, transferNumber⟩

/-- A detour penalty that is a number is at least zero when the duration and the detour weight
are. -/
theorem zero_le_detourPenalty
    (weighed : s.WeighedBy p)
    (weight : p.detourWeight = .float w)
    (threshold : p.detourThreshold = .float θ)
    (nonnegWeight : 0.0 ≤ w)
    (nonnegDuration : 0.0 ≤ s.durationMinutes)
    (number : s.detourPenalty.isNaN = false) :
    0.0 ≤ s.detourPenalty := by
  rw [weighed.detourPenalty_eq_excess weight threshold] at number ⊢
  exact float_mul_nonneg (float_mul_nonneg (zero_le_excessRatio _ _) nonnegDuration
    (numbers_of_mul number).1) nonnegWeight number

/-- An interchange penalty that is a number is at least zero when the penalty per interchange
is. -/
theorem zero_le_transferPenalty
    (weighed : s.WeighedBy p)
    (penalty : p.perTransferPenalty = .float c)
    (nonnegPenalty : 0.0 ≤ c)
    (number : s.transferPenalty.isNaN = false) :
    0.0 ≤ s.transferPenalty := by
  obtain ⟨x, converts, transfer⟩ := weighed.transferPenalty_eq_count penalty
  rw [transfer] at number ⊢
  exact float_mul_nonneg (zero_le_ofInt_natCast converts) nonnegPenalty number

/-- A score that is a number is at least its duration when both penalties are at least
zero. -/
theorem durationMinutes_le_score
    (weighed : s.WeighedBy p)
    (nonnegDetour : 0.0 ≤ s.detourPenalty)
    (nonnegTransfer : 0.0 ≤ s.transferPenalty)
    (number : s.score.isNaN = false) :
    s.durationMinutes ≤ s.score := by
  obtain ⟨subtotal, -, -⟩ := weighed.numbers_of_score number
  rw [weighed.total] at number ⊢
  exact float_le_trans (float_le_add_of_nonneg nonnegDetour subtotal)
    (float_le_add_of_nonneg nonnegTransfer number)

/-- Of two detour penalties of one duration at least zero, the one of the larger excess ratio
and the heavier weight is the larger, where both are numbers. -/
theorem detourPenalty_le
    (weighedP : s.WeighedBy p)
    (weighedQ : t.WeighedBy q)
    (weightP : p.detourWeight = .float w)
    (thresholdP : p.detourThreshold = .float θ)
    (weightQ : q.detourWeight = .float w')
    (thresholdQ : q.detourThreshold = .float θ')
    (duration : t.durationMinutes = s.durationMinutes)
    (nonnegDuration : 0.0 ≤ s.durationMinutes)
    (excess : excessRatio s.detourRatio θ ≤ excessRatio t.detourRatio θ')
    (heavier : w ≤ w')
    (nonnegWeight : 0.0 ≤ w)
    (number : s.detourPenalty.isNaN = false)
    (number' : t.detourPenalty.isNaN = false) :
    s.detourPenalty ≤ t.detourPenalty := by
  rw [weighedP.detourPenalty_eq_excess weightP thresholdP] at number ⊢
  rw [weighedQ.detourPenalty_eq_excess weightQ thresholdQ, duration] at number' ⊢
  have product := (numbers_of_mul number).1
  have products := float_mul_le_mul (zero_le_excessRatio _ _) nonnegDuration excess
    (float_le_refl (number_of_le_right nonnegDuration)) product (numbers_of_mul number').1
  exact float_mul_le_mul (float_mul_nonneg (zero_le_excessRatio _ _) nonnegDuration product)
    nonnegWeight products heavier number number'

/-- Of two interchange penalties, the one of more interchanges and the heavier penalty per
interchange is the larger, where both are numbers. -/
theorem transferPenalty_le
    (weighedP : s.WeighedBy p)
    (weighedQ : t.WeighedBy q)
    (penaltyP : p.perTransferPenalty = .float c)
    (penaltyQ : q.perTransferPenalty = .float c')
    (count : s.transferCount ≤ t.transferCount)
    (heavier : c ≤ c')
    (nonnegPenalty : 0.0 ≤ c)
    (number : s.transferPenalty.isNaN = false)
    (number' : t.transferPenalty.isNaN = false) :
    s.transferPenalty ≤ t.transferPenalty := by
  obtain ⟨x, converts, transfer⟩ := weighedP.transferPenalty_eq_count penaltyP
  obtain ⟨x', converts', transfer'⟩ := weighedQ.transferPenalty_eq_count penaltyQ
  rw [transfer] at number ⊢
  rw [transfer'] at number' ⊢
  exact float_mul_le_mul (zero_le_ofInt_natCast converts) nonnegPenalty
    (ofInt_le_ofInt (by exact_mod_cast count) converts converts') heavier number number'

/-- Of two scores of one duration at least zero, the one of the larger excess ratio, more
interchanges and heavier weights is the larger, where both are numbers. -/
theorem score_le
    (weighedP : s.WeighedBy p)
    (weighedQ : t.WeighedBy q)
    (weightP : p.detourWeight = .float w)
    (thresholdP : p.detourThreshold = .float θ)
    (penaltyP : p.perTransferPenalty = .float c)
    (weightQ : q.detourWeight = .float w')
    (thresholdQ : q.detourThreshold = .float θ')
    (penaltyQ : q.perTransferPenalty = .float c')
    (duration : t.durationMinutes = s.durationMinutes)
    (nonnegDuration : 0.0 ≤ s.durationMinutes)
    (excess : excessRatio s.detourRatio θ ≤ excessRatio t.detourRatio θ')
    (count : s.transferCount ≤ t.transferCount)
    (heavierWeight : w ≤ w')
    (heavierPenalty : c ≤ c')
    (nonnegWeight : 0.0 ≤ w)
    (nonnegPenalty : 0.0 ≤ c)
    (number : s.score.isNaN = false)
    (number' : t.score.isNaN = false) :
    s.score ≤ t.score := by
  obtain ⟨subtotal, detourNumber, transferNumber⟩ := weighedP.numbers_of_score number
  obtain ⟨subtotal', detourNumber', transferNumber'⟩ := weighedQ.numbers_of_score number'
  rw [weighedP.total] at number ⊢
  rw [weighedQ.total, duration] at number' ⊢
  rw [duration] at subtotal'
  have detour := weighedP.detourPenalty_le weighedQ weightP thresholdP weightQ thresholdQ duration
    nonnegDuration excess heavierWeight nonnegWeight detourNumber detourNumber'
  have transfer := weighedP.transferPenalty_le weighedQ penaltyP penaltyQ count heavierPenalty
    nonnegPenalty transferNumber transferNumber'
  exact float_add_le_add
    (float_add_le_add (float_le_refl (number_of_le_right nonnegDuration)) detour subtotal subtotal')
    transfer number number'

/-- Under a validated policy, a score that is a number has weights at least zero: its
penalties are numbers, so each weight is a number, and validation found it not below zero. -/
theorem zero_le_weights
    (weighed : s.WeighedBy p)
    (weight : p.detourWeight = .float w)
    (threshold : p.detourThreshold = .float θ)
    (penalty : p.perTransferPenalty = .float c)
    (valid : p.validate = .ok ())
    (number : s.score.isNaN = false) :
    0.0 ≤ w ∧ 0.0 ≤ c := by
  obtain ⟨weightNotBelow, -, penaltyNotBelow, -⟩ := p.validate_eq_ok_iff.mp valid
  obtain ⟨-, detourNumber, transferNumber⟩ := weighed.numbers_of_score number
  rw [weighed.detourPenalty_eq_excess weight threshold] at detourNumber
  obtain ⟨x, -, transfer⟩ := weighed.transferPenalty_eq_count penalty
  rw [transfer] at transferNumber
  rw [weight] at weightNotBelow
  rw [penalty] at penaltyNotBelow
  exact ⟨zero_le_of_not_lt_int (numbers_of_mul detourNumber).2 weightNotBelow,
    zero_le_of_not_lt_int (numbers_of_mul transferNumber).2 penaltyNotBelow⟩

end CorridorScore.WeighedBy

/-! ## The terms of a finite score in rationals -/

/-- The interchange penalty and the total of a finite score under a penalty per interchange
`c`, in rationals: the interchanges rounded to a double, times the penalty, rounded once; and
the duration plus the detour penalty, plus the interchange penalty, rounded once. -/
structure CorridorScore.RoundedTerms (s : CorridorScore) (c : Float) : Prop where
  transfer : toRat s.transferPenalty = nearest (nearest s.transferCount * toRat c)
  total : toRat s.score =
    nearest (toRat (s.durationMinutes + s.detourPenalty) + toRat s.transferPenalty)

/-- A finite score weighed by a double penalty per interchange has its terms rounded once
each. -/
theorem CorridorScore.WeighedBy.roundedTerms
    {s : CorridorScore}
    {p : Policy}
    {c : Float}
    (weighed : s.WeighedBy p)
    (penalty : p.perTransferPenalty = .float c)
    (finite : s.score.isFinite = true) :
    s.RoundedTerms c := by
  rw [weighed.total] at finite
  obtain ⟨-, transferFinite, total⟩ := toRat_add finite
  obtain ⟨x, converts, transfer⟩ := weighed.transferPenalty_eq_count penalty
  rw [transfer] at transferFinite
  obtain ⟨-, -, product⟩ := toRat_mul transferFinite
  refine ⟨?_, ?_⟩
  · rw [transfer, product, toRat_ofInt converts, Int.cast_natCast]
  · rw [weighed.total]
    exact total

/-- Two finite scores with one duration, detour penalty and count of interchanges, under
penalties per interchange `c` and `c'`: when the interchanges, their products with the
penalties and the sums with the rest are all doubles, so that nothing rounds, the interchange
penalties and the totals differ by the interchanges times `c' - c`. -/
theorem CorridorScore.RoundedTerms.sub_eq
    {s t : CorridorScore}
    {c c' : Float}
    (terms : s.RoundedTerms c)
    (terms' : t.RoundedTerms c')
    (count : t.transferCount = s.transferCount)
    (rest : t.durationMinutes + t.detourPenalty = s.durationMinutes + s.detourPenalty)
    (exact : ∀ q ∈ [(s.transferCount : ℚ), s.transferCount * toRat c,
      s.transferCount * toRat c',
      toRat (s.durationMinutes + s.detourPenalty) + s.transferCount * toRat c,
      toRat (s.durationMinutes + s.detourPenalty) + s.transferCount * toRat c'], nearest q = q) :
    toRat t.transferPenalty - toRat s.transferPenalty = s.transferCount * (toRat c' - toRat c) ∧
      toRat t.score - toRat s.score = s.transferCount * (toRat c' - toRat c) := by
  simp only [List.mem_cons, List.not_mem_nil, or_false, forall_eq_or_imp, forall_eq] at exact
  obtain ⟨countExact, productExact, productExact', sumExact, sumExact'⟩ := exact
  have transfer : toRat s.transferPenalty = s.transferCount * toRat c := by
    rw [terms.transfer, countExact, productExact]
  have transfer' : toRat t.transferPenalty = s.transferCount * toRat c' := by
    rw [terms'.transfer, count, countExact, productExact']
  have total : toRat s.score =
      toRat (s.durationMinutes + s.detourPenalty) + s.transferCount * toRat c := by
    rw [terms.total, transfer, sumExact]
  have total' : toRat t.score =
      toRat (s.durationMinutes + s.detourPenalty) + s.transferCount * toRat c' := by
    rw [terms'.total, rest, transfer', sumExact']
  constructor
  · rw [transfer, transfer']
    ring
  · rw [total, total']
    ring

/-! ## Scores of one itinerary -/

/-- Merging legs on one trip under one policy whenever another does leaves no more
interchanges. -/
theorem interchanges_le_of_merges
    {merge merge' : Bool}
    (fewer : merge' = true → merge = true)
    (legs : List Leg) :
    Aggregate.interchanges merge legs ≤ Aggregate.interchanges merge' legs := by
  cases merge <;> cases merge'
  · exact le_rfl
  · exact absurd (fewer rfl) Bool.false_ne_true
  · exact interchanges_merged_le legs
  · exact le_rfl

/-- Two scores of one itinerary between the same endpoints share the duration and the detour
ratio, whatever the policies; each counts the interchanges as its own policy merges legs. -/
theorem scoreItinerary_duration_ratio_eq
    {it : Itinerary}
    {origin destination : Value}
    {corridor : Option Value}
    {p q : Policy}
    {s t : CorridorScore}
    (timed : ∀ leg ∈ it.legs, leg.Timed)
    (underP : scoreItinerary it origin destination corridor p = .ok s)
    (underQ : scoreItinerary it origin destination corridor q = .ok t) :
    t.durationMinutes = s.durationMinutes ∧ t.detourRatio = s.detourRatio ∧
      s.transferCount = Aggregate.interchanges p.mergeSameTrip.truthy it.legs ∧
      t.transferCount = Aggregate.interchanges q.mergeSameTrip.truthy it.legs := by
  obtain ⟨-, -, aggP, aggregatedP, durationP, routeP, countP, measuredP, ratioP, -⟩ :=
    scoreItinerary_ok_parts underP
  obtain ⟨-, -, aggQ, aggregatedQ, durationQ, routeQ, countQ, measuredQ, ratioQ, -⟩ :=
    scoreItinerary_ok_parts underQ
  obtain ⟨first, last, metres, heads, lasts, summed, spanP, kmP, interchangesP⟩ :=
    ofLegs_ok_eq timed aggregatedP
  obtain ⟨first', last', metres', heads', lasts', summed', spanQ, kmQ, interchangesQ⟩ :=
    ofLegs_ok_eq timed aggregatedQ
  obtain rfl := Option.some.inj (heads'.symm.trans heads)
  obtain rfl := Option.some.inj (lasts'.symm.trans lasts)
  obtain rfl := Except.ok.inj (summed'.symm.trans summed)
  have straight : t.straightLineKm = s.straightLineKm :=
    Except.ok.inj (measuredQ.symm.trans measuredP)
  rw [kmQ, ← kmP, straight, ratioP] at ratioQ
  refine ⟨?_, (Value.float.inj (Except.ok.inj ratioQ)).symm, countP.trans interchangesP,
    countQ.trans interchangesQ⟩
  rw [durationP, durationQ]
  exact Except.ok.inj (spanQ.symm.trans spanP)

/-! ## Longer legs -/

/-- A leg no longer than another: the same leg but for its distance, both distances converting
to finite doubles, the first at most the second. -/
structure Leg.NoLongerThan (leg leg' : Leg) : Prop where
  same : { leg' with distance := leg.distance } = leg
  distances : ∃ metres metres', leg.distance.toFloat = .ok metres ∧
    leg'.distance.toFloat = .ok metres' ∧ metres.isFinite = true ∧ metres'.isFinite = true ∧
    metres ≤ metres'

namespace Leg.NoLongerThan

variable {leg leg' : Leg}

theorem startTime
    (longer : leg.NoLongerThan leg') :
    leg'.startTime = leg.startTime := by
  have same := congrArg Leg.startTime longer.same
  exact same

theorem endTime
    (longer : leg.NoLongerThan leg') :
    leg'.endTime = leg.endTime := by
  have same := congrArg Leg.endTime longer.same
  exact same

theorem tripId
    (longer : leg.NoLongerThan leg') :
    leg'.tripId = leg.tripId := by
  have same := congrArg Leg.tripId longer.same
  exact same

theorem startMs
    (longer : leg.NoLongerThan leg') :
    leg'.startMs = leg.startMs := by
  rw [Leg.startMs, Leg.startMs, longer.startTime]

theorem endMs
    (longer : leg.NoLongerThan leg') :
    leg'.endMs = leg.endMs := by
  rw [Leg.endMs, Leg.endMs, longer.endTime]

theorem timed
    (longer : leg.NoLongerThan leg')
    (timed : leg.Timed) :
    leg'.Timed := by
  rw [Leg.Timed, longer.startTime, longer.endTime, longer.startMs, longer.endMs]
  exact timed

end Leg.NoLongerThan

/-- Lists related item by item have related first items. -/
theorem forall₂_head?
    {α β : Type}
    {R : α → β → Prop}
    {xs : List α}
    {ys : List β}
    (related : List.Forall₂ R xs ys)
    {x : α}
    {y : β}
    (heads : xs.head? = some x)
    (heads' : ys.head? = some y) :
    R x y := by
  cases related with
  | nil => cases heads
  | cons first _ =>
      cases heads
      cases heads'
      exact first

/-- Lists related item by item have related last items. -/
theorem forall₂_getLast?
    {α β : Type}
    {R : α → β → Prop}
    {xs : List α}
    {ys : List β}
    (related : List.Forall₂ R xs ys)
    {x : α}
    {y : β}
    (lasts : xs.getLast? = some x)
    (lasts' : ys.getLast? = some y) :
    R x y := by
  rw [List.getLast?_eq_head?_reverse] at lasts lasts'
  exact forall₂_head? (List.forall₂_reverse_iff.mpr related) lasts lasts'

theorem timed_of_noLongerThan
    {legs legs' : List Leg}
    (longer : List.Forall₂ Leg.NoLongerThan legs legs')
    (timed : ∀ leg ∈ legs, leg.Timed) :
    ∀ leg ∈ legs', leg.Timed := by
  induction longer with
  | nil => exact fun _ member => absurd member List.not_mem_nil
  | @cons leg leg' rest rest' noLonger _ ih =>
      intro other member
      rcases List.mem_cons.mp member with rfl | later
      · exact noLonger.timed (timed leg List.mem_cons_self)
      · exact ih (fun l inRest => timed l (List.mem_cons_of_mem leg inRest)) other later

/-- The interchanges read of the legs only their trips. -/
theorem interchanges_congr
    {merge : Bool}
    {legs legs' : List Leg}
    (sameTrips : List.Forall₂ (fun leg leg' => leg'.tripId = leg.tripId) legs legs') :
    Aggregate.interchanges merge legs' = Aggregate.interchanges merge legs := by
  induction sameTrips with
  | nil => rfl
  | @cons prev prev' rest rest' samePrev sameRest ih =>
      cases sameRest with
      | nil => rfl
      | @cons next next' more more' sameNext _ =>
          rw [Aggregate.interchanges, Aggregate.interchanges, ih, Aggregate.isInterchange,
            Aggregate.isInterchange, samePrev, sameNext]

/-- Sums of finite doubles, added in order, keep the order of their summands one for one. -/
theorem foldl_add_le
    {xs ys : List Float}
    (smaller : List.Forall₂ (fun x y => x.isFinite = true ∧ y.isFinite = true ∧ x ≤ y) xs ys)
    {a b : Float}
    (start : a ≤ b) :
    xs.foldl (· + ·) a ≤ ys.foldl (· + ·) b := by
  induction smaller generalizing a b with
  | nil => exact start
  | @cons x y xs ys bounded _ ih =>
      obtain ⟨finite, finite', le⟩ := bounded
      exact ih (float_add_le_add start le
        (number_add_of_isFinite (number_of_le_left start) finite)
        (number_add_of_isFinite (number_of_le_right start) finite'))

/-- Legs no longer than others, one for one, have distances that convert to finite doubles, no
larger one for one. -/
theorem distances_of_noLongerThan
    {legs legs' : List Leg}
    (longer : List.Forall₂ Leg.NoLongerThan legs legs') :
    ∃ xs ys, List.Forall₂ (fun leg m => leg.distance.toFloat = .ok m) legs xs ∧
      List.Forall₂ (fun leg m => leg.distance.toFloat = .ok m) legs' ys ∧
      List.Forall₂ (fun x y => x.isFinite = true ∧ y.isFinite = true ∧ x ≤ y) xs ys := by
  induction longer with
  | nil => exact ⟨[], [], .nil, .nil, .nil⟩
  | cons noLonger _ ih =>
      obtain ⟨xs, ys, converted, converted', bounded⟩ := ih
      obtain ⟨x, y, converts, converts', finite, finite', le⟩ := noLonger.distances
      exact ⟨x :: xs, y :: ys, .cons converts converted, .cons converts' converted',
        .cons ⟨finite, finite', le⟩ bounded⟩

/-- Legs no longer than others, one for one, sum to no more metres. -/
theorem totalMetres_le
    {legs legs' : List Leg}
    (longer : List.Forall₂ Leg.NoLongerThan legs legs')
    {metres metres' : Float}
    (measured : Aggregate.totalMetres legs = .ok metres)
    (measured' : Aggregate.totalMetres legs' = .ok metres') :
    metres ≤ metres' := by
  obtain ⟨xs, ys, converted, converted', bounded⟩ := distances_of_noLongerThan longer
  rw [totalMetres_eq_foldl ((mapM_eq_ok_iff _ _ _).mpr converted)] at measured
  rw [totalMetres_eq_foldl ((mapM_eq_ok_iff _ _ _).mpr converted')] at measured'
  cases measured
  cases measured'
  exact foldl_add_le bounded (by decide)

/-- Scores of legs no longer than others, one for one, between the same endpoints under one
policy: the same duration and interchanges, and a detour ratio no larger. -/
theorem scoreItinerary_noLongerThan
    {it it' : Itinerary}
    {origin destination : Value}
    {corridor : Option Value}
    {p : Policy}
    {s t : CorridorScore}
    (timed : ∀ leg ∈ it.legs, leg.Timed)
    (longer : List.Forall₂ Leg.NoLongerThan it.legs it'.legs)
    (run : scoreItinerary it origin destination corridor p = .ok s)
    (run' : scoreItinerary it' origin destination corridor p = .ok t) :
    t.durationMinutes = s.durationMinutes ∧ s.detourRatio ≤ t.detourRatio ∧
      t.transferCount = s.transferCount := by
  obtain ⟨-, -, agg, aggregated, duration, route, count, measured, ratio, -⟩ :=
    scoreItinerary_ok_parts run
  obtain ⟨-, -, agg', aggregated', duration', route', count', measured', ratio', -⟩ :=
    scoreItinerary_ok_parts run'
  obtain ⟨first, last, metres, heads, lasts, summed, span, km, interchanges⟩ :=
    ofLegs_ok_eq timed aggregated
  obtain ⟨first', last', metres', heads', lasts', summed', span', km', interchanges'⟩ :=
    ofLegs_ok_eq (timed_of_noLongerThan longer timed) aggregated'
  have straight : t.straightLineKm = s.straightLineKm :=
    Except.ok.inj (measured'.symm.trans measured)
  have metresLe := totalMetres_le longer summed summed'
  have kmLe : agg.routeDistanceKm ≤ agg'.routeDistanceKm := by
    rw [km, km']
    exact float_div_le_div_right metresLe (by decide)
      (number_div_of_positive (number_of_le_left metresLe) (by decide) rfl)
      (number_div_of_positive (number_of_le_right metresLe) (by decide) rfl)
  rw [straight] at ratio'
  rw [(forall₂_head? longer heads heads').startMs, (forall₂_getLast? longer lasts lasts').endMs]
    at span'
  refine ⟨?_, detourRatio_le_detourRatio kmLe ratio ratio', ?_⟩
  · rw [duration, duration']
    exact Except.ok.inj (span'.symm.trans span)
  · rw [count, count', interchanges, interchanges',
      interchanges_congr (List.Forall₂.imp (fun _ _ noLonger => noLonger.tripId) longer)]

/-! ## Bounds of a score -/

/-- A score that is a number, of legs timed in whole milliseconds, under a validated policy of
double weights that is strict or on legs each ending no later than the next one starts: its
duration and both penalties are at least zero, its detour ratio at least one, and it is at
least its duration. -/
theorem scoreItinerary_score_bounds
    (it : Itinerary)
    (origin destination : Value)
    (corridor : Option Value)
    (p : Policy)
    {w θ c : Float}
    (timed : ∀ leg ∈ it.legs, leg.Timed)
    (weight : p.detourWeight = .float w)
    (threshold : p.detourThreshold = .float θ)
    (penalty : p.perTransferPenalty = .float c)
    (valid : p.validate = .ok ())
    (ordered : p.strictOrdering.truthy = true ∨
      it.legs.IsChain fun a b => a.overlaps b = false)
    {score : CorridorScore}
    (run : scoreItinerary it origin destination corridor p = .ok score)
    (number : score.score.isNaN = false) :
    0.0 ≤ score.durationMinutes ∧ 1.0 ≤ score.detourRatio ∧ 0.0 ≤ score.detourPenalty ∧
      0.0 ≤ score.transferPenalty ∧ score.durationMinutes ≤ score.score := by
  have weighed := scoreItinerary_weighedBy run
  obtain ⟨-, forward, oneLe⟩ :=
    scoreItinerary_duration_ratio_bounds it origin destination corridor p timed run
  obtain ⟨-, detourNumber, transferNumber⟩ := weighed.numbers_of_score number
  obtain ⟨nonnegWeight, nonnegPenalty⟩ :=
    weighed.zero_le_weights weight threshold penalty valid number
  have detour :=
    weighed.zero_le_detourPenalty weight threshold nonnegWeight (forward ordered) detourNumber
  have transfer := weighed.zero_le_transferPenalty penalty nonnegPenalty transferNumber
  exact ⟨forward ordered, oneLe, detour, transfer,
    weighed.durationMinutes_le_score detour transfer number⟩

/-- An hour-long rail leg of 40 km between two equal points, under the default policy: its
score is a number, its duration and penalties are at least zero, its ratio is at least one, and
the score is at least the duration. -/
theorem scoreItinerary_hour_leg_bounds :
    ∃ score, scoreItinerary
      ⟨[⟨.rail, ⟨.str "Paddington", .null⟩, ⟨.str "Reading", .null⟩, .int 0,
        .int 3600000, .int 40000, .null, .null⟩], .int 0, .int 3600000, .null, .null⟩
      (.list [.int 51, .int 0]) (.list [.int 51, .int 0]) none {} = .ok score ∧
      0.0 ≤ score.durationMinutes ∧ 1.0 ≤ score.detourRatio ∧ 0.0 ≤ score.detourPenalty ∧
      0.0 ≤ score.transferPenalty ∧ score.durationMinutes ≤ score.score := by
  obtain ⟨score, run, number⟩ : ∃ score, scoreItinerary
      ⟨[⟨.rail, ⟨.str "Paddington", .null⟩, ⟨.str "Reading", .null⟩, .int 0,
        .int 3600000, .int 40000, .null, .null⟩], .int 0, .int 3600000, .null, .null⟩
      (.list [.int 51, .int 0]) (.list [.int 51, .int 0]) none {} = .ok score ∧
      score.score.isNaN = false :=
    exists_ok_of_any (by decide +kernel)
  obtain ⟨⟨⟩, valid⟩ : ∃ u, ({} : Policy).validate = .ok u :=
    exists_ok_of_isOk (by decide +kernel)
  exact ⟨score, run, scoreItinerary_score_bounds _ _ _ _ _
    (by exact fun l member => List.mem_singleton.mp member ▸ And.intro rfl rfl) rfl rfl rfl valid
    (Or.inr (.singleton _)) run number⟩

/-- Two legs of one trip, each running forward but the second ending before the first starts,
score under a lenient policy with a duration below zero, and a score below zero. -/
theorem scoreItinerary_backward_legs_below_zero :
    ∃ score, scoreItinerary
      ⟨[⟨.rail, ⟨.str "A", .null⟩, ⟨.str "B", .null⟩, .int 100000, .int 200000,
          .int 1000, .str "T1", .null⟩,
        ⟨.rail, ⟨.str "A", .null⟩, ⟨.str "B", .null⟩, .int 0, .int 50000,
          .int 1000, .str "T1", .null⟩], .int 100000, .int 50000, .null, .null⟩
      (.list [.int 51, .int 0]) (.list [.int 51, .int 0]) none { mergeSameTrip := .bool true } =
      .ok score ∧ score.durationMinutes < 0.0 ∧ score.score < 0.0 :=
  exists_ok_of_any (by decide +kernel)

/-! ## Monotonicity of a score -/

/-- How a score that is a number, of legs timed in whole milliseconds, under a validated policy
`p` of double weights that is strict or on legs each ending no later than the next one starts,
changes with the policy and the legs.

* Under a policy of a detour weight and a penalty per interchange at least `p`'s, a threshold
  at most `p`'s, and merging legs on one trip only where `p` does, the score is at least as
  large, where it is a number.
* On legs no longer than others, one for one, the longer legs score at least as large, where
  the score is a number.
* Under `p` with only its penalty per interchange changed, from `c` to `c'`, every component
  but the interchange penalty and the total stays. Where both scores are finite, each of the
  two is the exact result rounded once: the interchanges times the penalty, and the rest plus
  the interchange penalty. So when nothing rounds, both change by the interchanges times
  `c' - c`. -/
theorem scoreItinerary_monotone
    (it : Itinerary)
    (origin destination : Value)
    (corridor : Option Value)
    (p : Policy)
    {w θ c : Float}
    (timed : ∀ leg ∈ it.legs, leg.Timed)
    (weight : p.detourWeight = .float w)
    (threshold : p.detourThreshold = .float θ)
    (penalty : p.perTransferPenalty = .float c)
    (valid : p.validate = .ok ())
    (ordered : p.strictOrdering.truthy = true ∨
      it.legs.IsChain fun a b => a.overlaps b = false)
    {s : CorridorScore}
    (run : scoreItinerary it origin destination corridor p = .ok s)
    (number : s.score.isNaN = false) :
    (∀ (q : Policy) (w' θ' c' : Float) (t : CorridorScore),
      q.detourWeight = .float w' → q.detourThreshold = .float θ' →
      q.perTransferPenalty = .float c' → w ≤ w' → θ' ≤ θ → c ≤ c' →
      (q.mergeSameTrip.truthy = true → p.mergeSameTrip.truthy = true) →
      scoreItinerary it origin destination corridor q = .ok t → t.score.isNaN = false →
      s.score ≤ t.score) ∧
    (∀ (it' : Itinerary) (t : CorridorScore),
      List.Forall₂ Leg.NoLongerThan it.legs it'.legs →
      scoreItinerary it' origin destination corridor p = .ok t → t.score.isNaN = false →
      s.score ≤ t.score) ∧
    (∀ (c' : Float) (t : CorridorScore),
      scoreItinerary it origin destination corridor
        { p with perTransferPenalty := .float c' } = .ok t →
      s.SameJourney t ∧ t.detourPenalty = s.detourPenalty ∧
        (s.score.isFinite = true → t.score.isFinite = true →
          s.RoundedTerms c ∧ t.RoundedTerms c' ∧
          ((∀ q ∈ [(s.transferCount : ℚ), s.transferCount * toRat c,
              s.transferCount * toRat c',
              toRat (s.durationMinutes + s.detourPenalty) + s.transferCount * toRat c,
              toRat (s.durationMinutes + s.detourPenalty) + s.transferCount * toRat c'],
              nearest q = q) →
            toRat t.transferPenalty - toRat s.transferPenalty =
              s.transferCount * (toRat c' - toRat c) ∧
            toRat t.score - toRat s.score = s.transferCount * (toRat c' - toRat c)))) := by
  have weighed := scoreItinerary_weighedBy run
  obtain ⟨-, forward, oneLe⟩ :=
    scoreItinerary_duration_ratio_bounds it origin destination corridor p timed run
  obtain ⟨nonnegWeight, nonnegPenalty⟩ :=
    weighed.zero_le_weights weight threshold penalty valid number
  refine ⟨?heavier, ?longer, ?transfer⟩
  case heavier =>
    intro q w' θ' c' t weight' threshold' penalty' heavierWeight lower heavierPenalty fewer
      underQ number'
    obtain ⟨duration, ratio, countP, countQ⟩ := scoreItinerary_duration_ratio_eq timed run underQ
    have count : s.transferCount ≤ t.transferCount := by
      rw [countP, countQ]
      exact interchanges_le_of_merges fewer it.legs
    have excess : excessRatio s.detourRatio θ ≤ excessRatio t.detourRatio θ' := by
      rw [ratio]
      exact excessRatio_le_excessRatio (float_le_refl (number_of_le_right oneLe)) lower
    exact weighed.score_le (scoreItinerary_weighedBy underQ) weight threshold penalty weight'
      threshold' penalty' duration (forward ordered) excess count heavierWeight heavierPenalty
      nonnegWeight nonnegPenalty number number'
  case longer =>
    intro it' t longer run' number'
    obtain ⟨duration, ratio, count⟩ := scoreItinerary_noLongerThan timed longer run run'
    exact weighed.score_le (scoreItinerary_weighedBy run') weight threshold penalty weight
      threshold penalty duration (forward ordered) (excessRatio_le_of_le ratio θ) count.ge
      (float_le_refl (number_of_le_right nonnegWeight))
      (float_le_refl (number_of_le_right nonnegPenalty)) nonnegWeight nonnegPenalty number
      number'
  case transfer =>
    intro c' t underQ
    have sameMerge : ({ p with perTransferPenalty := .float c' } : Policy).mergeSameTrip.truthy =
        p.mergeSameTrip.truthy := rfl
    obtain ⟨-, weighedQ, same, detour, -⟩ := scoreItinerary_policy_terms sameMerge run underQ
    refine ⟨same, detour rfl rfl, fun finite finite' => ?_⟩
    have roundedP := weighed.roundedTerms penalty finite
    have roundedQ := weighedQ.roundedTerms rfl finite'
    exact ⟨roundedP, roundedQ, roundedP.sub_eq roundedQ same.transfers
      (by rw [same.duration, detour rfl rfl])⟩

/-- An hour-long rail leg of 40 km between two equal points scores no lower under a policy of
detour weight one and a penalty of 15 minutes per interchange than under the default policy. -/
theorem scoreItinerary_hour_leg_heavier_policy :
    ∃ s t, scoreItinerary
      ⟨[⟨.rail, ⟨.str "Paddington", .null⟩, ⟨.str "Reading", .null⟩, .int 0,
        .int 3600000, .int 40000, .null, .null⟩], .int 0, .int 3600000, .null, .null⟩
      (.list [.int 51, .int 0]) (.list [.int 51, .int 0]) none {} = .ok s ∧
    scoreItinerary
      ⟨[⟨.rail, ⟨.str "Paddington", .null⟩, ⟨.str "Reading", .null⟩, .int 0,
        .int 3600000, .int 40000, .null, .null⟩], .int 0, .int 3600000, .null, .null⟩
      (.list [.int 51, .int 0]) (.list [.int 51, .int 0]) none
      { detourWeight := .float 1.0, perTransferPenalty := .float 15.0 } = .ok t ∧
    s.score ≤ t.score := by
  obtain ⟨s, run, number⟩ : ∃ s, scoreItinerary
      ⟨[⟨.rail, ⟨.str "Paddington", .null⟩, ⟨.str "Reading", .null⟩, .int 0,
        .int 3600000, .int 40000, .null, .null⟩], .int 0, .int 3600000, .null, .null⟩
      (.list [.int 51, .int 0]) (.list [.int 51, .int 0]) none {} = .ok s ∧
      s.score.isNaN = false :=
    exists_ok_of_any (by decide +kernel)
  obtain ⟨t, run', number'⟩ : ∃ t, scoreItinerary
      ⟨[⟨.rail, ⟨.str "Paddington", .null⟩, ⟨.str "Reading", .null⟩, .int 0,
        .int 3600000, .int 40000, .null, .null⟩], .int 0, .int 3600000, .null, .null⟩
      (.list [.int 51, .int 0]) (.list [.int 51, .int 0]) none
      { detourWeight := .float 1.0, perTransferPenalty := .float 15.0 } = .ok t ∧
      t.score.isNaN = false :=
    exists_ok_of_any (by decide +kernel)
  obtain ⟨⟨⟩, valid⟩ : ∃ u, ({} : Policy).validate = .ok u :=
    exists_ok_of_isOk (by decide +kernel)
  have monotone := scoreItinerary_monotone _ _ _ _ _
    (by exact fun l member => List.mem_singleton.mp member ▸ And.intro rfl rfl) rfl rfl rfl valid
    (Or.inr (.singleton _)) run number
  exact ⟨s, t, run, run', monotone.1 { detourWeight := .float 1.0, perTransferPenalty := .float 15.0 }
    1.0 1.0 15.0 t rfl rfl rfl (by decide) (by decide) (by decide) id run' number'⟩

/-- Validation accepts an infinite detour weight. Under it, an hour-long rail leg between two
equal points, with no detour at all, scores not-a-number: its penalty is zero excess times an
infinite weight. The score under the default policy, of a smaller weight, is then not at most
it. -/
theorem scoreItinerary_infinite_weight_nan :
    (Policy.validate { detourWeight := .float (1.0 / 0.0) }).isOk = true ∧
    ∃ s t, scoreItinerary
      ⟨[⟨.rail, ⟨.str "Paddington", .null⟩, ⟨.str "Reading", .null⟩, .int 0,
        .int 3600000, .int 40000, .null, .null⟩], .int 0, .int 3600000, .null, .null⟩
      (.list [.int 51, .int 0]) (.list [.int 51, .int 0]) none {} = .ok s ∧
    scoreItinerary
      ⟨[⟨.rail, ⟨.str "Paddington", .null⟩, ⟨.str "Reading", .null⟩, .int 0,
        .int 3600000, .int 40000, .null, .null⟩], .int 0, .int 3600000, .null, .null⟩
      (.list [.int 51, .int 0]) (.list [.int 51, .int 0]) none
      { detourWeight := .float (1.0 / 0.0) } = .ok t ∧
    t.score.isNaN = true ∧ ¬ s.score ≤ t.score := by
  refine ⟨by decide +kernel, (exists_ok_of_isOk ?default).imp fun s underP =>
    (exists_ok_of_any ?infinite).imp fun t ⟨underQ, nan⟩ =>
      ⟨underP, underQ, nan, not_le_of_isNaN nan⟩⟩
  case default => decide +kernel
  case infinite => decide +kernel

end CorridorRank
