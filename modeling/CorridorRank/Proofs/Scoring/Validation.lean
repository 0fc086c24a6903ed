import CorridorRank.Proofs.Scoring.NotANumber
import CorridorRank.Proofs.Scoring.PolicyTerms

/-!
# What validating a policy guarantees of a score

`Policy.validate` compares each of the four numeric fields with its floor by `<`, in order,
and accepts exactly the policies none of whose fields is below its floor
(`Policy.validate_eq_ok_iff`). It asks for no more: an infinite weight is not below its
floor, and neither is a fractional number of workers.

So validation does not keep a score a number. With double weights, and legs timed in whole
milliseconds, a score's duration is finite and its score is not-a-number exactly as the
products and the sums that make it say (`CorridorScore.NotANumberCases`):

* the detour penalty, the excess ratio times the duration times the weight, when the weight
  is not-a-number or one of its products is an infinity times a zero;
* the interchange penalty when its weight is not-a-number, or it is infinite and there is no
  interchange;
* the score when a penalty is, or the duration plus the detour penalty and the interchange
  penalty are infinities of opposite signs.

A pool for the tasks of a batch is started with the smaller of the policy's worker count and
the number of tasks (`Pool.size`); under a validated policy that count passes the pool's
start check, but it need not be whole.

Main statement: `validate_score_isNaN_iff`. Validation accepts an infinite penalty per
interchange and a fractional number of workers; under that policy a single leg, with no
interchange, scores not-a-number, and a pool for three tasks is started with one and a half
workers (`validate_infinite_penalty_nan_score`).
-/

namespace CorridorRank

open Traversal Float.Model

/-! ## The excess ratio -/

/-- The part of a detour ratio above a threshold, as scoring takes it: the difference when it
is above zero, and zero otherwise, also when the difference is not a number. -/
def excessRatio
    (ratio threshold : Float) :
    Float :=
  if 0.0 < ratio - threshold then ratio - threshold else 0.0

/-- The larger of zero and a double is the double when it is above zero, and zero otherwise.
Not-a-number is above nothing, and the comparison has no answer. -/
theorem Value.max2_zero
    (y : Float) :
    Value.max2 (.float 0.0) (.float y) = .ok (.float (if 0.0 < y then y else 0.0)) :=
  Value.max2_number rfl y

/-- The excess ratio is never not-a-number: a difference above zero is a number. -/
theorem excessRatio_isNaN
    (ratio threshold : Float) :
    (excessRatio ratio threshold).isNaN = false := by
  unfold excessRatio
  split
  · next positive =>
    cases nan : (ratio - threshold).isNaN
    · rfl
    · exact absurd positive (Binary64.not_lt_of_isNaN_right nan)
  · rfl

/-! ## The terms of a score under double weights -/

namespace CorridorScore.WeighedBy

variable {s : CorridorScore} {p : Policy} {w θ c : Float}

/-- With double weights, the detour penalty is the excess ratio times the duration times the
weight, multiplied in that order. -/
theorem detourPenalty_eq_excess
    (weighed : s.WeighedBy p)
    (weight : p.detourWeight = .float w)
    (threshold : p.detourThreshold = .float θ) :
    s.detourPenalty = (excessRatio s.detourRatio θ * s.durationMinutes) * w := by
  have run := weighed.detour
  unfold CorridorRank.detourPenalty at run
  rw [threshold, weight, Value.sub_float, ok_bind, Value.max2_zero, ok_bind, Value.mul_float,
    ok_bind, Value.mul_float, ok_bind] at run
  exact (Except.ok.inj run).symm

/-- With a double penalty per interchange, the interchanges convert to a double, and the
interchange penalty is that double times the penalty. An interchange count too large for a double
would have failed the product. -/
theorem transferPenalty_eq_count
    (weighed : s.WeighedBy p)
    (penalty : p.perTransferPenalty = .float c) :
    ∃ x, Binary64.ofInt s.transferCount = some x ∧ s.transferPenalty = x * c := by
  cases converts : Binary64.ofInt s.transferCount with
  | none =>
      have run := weighed.transfer
      have faulty : Value.mul (.int s.transferCount) (.float c) = .error Fault.intTooLarge := by
        show (do
          let x ← (Num.int s.transferCount).toFloat
          let y ← (Num.float c).toFloat
          pure (Value.float (x * y)) : Except Fault Value) = _
        rw [Num.toFloat, converts]
        rfl
      rw [penalty, faulty] at run
      cases run
  | some x => exact ⟨x, rfl, weighed.transferPenalty_of_float penalty converts⟩

end CorridorScore.WeighedBy

/-- On timed legs, a returning score's duration is finite: it is a quotient of integers
rounded once. -/
theorem scoreItinerary_duration_finite
    {it : Itinerary}
    {origin destination : Value}
    {corridor : Option Value}
    {p : Policy}
    {s : CorridorScore}
    (timed : ∀ leg ∈ it.legs, leg.Timed)
    (run : scoreItinerary it origin destination corridor p = .ok s) :
    s.durationMinutes.isFinite = true := by
  obtain ⟨-, -, agg, aggregated, duration, -⟩ := scoreItinerary_ok_parts run
  obtain ⟨first, last, -, -, divided⟩ := ofLegs_ok_span timed aggregated
  rw [duration]
  exact Value.intQuotient_finite divided

/-! ## When a score is not a number -/

/-- When a score under a detour weight `w`, a threshold `θ` and a penalty per interchange `c`
is not-a-number: the score when a penalty is or its sum adds infinities of opposite signs, the
detour penalty when a product of the excess ratio, the duration and the weight is, and the
interchange penalty when its weight is or it is infinite with no interchange. -/
structure CorridorScore.NotANumberCases (s : CorridorScore) (w θ c : Float) : Prop where
  score : s.score.isNaN = true ↔ s.detourPenalty.isNaN = true ∨ s.transferPenalty.isNaN = true ∨
    ((s.durationMinutes + s.detourPenalty).isInf = true ∧ s.transferPenalty.isInf = true ∧
      (s.durationMinutes + s.detourPenalty < 0.0 ↔ ¬ s.transferPenalty < 0.0))
  detour : s.detourPenalty.isNaN = true ↔ w.isNaN = true ∨
    ((excessRatio s.detourRatio θ).isInf = true ∧ (s.durationMinutes == 0.0) = true) ∨
    ((excessRatio s.detourRatio θ * s.durationMinutes).isInf = true ∧ (w == 0.0) = true) ∨
    ((excessRatio s.detourRatio θ * s.durationMinutes == 0.0) = true ∧ w.isInf = true)
  transfer : s.transferPenalty.isNaN = true ↔
    c.isNaN = true ∨ (s.transferCount = 0 ∧ c.isInf = true)

namespace CorridorScore.WeighedBy

variable {s : CorridorScore} {p : Policy} {w θ c : Float}

/-- A score of a finite duration, weighed by double weights, is not-a-number exactly in the
cases its products and sums allow. The excess and the finite duration are numbers, so their product
is not-a-number only as an infinite excess times a zero duration. -/
theorem notANumberCases
    (weighed : s.WeighedBy p)
    (weight : p.detourWeight = .float w)
    (threshold : p.detourThreshold = .float θ)
    (penalty : p.perTransferPenalty = .float c)
    (finite : s.durationMinutes.isFinite = true) :
    s.NotANumberCases w θ c := by
  obtain ⟨durationNumber, durationFinite⟩ := Binary64.number_of_isFinite finite
  obtain ⟨x, converts, transfer⟩ := weighed.transferPenalty_eq_count penalty
  obtain ⟨countFiniteness, countZero⟩ := Binary64.ofInt_finite converts
  obtain ⟨countNumber, countFinite⟩ := Binary64.number_of_isFinite countFiniteness
  refine ⟨?score, ?detour, ?transfer⟩
  case score =>
    rw [weighed.total, Binary64.isNaN_add_iff, Binary64.isNaN_add_iff, durationNumber,
      durationFinite]
    simp only [Bool.false_eq_true, false_or, false_and, or_false]
  case detour =>
    rw [detourPenalty_eq_excess weighed weight threshold, Binary64.isNaN_mul_iff,
      Binary64.isNaN_mul_iff, excessRatio_isNaN, durationNumber, durationFinite]
    simp only [Bool.false_eq_true, false_or, and_false, or_false]
    exact or_left_comm
  case transfer =>
    rw [transfer, Binary64.isNaN_mul_iff, countNumber, countFinite, countZero]
    simp only [Bool.false_eq_true, false_or, false_and, beq_iff_eq, Int.natCast_eq_zero]

end CorridorScore.WeighedBy

/-- Validation accepts a policy exactly when none of its four numeric fields is below its
floor; it checks neither that a weight is finite nor that the number of workers is whole. A
pool for the tasks of a batch under a validated policy is started with the smaller of the two
counts, which it accepts, whole or not. And under double weights, whether validated or not, a
score of legs timed in whole milliseconds has a finite duration and is not-a-number exactly in
the cases its products and sums allow. -/
theorem validate_score_isNaN_iff
    {it : Itinerary}
    {origin destination : Value}
    {corridor : Option Value}
    {p : Policy}
    {s : CorridorScore}
    {w θ c : Float}
    (weight : p.detourWeight = .float w)
    (threshold : p.detourThreshold = .float θ)
    (penalty : p.perTransferPenalty = .float c)
    (timed : ∀ leg ∈ it.legs, leg.Timed)
    (run : scoreItinerary it origin destination corridor p = .ok s) :
    (p.validate = .ok () ↔
      Value.lt p.detourWeight (.int 0) = .ok false ∧
      Value.lt p.detourThreshold (.float 1.0) = .ok false ∧
      Value.lt p.perTransferPenalty (.int 0) = .ok false ∧
      Value.lt p.maxWorkers (.int 1) = .ok false) ∧
    (p.validate = .ok () → ∀ tasks : Nat, 0 < tasks →
      ∃ fewer : Bool, Value.lt (.int tasks) p.maxWorkers = .ok fewer ∧
        Pool.size p tasks = .ok (if fewer then .int tasks else p.maxWorkers) ∧
        Pool.start (if fewer then .int tasks else p.maxWorkers) = .ok ()) ∧
    s.durationMinutes.isFinite = true ∧ s.NotANumberCases w θ c := by
  have finite := scoreItinerary_duration_finite timed run
  exact ⟨p.validate_eq_ok_iff, fun accepted _ some => Pool.size_of_validate accepted some,
    finite, (scoreItinerary_weighedBy run).notANumberCases weight threshold penalty finite⟩

/-- An hour-long rail leg of 40 km between two equal points. Under the default policy, the
policy is accepted as its fields compare, a pool for three tasks is started with three
workers, the duration is finite, and the score is not-a-number only in the cases of its
weights 0.5, 1.0 and 10.0. Under an infinite detour weight, which validation accepts as well,
the same cases decide, and the leg, which makes no detour, has a detour penalty of a zero
times an infinity: its score is not-a-number. -/
theorem validate_score_isNaN_iff_hour_leg_weights :
    let hourLeg : Itinerary :=
      ⟨[⟨.rail, ⟨.str "Paddington", .null⟩, ⟨.str "Reading", .null⟩, .int 0,
        .int 3600000, .int 40000, .null, .null⟩], .int 0, .int 3600000, .null, .null⟩
    let here : Value := .list [.int 51, .int 0]
    let heavy : Policy := { detourWeight := .float (1.0 / 0.0) }
    (∃ s, scoreItinerary hourLeg here here none {} = .ok s ∧
      ((({} : Policy).validate = .ok () ↔
        Value.lt ({} : Policy).detourWeight (.int 0) = .ok false ∧
        Value.lt ({} : Policy).detourThreshold (.float 1.0) = .ok false ∧
        Value.lt ({} : Policy).perTransferPenalty (.int 0) = .ok false ∧
        Value.lt ({} : Policy).maxWorkers (.int 1) = .ok false) ∧
      (({} : Policy).validate = .ok () → ∀ tasks : Nat, 0 < tasks →
        ∃ fewer : Bool, Value.lt (.int tasks) ({} : Policy).maxWorkers = .ok fewer ∧
          Pool.size {} tasks = .ok (if fewer then .int tasks else ({} : Policy).maxWorkers) ∧
          Pool.start (if fewer then .int tasks else ({} : Policy).maxWorkers) = .ok ()) ∧
      s.durationMinutes.isFinite = true ∧ s.NotANumberCases 0.5 1.0 10.0)) ∧
    Pool.size {} 3 = .ok (.int 3) ∧
    heavy.validate = .ok () ∧
    ∃ s, scoreItinerary hourLeg here here none heavy = .ok s ∧ s.score.isNaN = true ∧
      ((heavy.validate = .ok () ↔
        Value.lt heavy.detourWeight (.int 0) = .ok false ∧
        Value.lt heavy.detourThreshold (.float 1.0) = .ok false ∧
        Value.lt heavy.perTransferPenalty (.int 0) = .ok false ∧
        Value.lt heavy.maxWorkers (.int 1) = .ok false) ∧
      (heavy.validate = .ok () → ∀ tasks : Nat, 0 < tasks →
        ∃ fewer : Bool, Value.lt (.int tasks) heavy.maxWorkers = .ok fewer ∧
          Pool.size heavy tasks = .ok (if fewer then .int tasks else heavy.maxWorkers) ∧
          Pool.start (if fewer then .int tasks else heavy.maxWorkers) = .ok ()) ∧
      s.durationMinutes.isFinite = true ∧ s.NotANumberCases (1.0 / 0.0) 1.0 10.0) := by
  intro hourLeg here heavy
  have timed : ∀ leg ∈ hourLeg.legs, leg.Timed :=
    fun leg member => List.mem_singleton.mp member ▸ And.intro rfl rfl
  have accepted : heavy.validate = .ok () := by
    have returned : ∃ u, heavy.validate = .ok u := exists_ok_of_isOk (by decide +kernel)
    obtain ⟨⟨⟩, passed⟩ := returned
    exact passed
  refine ⟨?lightRun, rfl, accepted, ?heavyRun⟩
  case lightRun =>
    refine (exists_ok_of_isOk ?returns).imp fun s run => ⟨run, ?_⟩
    case returns => decide +kernel
    exact validate_score_isNaN_iff rfl rfl rfl timed run
  case heavyRun =>
    have scored : ∃ s, scoreItinerary hourLeg here here none heavy = .ok s ∧
        s.score.isNaN = true :=
      exists_ok_of_any (by decide +kernel)
    obtain ⟨s, run, nan⟩ := scored
    exact ⟨s, run, nan, validate_score_isNaN_iff rfl rfl rfl timed run⟩

/-- Validation accepts an infinite penalty per interchange together with one and a half
workers. Under that policy an hour-long rail leg between two equal points, with no
interchange, scores not-a-number: its interchange penalty is zero interchanges times an
infinite penalty. And a pool for three tasks is started with one and a half workers. -/
theorem validate_infinite_penalty_nan_score :
    let lenient : Policy := { perTransferPenalty := .float (1.0 / 0.0), maxWorkers := .float 1.5 }
    lenient.validate.isOk = true ∧
    (∃ s, scoreItinerary
      ⟨[⟨.rail, ⟨.str "Paddington", .null⟩, ⟨.str "Reading", .null⟩, .int 0,
        .int 3600000, .int 40000, .null, .null⟩], .int 0, .int 3600000, .null, .null⟩
      (.list [.int 51, .int 0]) (.list [.int 51, .int 0]) none lenient = .ok s ∧
      s.score.isNaN = true) ∧
    Pool.size lenient 3 = .ok (.float 1.5) := by
  intro lenient
  have notFewer : ∃ fewer, Value.lt (.int 3) lenient.maxWorkers = .ok fewer ∧ fewer = false :=
    exists_ok_of_any (by decide +kernel)
  obtain ⟨_, compares, rfl⟩ := notFewer
  refine ⟨by decide +kernel, exists_ok_of_any (by decide +kernel), ?_⟩
  simp only [Pool.size, Value.min2, bind, Except.bind, Nat.cast_ofNat]
  rw [show Value.compareWith .lt (.int 3) lenient.maxWorkers = .ok false from compares]
  rfl

end CorridorRank
