import Mathlib
import CorridorRank.Proofs.Scoring.Duration
import CorridorRank.Proofs.Scoring.NotANumber

/-!
# How the policy enters a score

A score is the duration, plus the detour penalty, plus the interchange penalty, added in that
order as doubles (`CorridorScore.WeighedBy`): the detour penalty is the policy's detour
penalty of the score's own ratio and duration, and the interchange penalty its penalty per
interchange times the score's interchanges. Everything else in a score is fixed by the
itinerary, the endpoints and the two switches of the policy: the duration, the ratio, the
route length, the interchanges, the straight line and the corridor.

Main statement: `scoreItinerary_policy_terms`. Two scores of one itinerary under policies
that agree on strictness and on merging legs of one trip share every component but the
penalties and the total; each penalty is the same when the weights it reads are, and each
total is the sum of its terms. So changing only the penalty per interchange changes only the
interchange penalty and the total.

Whether a heavier policy scores higher takes more than these terms: the detour penalty is
the excess ratio times the duration times the weight, which keeps order only while the
duration is at least zero and the products are numbers (`scoreItinerary_monotone`).
-/

namespace CorridorRank

open Traversal

/-! ## The terms of a score -/

/-- The terms of a score under a policy: its detour penalty is the policy's penalty of its
ratio and duration, its interchange penalty the policy's penalty per interchange times its
interchanges, each as a double, and its total their sum, added in order. -/
structure CorridorScore.WeighedBy (s : CorridorScore) (p : Policy) : Prop where
  detour : (CorridorRank.detourPenalty (.float s.detourRatio) (.float s.durationMinutes) p >>=
    Value.toFloat) = .ok s.detourPenalty
  transfer : (Value.mul (.int s.transferCount) p.perTransferPenalty >>= Value.toFloat) =
    .ok s.transferPenalty
  total : s.score = (s.durationMinutes + s.detourPenalty) + s.transferPenalty

/-- The detour penalty reads of the policy only its weight and threshold. -/
theorem detourPenalty_congr
    {p q : Policy}
    (ratio duration : Value)
    (sameWeight : q.detourWeight = p.detourWeight)
    (sameThreshold : q.detourThreshold = p.detourThreshold) :
    detourPenalty ratio duration q = detourPenalty ratio duration p := by
  simp only [detourPenalty, sameWeight, sameThreshold]

/-- A returning score is weighed by its policy. -/
theorem scoreItinerary_weighedBy
    {it : Itinerary}
    {origin destination : Value}
    {corridor : Option Value}
    {p : Policy}
    {s : CorridorScore}
    (run : scoreItinerary it origin destination corridor p = .ok s) :
    s.WeighedBy p := by
  obtain ⟨-, -, -, -, -, -, -, -, -, -, detour, transfer, total⟩ := scoreItinerary_ok_parts run
  exact ⟨detour, transfer, total⟩

/-! ## Two policies, one journey -/

/-- Two scores of one journey: the same corridor, duration, ratio, route length,
interchanges and straight line. They may differ in the penalties and the total. -/
structure CorridorScore.SameJourney (s t : CorridorScore) : Prop where
  corridor : t.corridorId = s.corridorId
  duration : t.durationMinutes = s.durationMinutes
  ratio : t.detourRatio = s.detourRatio
  route : t.routeDistanceKm = s.routeDistanceKm
  transfers : t.transferCount = s.transferCount
  straight : t.straightLineKm = s.straightLineKm

namespace CorridorScore.WeighedBy

variable {s t : CorridorScore} {p q : Policy}

/-- On one journey, policies of one detour weight and threshold weigh the same detour. -/
theorem detourPenalty_eq
    (weighedP : s.WeighedBy p)
    (weighedQ : t.WeighedBy q)
    (same : s.SameJourney t)
    (sameWeight : q.detourWeight = p.detourWeight)
    (sameThreshold : q.detourThreshold = p.detourThreshold) :
    t.detourPenalty = s.detourPenalty := by
  have run := weighedQ.detour
  rw [same.ratio, same.duration, detourPenalty_congr _ _ sameWeight sameThreshold,
    weighedP.detour] at run
  exact (Except.ok.inj run).symm

/-- On one journey, policies of one penalty per interchange weigh the same interchanges. -/
theorem transferPenalty_eq
    (weighedP : s.WeighedBy p)
    (weighedQ : t.WeighedBy q)
    (same : s.SameJourney t)
    (samePenalty : q.perTransferPenalty = p.perTransferPenalty) :
    t.transferPenalty = s.transferPenalty := by
  have run := weighedQ.transfer
  rw [same.transfers, samePenalty, weighedP.transfer] at run
  exact (Except.ok.inj run).symm

/-- With a double penalty per interchange, the interchange penalty is the interchanges as a
double times that penalty, rounded once. -/
theorem transferPenalty_of_float
    (weighed : s.WeighedBy p)
    {y c : Float}
    (perTransfer : p.perTransferPenalty = .float y)
    (count : Binary64.ofInt s.transferCount = some c) :
    s.transferPenalty = c * y := by
  have run := weighed.transfer
  rw [perTransfer, Value.mul_int_float_eq count, ok_bind] at run
  exact (Except.ok.inj run).symm

end CorridorScore.WeighedBy

/-- Two scores of one itinerary between the same endpoints, under policies that merge legs of
one trip alike, are of the same journey: only the penalties and the total can differ. Each
penalty is the same when the weights it reads are, and each score is the sum of its own terms.
Strictness need not agree: it decides only whether a score returns. Merging alike, both policies
aggregate the legs alike. -/
theorem scoreItinerary_policy_terms
    {it : Itinerary}
    {origin destination : Value}
    {corridor : Option Value}
    {p q : Policy}
    {s t : CorridorScore}
    (sameMerge : q.mergeSameTrip.truthy = p.mergeSameTrip.truthy)
    (underP : scoreItinerary it origin destination corridor p = .ok s)
    (underQ : scoreItinerary it origin destination corridor q = .ok t) :
    s.WeighedBy p ∧ t.WeighedBy q ∧ s.SameJourney t ∧
      (q.detourWeight = p.detourWeight → q.detourThreshold = p.detourThreshold →
        t.detourPenalty = s.detourPenalty) ∧
      (q.perTransferPenalty = p.perTransferPenalty → t.transferPenalty = s.transferPenalty) := by
  obtain ⟨-, -, aggP, aggregatedP, durationP, routeP, countP, measuredP, ratioP, corridorP, -⟩ :=
    scoreItinerary_ok_parts underP
  obtain ⟨-, -, aggQ, aggregatedQ, durationQ, routeQ, countQ, measuredQ, ratioQ, corridorQ, -⟩ :=
    scoreItinerary_ok_parts underQ
  have weighedP := scoreItinerary_weighedBy underP
  have weighedQ := scoreItinerary_weighedBy underQ
  rw [sameMerge, aggregatedP] at aggregatedQ
  obtain rfl := Except.ok.inj aggregatedQ
  have straight : t.straightLineKm = s.straightLineKm :=
    Except.ok.inj (measuredQ.symm.trans measuredP)
  rw [straight] at ratioQ
  have corridorSame : t.corridorId = s.corridorId := by
    cases corridor with
    | none => exact Except.ok.inj (corridorQ.symm.trans corridorP)
    | some c => exact corridorQ.trans corridorP.symm
  have same : s.SameJourney t :=
    { corridor := corridorSame
      duration := durationQ.trans durationP.symm
      ratio := Value.float.inj (Except.ok.inj (ratioQ.symm.trans ratioP))
      route := routeQ.trans routeP.symm
      transfers := countQ.trans countP.symm
      straight }
  exact ⟨weighedP, weighedQ, same, weighedP.detourPenalty_eq weighedQ same,
    weighedP.transferPenalty_eq weighedQ same⟩

end CorridorRank
