import CorridorRank.Matching.Request
import CorridorRank.Matching.Summary
import CorridorRank.Planner.Client
import CorridorRank.Scoring.Batch

/-!
# Matching a journey request

`matchJourney` is the whole pipeline for one request: check the request, normalise its
station codes, ask a planner for candidate itineraries, score them as a batch, keep the best
route of each corridor, cut that list at the limit and summarise what is left.

The planner is a parameter (`PlanQuery → m Plan` in any monad that can fail with a
`Fault`), so the same pipeline runs against the planner client's session or against a
fixed answer. A request that fails its checks never reaches the planner; a planner fault
ends the match.

The limit cuts the list the way a slice end does: no limit keeps everything, a negative
limit drops that many from the end. The straight-line distance reported is the best route's,
or 0 when nothing was matched.
-/

namespace CorridorRank

/-- What the matcher works from: candidate itineraries and the endpoints of the request. -/
structure Plan where
  items : List BatchItem
  origin : Value
  destination : Value
  deriving Inhabited

/-- The items of a collection of itineraries as iteration yields them: list and tuple items,
the characters of a text, the keys of a record. -/
def itemsOf
    (v : Value) :
    Except Fault (List Value) :=
  match v with
  | .list xs | .tuple xs => .ok xs
  | .str s => .ok (s.points.map fun n => .str ⟨[n]⟩)
  | .dict fields => .ok (fields.map fun (k, _) => .str k)
  | other => .error (.typeError ("'" ++ other.typeName ++ "' object is not iterable"))

/-- The plan a planner result stands for: its itineraries as raw records, its coordinates
as pairs. -/
def PlanResult.toPlan
    (r : PlanResult) :
    Except Fault Plan := do
  let items ← itemsOf r.itineraries
  pure ⟨items.map .record, .tuple [.float r.origin.1, .float r.origin.2],
    .tuple [.float r.destination.1, .float r.destination.2]⟩

/-- The outcome of a match: the summaries, the routes they summarise, the itineraries that
could not be scored, and the straight-line distance of the best route. -/
structure MatchResult where
  routes : List RouteSummary
  ranked : List ScoredRoute
  failures : List Failure
  straightLineKm : Float
  deriving Inhabited

namespace Matching

/-- The first `limit` items, as a slice end: nothing means all, negative counts from the end. -/
def takeLimit
    {α : Type}
    (limit : Value)
    (xs : List α) :
    Except Fault (List α) :=
  match limit with
  | .null => .ok xs
  | v =>
    match v.count? with
    | some n => .ok (if 0 ≤ n then xs.take n.toNat else xs.take (xs.length - n.natAbs))
    | none => .error (.typeError
        "slice indices must be integers or None or have an __index__ method")

/-- The request, checked and with normalised station codes. -/
def prepare
    (req : JourneyRequest) :
    Except Fault JourneyRequest := do
  req.validate
  req.normalized

/-- Scores a plan and summarises the best route of each corridor, up to the limit. -/
def finish
    (plan : Plan)
    (p : Policy)
    (limit : Value) :
    Except Fault MatchResult := do
  let result ← scoreBatch plan.items plan.origin plan.destination p none
  let best ← bestPerCorridor result.ranked
  let best ← takeLimit limit best
  let straight := match best with
    | r :: _ => r.score.straightLineKm
    | [] => 0.0
  let routes ← best.mapM RouteSummary.ofRoute
  pure ⟨routes, best, result.failures, straight⟩

/-- A computation that may fail, in any monad that can fail with a fault. -/
def liftFault
    {m : Type → Type}
    [Monad m]
    [MonadExceptOf Fault m]
    {α : Type} :
    Except Fault α → m α
  | .ok a => pure a
  | .error e => throwThe Fault e

end Matching

open Matching in
/-- Matches a journey request with a planner. -/
def matchJourney
    {m : Type → Type}
    [Monad m]
    [MonadExceptOf Fault m]
    (planner : PlanQuery → m Plan)
    (req : JourneyRequest)
    (p : Policy)
    (limit : Value)
    (correlation : Value) :
    m MatchResult := do
  let q ← liftFault (prepare req)
  let plan ← planner ⟨q.origin, q.destination, q.date, q.time, correlation⟩
  liftFault (finish plan p limit)

/-- A planner with one fixed answer that keeps the queries it is asked, in order. -/
def fixedPlanner
    (answer : Except Fault Plan)
    (q : PlanQuery) :
    ExceptT Fault (StateM (List PlanQuery)) Plan := do
  modify (· ++ [q])
  match answer with
  | .ok plan => pure plan
  | .error e => throw e

end CorridorRank
