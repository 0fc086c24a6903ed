import CorridorRank.Scoring.Score
import CorridorRank.Sorting.NaturalMerge

/-!
# Ranking scored routes

Routes are ordered best first by the rank key (score, interchanges, start time), compared
as a tuple: the first unequal component decides. The sort is stable, so routes with equal
keys keep their input order.

The sort is the natural merge sort of `NaturalMerge.sortBy`. For a consistent order it is
the stable sort; when a key holds not-a-number, every comparison with it is false, and the
fixed order of that sort's comparisons decides where such items end up.

`groupByCorridor` collects routes by corridor in order of first appearance and ranks each
group; `bestPerCorridor` ranks the best route of each group.
-/

namespace CorridorRank

/-- What ranking compares: score, interchanges, start time. -/
structure RankKey where
  score : Value
  transfers : Value
  start : Value
  deriving Inhabited

/-- Whether one key comes strictly before another, components compared in turn. -/
def RankKey.lt
    (a b : RankKey) :
    Except Fault Bool :=
  Value.compareWith .lt (.tuple [a.score, a.transfers, a.start])
    (.tuple [b.score, b.transfers, b.start])

/-- An itinerary with its score and its position in the batch input. -/
structure ScoredRoute where
  itinerary : Itinerary
  score : CorridorScore
  index : Nat
  deriving Inhabited

/-- The rank key of a scored route. -/
def ScoredRoute.key
    (r : ScoredRoute) :
    RankKey :=
  ⟨.float r.score.score, .int r.score.transferCount, r.itinerary.startTime⟩

/-- The corridor of a scored route. -/
def ScoredRoute.corridor
    (r : ScoredRoute) :
    Value := r.score.corridorId

namespace Ranking

variable {α : Type}

/-- Items collected by key in order of first appearance, each group in input order. Keys are
compared as record keys are: equal values share a group (so `1`, `1.0` and `true` do), and a
key that cannot be a record key fails. -/
def groupOrdered
    (key : α → Value)
    (xs : List α) :
    Except Fault (List (Value × List α)) :=
  xs.foldlM (fun groups x => do
    let k := key x
    if let some t := k.unhashable then
      throw (.typeError ("unhashable type: '" ++ t ++ "'"))
    if groups.any (Value.equal ·.1 k) then
      pure (groups.map fun (g, members) =>
        if Value.equal g k then (g, members ++ [x]) else (g, members))
    else pure (groups ++ [(k, [x])])) []

end Ranking

open Ranking

/-- Items ordered best first by a rank key. -/
def rankBy
    {α : Type}
    [Inhabited α]
    (key : α → RankKey)
    (xs : List α) :
    Except Fault (List α) :=
  Array.toList <$> NaturalMerge.sortBy (fun a b => RankKey.lt (key a) (key b)) xs.toArray

/-- Items grouped by corridor in order of first appearance, each group ranked. -/
def groupByCorridorBy
    {α : Type}
    [Inhabited α]
    (key : α → RankKey)
    (corridor : α → Value)
    (xs : List α) :
    Except Fault (List (Value × List α)) := do
  (← groupOrdered corridor xs).mapM fun (g, members) => do pure (g, ← rankBy key members)

/-- The best item of each corridor, ranked. -/
def bestPerCorridorBy
    {α : Type}
    [Inhabited α]
    (key : α → RankKey)
    (corridor : α → Value)
    (xs : List α) :
    Except Fault (List α) := do
  let groups ← groupByCorridorBy key corridor xs
  rankBy key (groups.filterMap fun (_, members) => members.head?)

/-- Scored routes ranked best first. -/
def rankRoutes
    (routes : List ScoredRoute) :
    Except Fault (List ScoredRoute) :=
  rankBy ScoredRoute.key routes

/-- Scored routes grouped by corridor, each group ranked. -/
def groupByCorridor
    (routes : List ScoredRoute) :
    Except Fault (List (Value × List ScoredRoute)) :=
  groupByCorridorBy ScoredRoute.key ScoredRoute.corridor routes

/-- The best route of each corridor, ranked. -/
def bestPerCorridor
    (routes : List ScoredRoute) :
    Except Fault (List ScoredRoute) :=
  bestPerCorridorBy ScoredRoute.key ScoredRoute.corridor routes

end CorridorRank
