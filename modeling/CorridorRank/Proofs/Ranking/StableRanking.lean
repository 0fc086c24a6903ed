import Mathlib
import CorridorRank.Proofs.Ranking.KeyOrder
import CorridorRank.Proofs.Sorting.Totality

/-!
# Ranking is the stable sort by rank key

`rankRoutes` orders scored routes by the key (score, interchanges, start), the first
component that differs deciding and scores compared as doubles. On routes whose scores are
numbers and whose starts are integers it returns, since every comparison it makes then
answers (`sortBy_returns`), and what it returns is the stable sort: a rearrangement of the
routes in which no route is ahead of an earlier one by the key (`ScoredRoute.ahead`), and
the routes that tie on the key (`ScoredRoute.tiesWith`) come in their input order.

There is one stable sort (`eq_of_sorted_of_keepsTies`). So ranking a ranking leaves it as it
is, and when no two routes tie, ranking any rearrangement of them gives the same ranking.
-/

namespace CorridorRank

open NaturalMerge

/-! ## Ranking by comparable keys -/

section Ranking

variable {α : Type} [Inhabited α] {key : α → RankKey}

/-- Ranking items whose keys are comparable returns: every comparison it makes answers. -/
theorem rankBy_returns
    {items : List α}
    (comparable : ∀ x ∈ items, (key x).Comparable) :
    ∃ ranked, rankBy key items = .ok ranked := by
  have answers : Answers (fun a b => RankKey.lt (key a) (key b)) fun x => (key x).Comparable :=
    fun x y comparableX comparableY => ⟨_, RankKey.lt_eq_rank comparableX comparableY⟩
  obtain ⟨sorted, run⟩ : ∃ sorted,
      sortBy (fun a b => RankKey.lt (key a) (key b)) items.toArray = .ok sorted :=
    sortBy_returns answers fun x member => comparable x (by simpa using member)
  exact ⟨sorted.toList, by rw [rankBy, run]; rfl⟩

/-- A ranking ranks to itself: it is sorted, and keeps its own ties. -/
theorem rankBy_ranked
    {items ranked : List α}
    (comparable : ∀ x ∈ items, (key x).Comparable)
    (run : rankBy key items = .ok ranked) :
    rankBy key ranked = .ok ranked := by
  obtain ⟨sorted, -, rearranged⟩ := rankBy_sorted comparable run
  have comparableRanked : ∀ x ∈ ranked, (key x).Comparable :=
    fun x member => comparable x (rearranged.subset member)
  obtain ⟨again, rerun⟩ := rankBy_returns comparableRanked
  obtain ⟨sortedAgain, keeps, rearrangedAgain⟩ := rankBy_sorted comparableRanked rerun
  have comparableAgain : ∀ x ∈ again, (key x).Comparable :=
    fun x member => comparableRanked x (rearrangedAgain.subset member)
  rw [rerun, eq_of_sorted_of_keepsTies RankKey.weakOrder comparableAgain comparableRanked
    sortedAgain sorted keeps]

/-- When no two items tie, ranking does not depend on the order of its input. Both rankings
rearrange the items, which have no ties to keep. -/
theorem rankBy_perm_eq
    {items shuffled ranked : List α}
    (comparable : ∀ x ∈ items, (key x).Comparable)
    (apart : items.Pairwise fun x y => tiedWith (fun a b => (key a).before (key b)) x y = false)
    (rearranged : shuffled.Perm items)
    (run : rankBy key items = .ok ranked) :
    rankBy key shuffled = .ok ranked := by
  have comparableShuffled : ∀ x ∈ shuffled, (key x).Comparable :=
    fun x member => comparable x (rearranged.subset member)
  obtain ⟨sorted, -, rankedPerm⟩ := rankBy_sorted comparable run
  obtain ⟨other, rerun⟩ := rankBy_returns comparableShuffled
  obtain ⟨sortedOther, -, otherPerm⟩ := rankBy_sorted comparableShuffled rerun
  have keeps :=
    (keepsTies_of_perm RankKey.weakOrder comparable apart (otherPerm.trans rearranged)).trans
      (keepsTies_of_perm RankKey.weakOrder comparable apart rankedPerm).symm
  rw [rerun, eq_of_sorted_of_keepsTies RankKey.weakOrder
    (fun x member => comparable x ((otherPerm.trans rearranged).subset member))
    (fun x member => comparable x (rankedPerm.subset member)) sortedOther sorted keeps]

end Ranking

/-! ## The key order of routes -/

namespace ScoredRoute

/-- Route `a` is ahead of route `b` by the key (score, interchanges, start): the first
component that differs decides, scores compared as doubles. -/
def ahead
    (a b : ScoredRoute) :
    Prop :=
  a.score.score < b.score.score ∨
    (a.score.score == b.score.score) = true ∧
      (a.score.transferCount < b.score.transferCount ∨
        a.score.transferCount = b.score.transferCount ∧
          a.itinerary.startTime.intRank < b.itinerary.startTime.intRank)

/-- Two routes tie on the key: scores equal as doubles, and the same interchanges and
start. -/
def tiesWith
    (a b : ScoredRoute) :
    Bool :=
  a.score.score == b.score.score && a.score.transferCount == b.score.transferCount &&
    a.itinerary.startTime.intRank == b.itinerary.startTime.intRank

theorem key_rank
    (r : ScoredRoute) :
    r.key.rank = toLex (doubleRank r.score.score,
      toLex ((r.score.transferCount : Int), r.itinerary.startTime.intRank)) := rfl

theorem isNaN_of_comparable
    {r : ScoredRoute}
    (comparable : r.key.Comparable) :
    r.score.score.isNaN = false := by
  obtain ⟨x, same, number⟩ := comparable.score
  obtain rfl : r.score.score = x := Value.float.inj same
  exact number

/-- On routes whose scores are numbers, being ahead is having the smaller rank. -/
theorem ahead_iff
    {a b : ScoredRoute}
    (comparableA : a.key.Comparable)
    (comparableB : b.key.Comparable) :
    a.ahead b ↔ a.key.before b.key = true := by
  have numberA := isNaN_of_comparable comparableA
  have numberB := isNaN_of_comparable comparableB
  simp only [ahead, RankKey.before, decide_eq_true_eq, key_rank, Prod.Lex.toLex_lt_toLex,
    doubleRank_lt_iff numberA numberB, doubleRank_beq numberA numberB, Nat.cast_lt,
    Nat.cast_inj]

/-- On routes whose scores are numbers, tying on the key is having the same rank. In a linear order,
two ranks neither of which is below the other are equal. -/
theorem tiesWith_eq
    {a b : ScoredRoute}
    (comparableA : a.key.Comparable)
    (comparableB : b.key.Comparable) :
    a.tiesWith b = tiedWith (fun x y => x.key.before y.key) a b := by
  have numberA := isNaN_of_comparable comparableA
  have numberB := isNaN_of_comparable comparableB
  have sameRank : tiedWith (fun x y => x.key.before y.key) a b =
      decide (a.key.rank = b.key.rank) := by
    rcases lt_trichotomy a.key.rank b.key.rank with less | same | greater
    · simp [tiedWith, RankKey.before, less, ne_of_lt less]
    · simp [tiedWith, RankKey.before, same]
    · simp [tiedWith, RankKey.before, greater, ne_of_gt greater, not_lt.mpr greater.le]
  rw [sameRank, key_rank, key_rank]
  simp only [tiesWith, toLex_inj, Prod.mk.injEq, doubleRank_beq numberA numberB, Nat.cast_inj,
    Bool.decide_and, beq_eq_decide, Bool.and_assoc]

end ScoredRoute

/-! ## Ranking routes -/

open ScoredRoute in
/-- Ranking routes whose scores are numbers and whose starts are integers returns the
stable sort by the key (score, interchanges, start): a rearrangement of the routes, none of
which is ahead of an earlier one, with the routes that tie with any route in their input
order. Ranking the result again gives it back, and when no two routes tie, every
rearrangement of the routes ranks to the same list. On each list, the routes tying with a route are
the ones whose rank is its rank. -/
theorem rankRoutes_stable_sort
    (routes : List ScoredRoute)
    (numbers : ∀ r ∈ routes, r.score.score.isNaN = false)
    (starts : ∀ r ∈ routes, ∃ t : Int, r.itinerary.startTime = .int t) :
    ∃ ranked, rankRoutes routes = .ok ranked ∧ ranked.Perm routes ∧
      ranked.Pairwise (fun earlier later => ¬ later.ahead earlier) ∧
      (∀ r ∈ routes,
        ranked.filter (fun x => x.tiesWith r) = routes.filter (fun x => x.tiesWith r)) ∧
      rankRoutes ranked = .ok ranked ∧
      ((routes.Pairwise fun x y => x.tiesWith y = false) →
        ∀ shuffled, shuffled.Perm routes → rankRoutes shuffled = .ok ranked) := by
  have comparable : ∀ r ∈ routes, r.key.Comparable := fun r member =>
    ⟨⟨_, rfl, numbers r member⟩, ⟨_, rfl⟩, starts r member⟩
  obtain ⟨ranked, run⟩ := rankBy_returns comparable
  obtain ⟨sorted, keeps, rearranged⟩ := rankBy_sorted comparable run
  have comparableRanked : ∀ r ∈ ranked, r.key.Comparable :=
    fun r member => comparable r (rearranged.subset member)
  have ties : ∀ (r : ScoredRoute) (rs : List ScoredRoute), r.key.Comparable →
      (∀ x ∈ rs, x.key.Comparable) → rs.filter (fun x => x.tiesWith r) =
        rs.filter (tiedWith (fun x y => x.key.before y.key) r) := by
    intro r rs comparableR comparableRs
    refine List.filter_congr fun x member => ?_
    rw [tiesWith_eq (comparableRs x member) comparableR, tiedWith_comm]
  refine ⟨ranked, run, rearranged, ?_, ?_, rankBy_ranked comparable run, ?_⟩
  · refine sorted.imp_of_mem fun {earlier later} inEarlier inLater notBefore => ?_
    dsimp only at notBefore
    rw [ahead_iff (comparableRanked later inLater) (comparableRanked earlier inEarlier),
      notBefore]
    exact Bool.false_ne_true
  · intro r member
    rw [ties r ranked (comparable r member) comparableRanked,
      ties r routes (comparable r member) comparable]
    exact keeps r (comparable r member)
  · intro apart shuffled reshuffled
    refine rankBy_perm_eq comparable (apart.imp_of_mem fun {x y} inX inY untied => ?_)
      reshuffled run
    rw [← tiesWith_eq (comparable x inX) (comparable y inY)]
    exact untied

/-- Two routes a minute apart in score, both starting at the epoch. -/
theorem rankRoutes_stable_sort_two_routes :
    ∃ ranked, rankRoutes
      [⟨⟨[], .int 0, .int 0, .null, .null⟩, { (default : CorridorScore) with score := 2.0 }, 0⟩,
        ⟨⟨[], .int 0, .int 0, .null, .null⟩, { (default : CorridorScore) with score := 1.0 }, 1⟩] =
      .ok ranked :=
  (rankRoutes_stable_sort _ (by decide) (by simp)).imp fun _ facts => facts.1

end CorridorRank
