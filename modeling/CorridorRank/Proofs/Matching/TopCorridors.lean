import CorridorRank.Proofs.Ranking.Corridors
import CorridorRank.Matching.Match

/-!
# Matching returns the top corridors

`matchJourney` checks a request, asks the planner once for the normalised stations, and
`finish`es the plan it is given: the plan is scored as a batch, the best route of each
corridor is kept, the list is cut at the limit and summarised.

Against a planner with a fixed answer (`fixedPlanner`, which records what it is asked) the
whole run is `matchJourney_fixedPlanner`: a request that fails its checks ends the match with
that fault and asks nothing; one that passes asks exactly once, with trimmed upper-cased
station codes. What a returned match holds is `TopCorridors`, proved by `finish_topCorridors`
from one lemma per stage: the routes returned are the first `limit` best routes of the scored
batch, one per corridor and as many as the limit and the corridors allow, each summarised,
with the batch's failures and the straight line of the plan's endpoints.

How the routes compare needs every rank key to compare (`PlainBatch`): the plan's items are
planner records, whose start times are integers, and no score is not-a-number. A score that
is not a number compares neither below nor above any other, and then the sort leaves routes
where its fixed comparisons put them (`bestPerCorridor_nan_score_keeps_input_order`).
-/

namespace CorridorRank

open Traversal Ranking NaturalMerge Matching

/-! ## Reading and scoring one item -/

/-- A planner record that reads is the itinerary of its own fields. Every path of the reader that
does not fail returns the itinerary read from the record's own fields. -/
theorem Itinerary.ofPlanner_eq_ok
    {raw : Value}
    {it : Itinerary}
    (run : Itinerary.ofPlanner raw = .ok it) :
    ∃ fields legs first last, Itinerary.readOwnFields fields legs first last = .ok it := by
  unfold Itinerary.ofPlanner at run
  split at run
  · simp only [bind, Except.bind, pure, Except.pure, throw, throwThe, MonadExceptOf.throw] at run
    repeat' split at run
    all_goals cases run
    all_goals exact ⟨_, _, _, _, by assumption⟩
  · cases run

/-- The start time read from a planner record's fields is an integer. -/
theorem Itinerary.readOwnFields_startTime
    {fields : List (Text × Value)}
    {legs : List Leg}
    {first last : Leg}
    {it : Itinerary}
    (run : Itinerary.readOwnFields fields legs first last = .ok it) :
    ∃ n, it.startTime = .int n := by
  unfold Itinerary.readOwnFields at run
  obtain ⟨start, -, run⟩ := bind_eq_ok.mp run
  obtain ⟨_, -, run⟩ := bind_eq_ok.mp run
  obtain ⟨_, -, run⟩ := bind_eq_ok.mp run
  obtain ⟨_, -, run⟩ := bind_eq_ok.mp run
  rw [pure_eq_ok] at run
  exact ⟨start, by rw [← run]⟩

theorem BatchItem.evaluate_eq_ok
    {item : BatchItem}
    {origin destination : Value}
    {corridor : Option Value}
    {p : Policy}
    {it : Itinerary}
    {score : CorridorScore}
    (run : item.evaluate origin destination corridor p = .ok (it, score)) :
    item.itinerary = .ok it ∧ scoreItinerary it origin destination corridor p = .ok score := by
  unfold BatchItem.evaluate at run
  obtain ⟨read, reading, run⟩ := bind_eq_ok.mp run
  obtain ⟨scored, scoring, run⟩ := bind_eq_ok.mp run
  obtain ⟨rfl, rfl⟩ := Prod.mk.inj (pure_eq_ok.mp run)
  exact ⟨reading, scoring⟩

/-- A route scored with no corridor given is named by a text, and measures the straight line
between the endpoints it was scored for. With no corridor given, the itinerary's own corridor key
names it. -/
theorem scoreItinerary_none
    {it : Itinerary}
    {origin destination : Value}
    {p : Policy}
    {score : CorridorScore}
    (run : scoreItinerary it origin destination none p = .ok score) :
    (∃ t, score.corridorId = .str t) ∧
      Coordinates.distanceOf origin destination = .ok score.straightLineKm := by
  unfold scoreItinerary at run
  obtain ⟨_, -, run⟩ := bind_eq_ok.mp run
  obtain ⟨_, -, run⟩ := bind_eq_ok.mp run
  obtain ⟨agg, -, run⟩ := bind_eq_ok.mp run
  obtain ⟨straight, distance, run⟩ := bind_eq_ok.mp run
  obtain ⟨_, -, run⟩ := bind_eq_ok.mp run
  obtain ⟨_, -, run⟩ := bind_eq_ok.mp run
  obtain ⟨_, -, run⟩ := bind_eq_ok.mp run
  obtain ⟨_, -, run⟩ := bind_eq_ok.mp run
  obtain ⟨_, -, run⟩ := bind_eq_ok.mp run
  simp only at run
  obtain ⟨corridorId, named, run⟩ := bind_eq_ok.mp run
  obtain ⟨_, -, run⟩ := bind_eq_ok.mp run
  obtain ⟨_, -, run⟩ := bind_eq_ok.mp run
  obtain ⟨_, -, run⟩ := bind_eq_ok.mp run
  obtain ⟨_, -, run⟩ := bind_eq_ok.mp run
  rw [pure_eq_ok] at run
  subst run
  refine ⟨?_, distance⟩
  cases key : it.corridorKey with
  | error => rw [key] at named; cases named
  | ok t => rw [key] at named; cases named; exact ⟨t, rfl⟩

/-! ## The scored batch -/

theorem mem_scoredRoutes
    {origin destination : Value}
    {corridor : Option Value}
    {p : Policy}
    {items : List BatchItem}
    {r : ScoredRoute}
    (member : r ∈ scoredRoutes origin destination corridor p items) :
    ∃ item ∈ items,
      item.evaluate origin destination corridor p = .ok (r.itinerary, r.score) := by
  obtain ⟨⟨item, position⟩, inItems, found⟩ := List.mem_filterMap.mp member
  have listed : item ∈ items := by
    obtain ⟨-, -, same⟩ := List.mem_zipIdx inItems
    rw [same]
    exact List.getElem_mem _
  simp only [BatchItem.route?] at found
  split at found
  · next it score evaluated =>
    cases found
    exact ⟨item, listed, evaluated⟩
  · cases found

section Batch

variable {items : List BatchItem} {origin destination : Value} {p : Policy}
  {corridor : Option Value} {batch : BatchResult}

/-- Every ranked route of a batch that returns is how one of its items reads and scores. -/
theorem scoreBatch_ranked_scored
    (returned : scoreBatch items origin destination p corridor = .ok batch)
    {r : ScoredRoute}
    (member : r ∈ batch.ranked) :
    ∃ item ∈ items, item.evaluate origin destination corridor p = .ok (r.itinerary, r.score) :=
  mem_scoredRoutes ((rankBy_perm (scoreBatch_eq_ok returned).2.2).subset member)

/-- With no corridor given, every ranked route of a batch is named by a text, and measures
the straight line between the batch's endpoints. -/
theorem scoreBatch_none_ranked
    (returned : scoreBatch items origin destination p none = .ok batch)
    {r : ScoredRoute}
    (member : r ∈ batch.ranked) :
    (∃ t, r.corridor = .str t) ∧
      Coordinates.distanceOf origin destination = .ok r.score.straightLineKm := by
  obtain ⟨item, -, evaluated⟩ := scoreBatch_ranked_scored returned member
  exact scoreItinerary_none (BatchItem.evaluate_eq_ok evaluated).2

end Batch

/-- A plan whose items are all planner records, of which none scores to not-a-number. -/
structure PlainBatch (plan : Plan) (batch : BatchResult) : Prop where
  records : ∀ item ∈ plan.items, ∃ raw, item = .record raw
  numbers : ∀ r ∈ batch.ranked, r.score.score.isNaN = false

/-- The routes of a plain batch have rank keys that all compare: a number for score, and
integers for interchanges and start time. -/
theorem PlainBatch.comparable
    {plan : Plan}
    {p : Policy}
    {batch : BatchResult}
    (plain : PlainBatch plan batch)
    (scored : scoreBatch plan.items plan.origin plan.destination p none = .ok batch) :
    ComparableKeys ScoredRoute.key batch.ranked := by
  intro r member
  obtain ⟨item, inItems, evaluated⟩ := scoreBatch_ranked_scored scored member
  obtain ⟨raw, rfl⟩ := plain.records item inItems
  obtain ⟨_, _, _, _, read⟩ := Itinerary.ofPlanner_eq_ok (BatchItem.evaluate_eq_ok evaluated).1
  exact ⟨⟨_, rfl, plain.numbers r member⟩, ⟨_, rfl⟩,
    Itinerary.readOwnFields_startTime read⟩

/-! ## The stages of a match -/

/-- A limit that is a natural number keeps that many routes from the front. -/
theorem takeLimit_int
    {α : Type}
    (n : Nat)
    (xs : List α) :
    takeLimit (.int n) xs = .ok (xs.take n) := by
  simp [takeLimit, Value.count?]

theorem RouteSummary.ofLeg_destination
    {leg : Leg}
    {summary : LegSummary}
    (run : RouteSummary.ofLeg leg = .ok summary) :
    summary.destination = leg.destination.name := by
  unfold RouteSummary.ofLeg at run
  obtain ⟨_, -, run⟩ := bind_eq_ok.mp run
  obtain ⟨_, -, run⟩ := bind_eq_ok.mp run
  obtain ⟨_, -, run⟩ := bind_eq_ok.mp run
  rw [pure_eq_ok] at run
  rw [← run]

/-- A route summary is direct when the route has one leg, and otherwise changes at the first
leg's destination. There is one leg summary for each leg, the first naming the first leg's
destination. -/
theorem RouteSummary.ofRoute_shape
    {r : ScoredRoute}
    {s : RouteSummary}
    (run : RouteSummary.ofRoute r = .ok s) :
    s.isDirect = (r.itinerary.legs.length == 1) ∧
      s.interchange = if r.itinerary.legs.length = 1 then none
        else r.itinerary.legs.head?.map (·.destination.name) := by
  unfold RouteSummary.ofRoute at run
  obtain ⟨legs, summarised, run⟩ := bind_eq_ok.mp run
  obtain ⟨_, -, run⟩ := bind_eq_ok.mp run
  obtain ⟨_, -, run⟩ := bind_eq_ok.mp run
  have paired := (mapM_eq_ok_iff _ _ _).mp summarised
  simp only [bind, Except.bind, pure, Except.pure, throw, throwThe, MonadExceptOf.throw] at run
  rw [paired.length_eq]
  cases legs with
  | nil => simp at run
  | cons summary summaries =>
    obtain ⟨leg, rest, first, -, listed⟩ := List.forall₂_cons_right_iff.mp paired
    cases summaries with
    | nil =>
      simp at run
      simp [← run]
    | cons second more =>
      simp at run
      simp [← run, listed, RouteSummary.ofLeg_destination first]

/-- What `finish` computes, stage by stage. -/
theorem finish_eq_ok
    {plan : Plan}
    {p : Policy}
    {limit : Value}
    {result : MatchResult}
    (run : finish plan p limit = .ok result) :
    ∃ batch best, scoreBatch plan.items plan.origin plan.destination p none = .ok batch ∧
      bestPerCorridor batch.ranked = .ok best ∧ takeLimit limit best = .ok result.ranked ∧
      result.ranked.mapM RouteSummary.ofRoute = .ok result.routes ∧
      result.failures = batch.failures ∧
      result.straightLineKm = (result.ranked.head?.map (·.score.straightLineKm)).getD 0.0 := by
  unfold finish at run
  obtain ⟨batch, scored, run⟩ := bind_eq_ok.mp run
  obtain ⟨best, selected, run⟩ := bind_eq_ok.mp run
  obtain ⟨kept, cut, run⟩ := bind_eq_ok.mp run
  obtain ⟨routes, summarised, run⟩ := bind_eq_ok.mp run
  rw [pure_eq_ok] at run
  subst run
  refine ⟨batch, best, scored, selected, cut, summarised, rfl, ?_⟩
  cases kept <;> rfl

/-- A station that passes its check is a text. A falsy value is rejected at once, and any other must
be a text to be trimmed. -/
theorem JourneyRequest.checkCode_text
    {label : String}
    {v : Value}
    (checked : JourneyRequest.checkCode label v = .ok ()) :
    ∃ t, v = .str t := by
  unfold JourneyRequest.checkCode at checked
  simp only at checked
  split at checked
  · cases checked
  obtain ⟨code, normal, -⟩ := bind_eq_ok.mp checked
  unfold JourneyRequest.normalCode at normal
  split at normal
  · exact ⟨_, rfl⟩
  · cases normal

/-- A request that passes its checks has text stations, and is prepared by trimming and
upper-casing them. -/
theorem prepare_eq_ok
    {req : JourneyRequest}
    (valid : req.validate = .ok ()) :
    ∃ o d, req.origin = .str o ∧ req.destination = .str d ∧
      prepare req = .ok
        { req with origin := .str (Text.upper (Text.strip o)),
                   destination := .str (Text.upper (Text.strip d)) } := by
  have checks := valid
  unfold JourneyRequest.validate at checks
  obtain ⟨_, originChecked, checks⟩ := bind_eq_ok.mp checks
  obtain ⟨_, destinationChecked, -⟩ := bind_eq_ok.mp checks
  obtain ⟨o, origin⟩ := JourneyRequest.checkCode_text originChecked
  obtain ⟨d, destination⟩ := JourneyRequest.checkCode_text destinationChecked
  refine ⟨o, d, origin, destination, ?_⟩
  simp [prepare, valid, JourneyRequest.normalized, JourneyRequest.normalCode, origin, destination,
    bind, Except.bind, pure, Except.pure]

theorem prepare_eq_error
    {req : JourneyRequest}
    {fault : Fault}
    (invalid : req.validate = .error fault) :
    prepare req = .error fault := by
  simp [prepare, invalid, bind, Except.bind]

theorem liftFault_run
    {σ α : Type}
    (x : Except Fault α)
    (s : σ) :
    (liftFault x : ExceptT Fault (StateM σ) α).run.run s = (x, s) := by
  cases x <;> rfl

/-- A match against a planner with a fixed answer: a request that cannot be prepared ends it
and asks nothing; otherwise the planner is asked once, for the prepared request, and its
answer is finished. -/
theorem matchJourney_fixedPlanner
    (answer : Except Fault Plan)
    (req : JourneyRequest)
    (p : Policy)
    (limit correlation : Value)
    (asked : List PlanQuery) :
    (matchJourney (fixedPlanner answer) req p limit correlation).run.run asked =
      match prepare req with
      | .error fault => (.error fault, asked)
      | .ok q => (answer >>= fun plan => finish plan p limit,
          asked ++ [⟨q.origin, q.destination, q.date, q.time, correlation⟩]) := by
  unfold matchJourney
  cases prepare req with
  | error fault => rfl
  | ok q =>
    cases answer with
    | error fault => rfl
    | ok plan => exact liftFault_run (finish plan p limit) _

/-! ## What a match returns -/

/-- What a match returns, read against the batch `batch` its plan scores to and the best
route `best` of each corridor of that batch. -/
structure TopCorridors (plan : Plan) (p : Policy) (limit : Nat) (batch : BatchResult)
    (best : List ScoredRoute) (result : MatchResult) : Prop where
  /-- The plan's itineraries score to the batch, with no corridor given. -/
  scored : scoreBatch plan.items plan.origin plan.destination p none = .ok batch
  /-- The best route of each corridor of the batch, ranked. -/
  selected : bestPerCorridor batch.ranked = .ok best
  /-- The routes returned are the first `limit` of those. -/
  cut : result.ranked = best.take limit
  /-- No two routes returned share a corridor. -/
  distinct : (result.ranked.map ScoredRoute.corridor).Nodup
  /-- As many routes as the limit allows and the batch has corridors. -/
  count : result.ranked.length = min limit (keyCount ScoredRoute.corridor batch.ranked)
  /-- Each route returned is one the batch scored. -/
  scoredRoute : ∀ r ∈ result.ranked, r ∈ batch.ranked
  /-- Each route returned is summarised in turn: direct when it has one leg, and otherwise
  changing at the first leg's destination. -/
  summaries : List.Forall₂ (fun r s => RouteSummary.ofRoute r = .ok s ∧
      s.isDirect = (r.itinerary.legs.length == 1) ∧
      s.interchange = if r.itinerary.legs.length = 1 then none
        else r.itinerary.legs.head?.map (·.destination.name)) result.ranked result.routes
  /-- The failures are the batch's. -/
  failures : result.failures = batch.failures
  /-- With nothing returned the straight line is `0.0`, -/
  nothingMatched : result.ranked = [] → result.straightLineKm = 0.0
  /-- and otherwise it is the straight-line distance of the plan's endpoints. -/
  straightLine : result.ranked ≠ [] →
    Coordinates.distanceOf plan.origin plan.destination = .ok result.straightLineKm
  /-- When all rank keys compare, no route of a returned route's corridor comes strictly
  before it, -/
  least : PlainBatch plan batch → ∀ r ∈ result.ranked, ∀ x ∈ batch.ranked,
    x.corridor = r.corridor → RankKey.lt x.key r.key = .ok false
  /-- and no route of a corridor left out does either. -/
  top : PlainBatch plan batch → ∀ r ∈ result.ranked, ∀ x ∈ batch.ranked,
    x.corridor ∉ result.ranked.map ScoredRoute.corridor → RankKey.lt x.key r.key = .ok false

/-- A plan finished with a natural limit returns its top corridors. Once all keys compare, a route
that ranks at least as a returned one is not before it; the straight line reported is the first
route's, which measures the plan's endpoints. -/
theorem finish_topCorridors
    {plan : Plan}
    {p : Policy}
    {limit : Nat}
    {result : MatchResult}
    (run : finish plan p (.int limit) = .ok result) :
    ∃ batch best, TopCorridors plan p limit batch best result := by
  obtain ⟨batch, best, scored, selected, cut, summarised, failures, straight⟩ :=
    finish_eq_ok run
  rw [takeLimit_int, Except.ok.injEq] at cut
  have texts : TextKeys ScoredRoute.corridor batch.ranked :=
    fun r member => (scoreBatch_none_ranked scored member).1
  obtain ⟨distinct, fromBatch, -, count⟩ := bestPerCorridor_corridors texts selected
  have kept : ∀ r ∈ result.ranked, r ∈ batch.ranked :=
    fun r member => fromBatch r (List.mem_of_mem_take (cut ▸ member))
  have notBefore : PlainBatch plan batch → ∀ r ∈ result.ranked, ∀ x ∈ batch.ranked,
      r.key.rank ≤ x.key.rank → RankKey.lt x.key r.key = .ok false :=
    fun plain r member x inBatch atMost => RankKey.lt_eq_false
      (plain.comparable scored x inBatch) (plain.comparable scored r (kept r member)) atMost
  refine ⟨batch, best, ⟨scored, selected, cut.symm, ?distinct, ?count, kept, ?summaries,
    failures, ?nothing, ?straight, ?least, ?top⟩⟩
  case distinct =>
    rw [← cut, List.map_take]
    exact List.Nodup.sublist (List.take_sublist _ _) distinct
  case count => rw [← cut, List.length_take, count]
  case summaries =>
    exact ((mapM_eq_ok_iff _ _ _).mp summarised).imp fun r s made =>
      ⟨made, RouteSummary.ofRoute_shape made⟩
  case nothing =>
    intro empty
    rw [straight, empty]
    rfl
  case straight =>
    intro nonempty
    obtain ⟨first, rest, listed⟩ := List.exists_cons_of_ne_nil nonempty
    rw [straight, listed]
    exact (scoreBatch_none_ranked scored (kept first (listed ▸ List.mem_cons_self))).2
  case least =>
    intro plain r member x inBatch same
    refine notBefore plain r member x inBatch ?_
    exact (bestPerCorridor_least texts (plain.comparable scored) selected).2 r
      (List.mem_of_mem_take (cut ▸ member)) x inBatch same
  case top =>
    intro plain r member x inBatch missing
    refine notBefore plain r member x inBatch ?_
    rw [← cut] at member missing
    exact bestPerCorridor_take_top texts (plain.comparable scored) selected limit r member x
      inBatch missing

/-- Matching a journey request against a planner that answers once: a request that fails its
checks ends the match with that fault and asks nothing; one that passes asks exactly once, with
the trimmed upper-cased station codes; and a match that returns gives the top corridors of the
planner's plan (`TopCorridors`). -/
theorem matchJourney_returns_top_corridors
    (answer : Except Fault Plan)
    (req : JourneyRequest)
    (p : Policy)
    (limit : Nat)
    (correlation : Value)
    (asked : List PlanQuery) :
    let run := (matchJourney (fixedPlanner answer) req p (.int limit) correlation).run.run asked
    (∀ fault, req.validate = .error fault → run = (.error fault, asked)) ∧
      (req.validate = .ok () → ∃ o d, req.origin = .str o ∧ req.destination = .str d ∧
        run.2 = asked ++ [⟨.str (Text.upper (Text.strip o)), .str (Text.upper (Text.strip d)),
          req.date, req.time, correlation⟩]) ∧
      ∀ result, run.1 = .ok result →
        ∃ plan batch best, answer = .ok plan ∧ TopCorridors plan p limit batch best result := by
  intro run
  refine ⟨fun fault invalid => ?_, fun valid => ?_, fun result returned => ?_⟩
  · simp only [run, matchJourney_fixedPlanner, prepare_eq_error invalid]
  · obtain ⟨o, d, origin, destination, prepared⟩ := prepare_eq_ok valid
    refine ⟨o, d, origin, destination, ?_⟩
    simp only [run, matchJourney_fixedPlanner, prepared]
  · cases checked : req.validate with
    | error fault =>
      simp [run, matchJourney_fixedPlanner, prepare_eq_error checked] at returned
    | ok u =>
      obtain ⟨o, d, -, -, prepared⟩ := prepare_eq_ok checked
      simp only [run, matchJourney_fixedPlanner, prepared] at returned
      obtain ⟨plan, answered, finished⟩ := bind_eq_ok.mp returned
      obtain ⟨batch, best, top⟩ := finish_topCorridors finished
      exact ⟨plan, batch, best, answered, top⟩

/-! ## A score that is not a number -/

/-- A route as the ranking sees it: its corridor, its score, no interchanges, start time `0`,
and its position. -/
def scoredOnly
    (corridor : String)
    (score : Float)
    (index : Nat) :
    ScoredRoute :=
  { itinerary := { legs := [], startTime := .int 0, endTime := .int 0 },
    score := { (default : CorridorScore) with
               corridorId := .str (Text.ofString corridor), score := score },
    index := index }

/-- With a score that is not a number among them, the best routes of three corridors stay in
input order, though the third route's key comes strictly before the first's: cut at one
route, the match would return the first. -/
theorem bestPerCorridor_nan_score_keeps_input_order :
    (List.map ScoredRoute.index <$> bestPerCorridor
        [scoredOnly "A" 5.0 0, scoredOnly "B" (0.0 / 0.0) 1, scoredOnly "C" 1.0 2]).toOption =
        some [0, 1, 2] ∧
      RankKey.lt (scoredOnly "C" 1.0 2).key (scoredOnly "A" 5.0 0).key = .ok true :=
  ⟨by decide +kernel, by rfl⟩

end CorridorRank
