import CorridorRank.Proofs.Scoring.Isolation
import CorridorRank.Proofs.Sorting.Permutation

/-!
# A batch accounts for every item

A batch that returns has scored every item or recorded it as a failure, and nothing else:
each position of the input turns up exactly once among the indices of the ranked routes and
of the failures. The failures come in input order, each with its item and the scoring fault
that reading and scoring that item alone raises; the ranked routes are the ranking of the
routes that scored, taken in input order. The summary says all routes were evaluated exactly
when there is no failure.

Main statement: `scoreBatch_accounts_for_every_item`. It rests on three facts: an item that
does not escape scores or fails, never both (`BatchItem.scored_or_failed`); ranking only
rearranges (`rankBy_perm`, from `NaturalMerge.sortBy_perm`); and a count written in digits
never begins like "All" (`counted_ne_all`).
-/

namespace CorridorRank

open Traversal

/-! ## Ranking rearranges -/

/-- Ranking returns the items it was given, rearranged. -/
theorem rankBy_perm
    {α : Type}
    [Inhabited α]
    {key : α → RankKey}
    {items ranked : List α}
    (run : rankBy key items = .ok ranked) :
    ranked.Perm items := by
  unfold rankBy at run
  cases sorted : NaturalMerge.sortBy (fun a b => RankKey.lt (key a) (key b)) items.toArray with
  | error fault =>
      rw [sorted] at run
      cases run
  | ok arranged =>
      rw [sorted] at run
      cases run
      simpa using NaturalMerge.sortBy_perm _ sorted

/-! ## Each item once -/

section Items

variable {origin destination : Value} {corridor : Option Value} {p : Policy}

/-- An item is recorded as a failure exactly when reading and scoring it raises a scoring
fault; the failure names the item, its position and the fault. -/
theorem BatchItem.failure?_eq_some
    {item : BatchItem}
    {position : Nat}
    {failure : Failure} :
    item.failure? origin destination corridor p position = some failure ↔
      failure.index = position ∧ failure.item = item ∧
        item.evaluate origin destination corridor p = .error (.scoring failure.cause) := by
  obtain ⟨index, recorded, cause⟩ := failure
  unfold BatchItem.failure?
  cases evaluated : item.evaluate origin destination corridor p with
  | ok value =>
      simp
  | error raised =>
      cases raised with
      | scoring raisedCause =>
          simp only [Option.some.injEq, Failure.mk.injEq, Except.error.injEq, Fault.scoring.injEq]
          constructor
          · rintro ⟨rfl, rfl, rfl⟩
            exact ⟨rfl, rfl, rfl⟩
          · rintro ⟨rfl, rfl, rfl⟩
            exact ⟨rfl, rfl, rfl⟩
      | _ =>
          simp

/-- An item that does not escape either scores or is recorded as a failure, never both, and
its route or failure carries its position. Only a scoring fault can be raised by an item that does
not escape. -/
theorem BatchItem.scored_or_failed
    {item : BatchItem}
    (position : Nat)
    (kept : ∀ fault, ¬ item.Escapes origin destination corridor p fault) :
    (∃ route, item.route? origin destination corridor p position = some route ∧
        item.failure? origin destination corridor p position = none ∧ route.index = position) ∨
      (∃ failure, item.route? origin destination corridor p position = none ∧
        item.failure? origin destination corridor p position = some failure ∧
        failure.index = position) := by
  unfold BatchItem.route? BatchItem.failure?
  cases evaluated : item.evaluate origin destination corridor p with
  | ok scored =>
      exact Or.inl ⟨_, rfl, rfl, rfl⟩
  | error raised =>
      cases raised with
      | scoring cause =>
          exact Or.inr ⟨_, rfl, rfl, rfl⟩
      | _ =>
          exact absurd ⟨evaluated, fun cause => nofun⟩ (kept _)

/-- The positions of the routes and of the failures of items that do not escape are the
positions of the items, each once. A scored item's position leads the routes, a failed one's the
failures. -/
theorem indices_partition
    (items : List BatchItem)
    (start : Nat)
    (kept : ∀ item ∈ items, ∀ fault, ¬ item.Escapes origin destination corridor p fault) :
    (((items.zipIdx start).filterMap fun (item, position) =>
          item.route? origin destination corridor p position).map ScoredRoute.index ++
        ((items.zipIdx start).filterMap fun (item, position) =>
          item.failure? origin destination corridor p position).map Failure.index).Perm
      (List.range' start items.length) := by
  induction items generalizing start with
  | nil =>
      simp
  | cons item rest ih =>
      have restPart := ih (start + 1) fun other member => kept other (by simp [member])
      simp only [List.zipIdx_cons, List.filterMap_cons, List.length_cons, List.range'_succ]
      rcases BatchItem.scored_or_failed start (kept item (by simp)) with
        ⟨route, scored, notFailed, indexed⟩ | ⟨failure, notScored, failed, indexed⟩
      · simp only [scored, notFailed, List.map_cons, indexed, List.cons_append]
        exact restPart.cons start
      · simp only [notScored, failed, List.map_cons, indexed]
        exact List.perm_middle.trans (restPart.cons start)

/-- Positions in an enumeration increase. -/
theorem zipIdx_pairwise_lt
    {α : Type}
    (items : List α)
    (start : Nat) :
    (items.zipIdx start).Pairwise fun earlier later => earlier.2 < later.2 := by
  induction items generalizing start with
  | nil =>
      exact List.Pairwise.nil
  | cons item rest ih =>
      rw [List.zipIdx_cons, List.pairwise_cons]
      refine ⟨fun later member => ?_, ih (start + 1)⟩
      have := (List.mem_zipIdx member).1
      omega

/-- Failures come in input order. -/
theorem scoringFailures_pairwise
    (items : List BatchItem) :
    (scoringFailures origin destination corridor p items).Pairwise
      fun earlier later => earlier.index < later.index := by
  unfold scoringFailures
  rw [List.pairwise_filterMap]
  refine (zipIdx_pairwise_lt items 0).imp ?_
  rintro ⟨item, position⟩ ⟨item', position'⟩ before failure recorded failure' recorded'
  rw [(BatchItem.failure?_eq_some.mp recorded).1, (BatchItem.failure?_eq_some.mp recorded').1]
  exact before

/-- A failure names its item's position and the scoring fault that reading and scoring the
item raises. -/
theorem mem_scoringFailures
    {items : List BatchItem}
    {failure : Failure}
    (member : failure ∈ scoringFailures origin destination corridor p items) :
    items[failure.index]? = some failure.item ∧
      failure.item.evaluate origin destination corridor p = .error (.scoring failure.cause) := by
  unfold scoringFailures at member
  obtain ⟨⟨item, position⟩, listed, recorded⟩ := List.mem_filterMap.mp member
  have located := List.mem_zipIdx_iff_getElem?.mp listed
  obtain ⟨indexed, itemized, raised⟩ := BatchItem.failure?_eq_some.mp recorded
  rw [indexed, itemized]
  exact ⟨located, raised⟩

end Items

/-! ## The summary -/

/-- A count written in digits never begins like "All". -/
theorem counted_ne_all
    (count : Nat)
    (rest more : String) :
    toString count ++ rest ≠ "All " ++ more := by
  intro same
  obtain ⟨digit, digits, spelled⟩ :=
    List.exists_cons_of_ne_nil (Nat.toDigits_ne_nil (b := 10) (n := count))
  have isDigit : digit.isDigit :=
    Nat.isDigit_of_mem_toDigits (by decide) (by decide) (spelled ▸ List.mem_cons_self)
  have heads := congrArg (fun text : String => text.toList.head?) same
  simp [String.toList_append, Nat.toString_eq_repr, Nat.toList_repr, spelled] at heads
  rw [heads] at isDigit
  exact absurd isDigit (by decide)

/-- The summary says every route was evaluated exactly when nothing failed. -/
theorem BatchResult.summary_eq_all_iff
    (result : BatchResult) :
    result.summary = "All " ++ toString result.total ++ " routes evaluated" ↔
      result.failures = [] := by
  unfold BatchResult.summary
  split
  next empty =>
      simpa using empty
  next nonempty =>
      simp only [String.append_assoc]
      constructor
      · intro same
        exact absurd same (counted_ne_all _ _ _)
      · intro none
        simp [none] at nonempty

/-! ## The whole batch -/

/-- A batch that returns has no escaping item, its failures are those of the items, and its
ranked routes are the ranking of the routes that scored. -/
theorem scoreBatch_eq_ok
    {items : List BatchItem}
    {origin destination : Value}
    {p : Policy}
    {corridor : Option Value}
    {result : BatchResult}
    (returned : scoreBatch items origin destination p corridor = .ok result) :
    (∀ item ∈ items, ∀ fault, ¬ item.Escapes origin destination corridor p fault) ∧
      result.failures = scoringFailures origin destination corridor p items ∧
      rankRoutes (scoredRoutes origin destination corridor p items) = .ok result.ranked := by
  rw [scoreBatch_eq_inline] at returned
  obtain ⟨_, validated, returned⟩ := bind_eq_ok.mp returned
  obtain ⟨o, originRead, returned⟩ := bind_eq_ok.mp returned
  obtain ⟨d, destinationRead, returned⟩ := bind_eq_ok.mp returned
  obtain ⟨outcomes, scored, returned⟩ := bind_eq_ok.mp returned
  obtain ⟨ranked, ranking, returned⟩ := bind_eq_ok.mp returned
  rw [pure_eq_ok] at returned
  subst returned
  obtain ⟨routes, failures⟩ := outcomes_partition ((mapM_eq_ok_iff _ _ _).mp scored)
  refine ⟨fun item member fault => ?_, ?_, ?_⟩
  · rw [← BatchItem.escapes_checked originRead destinationRead]
    exact outcomes_ok_not_escapes scored member fault
  · rw [failures, ← scoringFailures_checked originRead destinationRead corridor p]
    rfl
  · rw [← scoredRoutes_checked originRead destinationRead corridor p]
    rw [routes] at ranking
    exact ranking

/-- A batch that returns accounts for every item: each input position is the index of
exactly one ranked route or failure, so the total is the number of items; the failures come
in input order, each carrying its item and the scoring fault that reading and scoring that
item alone raises; the ranked routes are the ranking of the routes that scored, in input
order, each with its itinerary and score; and the summary says all routes were evaluated
exactly when nothing failed. The ranked routes are the scored ones rearranged, and so are their
indices. -/
theorem scoreBatch_accounts_for_every_item
    {items : List BatchItem}
    {origin destination : Value}
    {p : Policy}
    {corridor : Option Value}
    {result : BatchResult}
    (returned : scoreBatch items origin destination p corridor = .ok result) :
    (result.ranked.map ScoredRoute.index ++ result.failures.map Failure.index).Perm
        (List.range items.length) ∧
      result.total = items.length ∧
      (result.failures.Pairwise (fun earlier later => earlier.index < later.index) ∧
        ∀ failure ∈ result.failures, items[failure.index]? = some failure.item ∧
          failure.item.evaluate origin destination corridor p =
            .error (.scoring failure.cause)) ∧
      rankRoutes (scoredRoutes origin destination corridor p items) = .ok result.ranked ∧
      (result.summary = "All " ++ toString items.length ++ " routes evaluated" ↔
        result.failures = []) := by
  obtain ⟨kept, failures, ranking⟩ := scoreBatch_eq_ok returned
  have indices : (result.ranked.map ScoredRoute.index ++ result.failures.map Failure.index).Perm
      (List.range items.length) := by
    rw [List.range_eq_range', failures]
    exact ((rankBy_perm ranking).map _).append_right _ |>.trans (indices_partition items 0 kept)
  have total : result.total = items.length := by
    simpa [BatchResult.total] using indices.length_eq
  refine ⟨indices, total, ⟨?_, fun failure member => ?_⟩, ranking, ?_⟩
  · rw [failures]
    exact scoringFailures_pairwise items
  · rw [failures] at member
    exact mem_scoringFailures member
  · rw [← total]
    exact result.summary_eq_all_iff

/-- Three planner records between two equal points: an hour-long leg, no legs at all, and a
half-hour leg. The record with no legs is the one failure; the two others are ranked, the
shorter first, so the indices of the ranking and of the failures interleave and together
cover every position once. -/
theorem accounts_for_scored_and_failed_records :
    let here : Value := .list [.int 51, .int 0]
    let items : List BatchItem := [
      .record (.dict [("legs", .list [.dict [("distance", .int 40000), ("startTime", .int 0),
        ("endTime", .int 3600000)]])]),
      .record (.dict [("legs", .list [])]),
      .record (.dict [("legs", .list [.dict [("distance", .int 20000), ("startTime", .int 0),
        ("endTime", .int 1800000)]])])]
    ∃ result : BatchResult,
      scoreBatch items here here {} none = .ok result ∧
      result.ranked.map ScoredRoute.index = [2, 0] ∧
      result.failures.map Failure.index = [1] ∧
      (result.ranked.map ScoredRoute.index ++ result.failures.map Failure.index).Perm
          (List.range items.length) ∧
        result.total = items.length ∧
        (result.failures.Pairwise (fun earlier later => earlier.index < later.index) ∧
          ∀ failure ∈ result.failures, items[failure.index]? = some failure.item ∧
            failure.item.evaluate here here none {} = .error (.scoring failure.cause)) ∧
        rankRoutes (scoredRoutes here here none {} items) = .ok result.ranked ∧
        (result.summary = "All " ++ toString items.length ++ " routes evaluated" ↔
          result.failures = []) := by
  intro here items
  have evaluated : ∃ result, scoreBatch items here here {} none = .ok result ∧
      (result.ranked.map ScoredRoute.index = [2, 0] ∧
        result.failures.map Failure.index = [1]) :=
    exists_ok_of_any (by decide +kernel)
  obtain ⟨result, returned, ranked, failed⟩ := evaluated
  exact ⟨result, returned, ranked, failed, scoreBatch_accounts_for_every_item returned⟩

end CorridorRank
