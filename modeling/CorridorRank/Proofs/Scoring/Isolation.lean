import CorridorRank.Proofs.Scoring.FanOut

/-!
# What a batch isolates and what escapes it

A batch checks its policy, then its origin, then its destination, once for all items. After
that each item is read and scored on its own, and exactly the scoring faults are caught: an
item whose evaluation raises a scoring fault becomes a failure, an item whose evaluation
raises any other fault escapes (`BatchItem.Escapes`) and stops the batch. The routes that
scored are then ranked, and the ranking compares their rank keys.

Main statement: `scoreBatch_eq_error_iff`. A batch fails exactly when the policy fails its
check, or the origin, or the destination, in that order; or, all three passing, when an item
escapes, with the fault of the first escaping item in input order; or, no item escaping,
when ranking the scored routes fails. The empty batch is no exception: it fails exactly
when one of the three checks does.

What an item is evaluated against is the checked endpoints; these score exactly as the
endpoints given do (`BatchItem.evaluate_checked`), so every statement here is about the
endpoints the caller passed.
-/

namespace CorridorRank

open Traversal

/-! ## Checked endpoints -/

/-- Endpoints that read are in range. The pair, the two conversions and the two range checks each
either fail or go on. -/
theorem Coordinates.ofValue_ranges
    {point : Value}
    {checked : Coordinates}
    (read : Coordinates.ofValue point = .ok checked) :
    (-90.0 ≤ checked.lat && checked.lat ≤ 90.0) = true ∧
      (-180.0 ≤ checked.lon && checked.lon ≤ 180.0) = true := by
  unfold Coordinates.ofValue at read
  simp only [bind, Except.bind, throw, throwThe, MonadExceptOf.throw, pure,
    Except.pure] at read
  split at read
  · split at read
    · cases read
    · split at read
      · cases read
      · split at read
        · cases read
        · split at read
          · cases read
          · cases read
            simp_all
  · cases read

/-- Checked endpoints, passed on as a pair of doubles, read back as themselves. -/
theorem Coordinates.ofValue_toValue
    {point : Value}
    {checked : Coordinates}
    (read : Coordinates.ofValue point = .ok checked) :
    Coordinates.ofValue checked.toValue = .ok checked := by
  obtain ⟨latitudeIn, longitudeIn⟩ := Coordinates.ofValue_ranges read
  simp only [Coordinates.ofValue, Coordinates.toValue, Coordinates.pairOf?, Value.toFloat,
    Value.num?, Num.toFloat, bind, Except.bind, pure, Except.pure, throw, throwThe,
    MonadExceptOf.throw]
  simp only [latitudeIn, longitudeIn, Bool.not_true]
  rfl

/-- An item scores against checked endpoints as against the endpoints they were read from. -/
theorem BatchItem.evaluate_checked
    {origin destination : Value}
    {o d : Coordinates}
    (originRead : Coordinates.ofValue origin = .ok o)
    (destinationRead : Coordinates.ofValue destination = .ok d)
    (corridor : Option Value)
    (p : Policy)
    (item : BatchItem) :
    item.evaluate o.toValue d.toValue corridor p =
      item.evaluate origin destination corridor p := by
  have distance :
      Coordinates.distanceOf o.toValue d.toValue = Coordinates.distanceOf origin destination := by
    simp only [Coordinates.distanceOf, Coordinates.ofValue_toValue originRead,
      Coordinates.ofValue_toValue destinationRead, originRead, destinationRead]
  simp only [BatchItem.evaluate, scoreItinerary, distance]

/-! ## One item -/

/-- An item escapes its batch with `fault` when reading and scoring it alone raises `fault`,
and `fault` is not a scoring fault. -/
def BatchItem.Escapes
    (origin destination : Value)
    (corridor : Option Value)
    (p : Policy)
    (item : BatchItem)
    (fault : Fault) :
    Prop :=
  item.evaluate origin destination corridor p = .error fault ∧ ∀ cause, fault ≠ .scoring cause

/-- The route an item at `position` scores, if reading and scoring it succeeds. -/
def BatchItem.route?
    (origin destination : Value)
    (corridor : Option Value)
    (p : Policy)
    (position : Nat)
    (item : BatchItem) :
    Option ScoredRoute :=
  match item.evaluate origin destination corridor p with
  | .ok (it, score) => some ⟨it, score, position⟩
  | .error _ => none

/-- The failure an item at `position` is recorded as, if reading and scoring it raises a
scoring fault. -/
def BatchItem.failure?
    (origin destination : Value)
    (corridor : Option Value)
    (p : Policy)
    (position : Nat)
    (item : BatchItem) :
    Option Failure :=
  match item.evaluate origin destination corridor p with
  | .error (.scoring cause) => some ⟨position, item, cause⟩
  | _ => none

/-- The routes of the items that score, in input order, each with its position. -/
def scoredRoutes
    (origin destination : Value)
    (corridor : Option Value)
    (p : Policy)
    (items : List BatchItem) :
    List ScoredRoute :=
  items.zipIdx.filterMap fun (item, position) => item.route? origin destination corridor p position

/-- The failures of the items whose reading or scoring raises a scoring fault, in input
order. -/
def scoringFailures
    (origin destination : Value)
    (corridor : Option Value)
    (p : Policy)
    (items : List BatchItem) :
    List Failure :=
  items.zipIdx.filterMap fun (item, position) =>
    item.failure? origin destination corridor p position

section Item

variable {origin destination : Value} {corridor : Option Value} {p : Policy}

/-- Scoring one item fails exactly when the item escapes. A scoring fault is caught as a failure,
and any other fault is passed on. -/
theorem scoreOne_eq_error_iff
    (position : Nat)
    (item : BatchItem)
    (fault : Fault) :
    scoreOne origin destination corridor p position item = .error fault ↔
      item.Escapes origin destination corridor p fault := by
  unfold scoreOne BatchItem.Escapes
  cases evaluated : item.evaluate origin destination corridor p with
  | ok value =>
      simp
  | error raised =>
      cases raised with
      | scoring cause =>
          simp only [reduceCtorEq, false_iff, Except.error.injEq, not_and, not_forall,
            not_not]
          rintro rfl
          exact ⟨cause, rfl⟩
      | _ =>
          simp only [Except.error.injEq]
          constructor
          · rintro rfl
            exact ⟨rfl, fun cause => nofun⟩
          · exact fun ⟨same, _⟩ => same

/-- An item scored without escaping is a route or a failure, as its evaluation says. -/
theorem scoreOne_eq_ok
    {position : Nat}
    {item : BatchItem}
    {outcome : Outcome}
    (scored : scoreOne origin destination corridor p position item = .ok outcome) :
    Outcome.routes [outcome] = (item.route? origin destination corridor p position).toList ∧
      Outcome.failures [outcome] =
        (item.failure? origin destination corridor p position).toList := by
  unfold scoreOne at scored
  unfold BatchItem.route? BatchItem.failure?
  split at scored
  · next evaluated =>
      cases scored
      simp [evaluated, Outcome.routes, Outcome.failures]
  · next cause evaluated =>
      cases scored
      simp [evaluated, Outcome.routes, Outcome.failures]
  · cases scored

end Item

/-! ## All items -/

section Items

variable {origin destination : Value} {corridor : Option Value} {p : Policy}

/-- Scoring the items one after another fails with the fault of the first item that
escapes. -/
theorem outcomes_eq_error_iff
    (items : List BatchItem)
    (start : Nat)
    (fault : Fault) :
    (items.zipIdx start).mapM
        (fun (item, position) => scoreOne origin destination corridor p position item) =
        .error fault ↔
      ∃ before item after, items = before ++ item :: after ∧
        (∀ earlier ∈ before, ∀ other, ¬ earlier.Escapes origin destination corridor p other) ∧
        item.Escapes origin destination corridor p fault :=
  mapM_zipIdx_eq_error_iff (fun position item => scoreOne origin destination corridor p position item)
    (BatchItem.Escapes origin destination corridor p) scoreOne_eq_error_iff items start fault

/-- Outcomes that scored without escape hold the routes and the failures of their items, in
input order. -/
theorem outcomes_partition
    {pairs : List (BatchItem × Nat)}
    {outcomes : List Outcome}
    (scored : List.Forall₂ (fun (pair : BatchItem × Nat) outcome =>
      scoreOne origin destination corridor p pair.2 pair.1 = .ok outcome) pairs outcomes) :
    Outcome.routes outcomes =
        pairs.filterMap (fun (item, position) =>
          item.route? origin destination corridor p position) ∧
      Outcome.failures outcomes =
        pairs.filterMap (fun (item, position) =>
          item.failure? origin destination corridor p position) := by
  induction scored with
  | nil =>
      exact ⟨rfl, rfl⟩
  | @cons pair outcome pairs outcomes first rest ih =>
      obtain ⟨item, position⟩ := pair
      obtain ⟨routesOne, failuresOne⟩ := scoreOne_eq_ok first
      have routesCons :
          Outcome.routes (outcome :: outcomes) =
            Outcome.routes [outcome] ++ Outcome.routes outcomes := by
        cases outcome <;> rfl
      have failuresCons :
          Outcome.failures (outcome :: outcomes) =
            Outcome.failures [outcome] ++ Outcome.failures outcomes := by
        cases outcome <;> rfl
      constructor
      · rw [routesCons, routesOne, ih.1, List.filterMap_cons]
        dsimp only
        cases item.route? origin destination corridor p position <;> rfl
      · rw [failuresCons, failuresOne, ih.2, List.filterMap_cons]
        dsimp only
        cases item.failure? origin destination corridor p position <;> rfl

/-- No item of a batch whose items all scored escapes. -/
theorem outcomes_ok_not_escapes
    {items : List BatchItem}
    {start : Nat}
    {outcomes : List Outcome}
    (scored : (items.zipIdx start).mapM
      (fun (item, position) => scoreOne origin destination corridor p position item) =
      .ok outcomes)
    {item : BatchItem}
    (member : item ∈ items)
    (fault : Fault) :
    ¬ item.Escapes origin destination corridor p fault := by
  induction items generalizing start outcomes with
  | nil =>
      cases member
  | cons head rest ih =>
      rw [List.zipIdx_cons, List.mapM_cons, bind_eq_ok] at scored
      obtain ⟨outcome, headScored, restScored⟩ := scored
      obtain ⟨others, restScored, _⟩ := bind_eq_ok.mp restScored
      rcases List.mem_cons.mp member with rfl | member
      · intro escapes
        have failed := (scoreOne_eq_error_iff start item fault).mpr escapes
        simp only at headScored
        rw [headScored] at failed
        cases failed
      · exact ih restScored member

/-- After the checks, scoring the items and ranking what scored fails exactly when an item
escapes, with the first escaping item's fault, or, no item escaping, when the ranking of the
scored routes fails. With no item escaping the traversal cannot fail, so it scored every item. -/
theorem items_then_ranking_eq_error_iff
    (items : List BatchItem)
    (fault : Fault) :
    (items.zipIdx.mapM
        (fun (item, position) => scoreOne origin destination corridor p position item) =
        .error fault ∨
      ∃ outcomes, items.zipIdx.mapM
          (fun (item, position) => scoreOne origin destination corridor p position item) =
          .ok outcomes ∧
        rankRoutes (Outcome.routes outcomes) = .error fault) ↔
      (∃ before item after, items = before ++ item :: after ∧
          (∀ earlier ∈ before, ∀ other, ¬ earlier.Escapes origin destination corridor p other) ∧
          item.Escapes origin destination corridor p fault) ∨
        ((∀ item ∈ items, ∀ other, ¬ item.Escapes origin destination corridor p other) ∧
          rankRoutes (scoredRoutes origin destination corridor p items) = .error fault) := by
  rw [outcomes_eq_error_iff items 0 fault]
  apply or_congr_right
  constructor
  · rintro ⟨outcomes, scored, rankingFails⟩
    have related := (mapM_eq_ok_iff _ _ _).mp scored
    refine ⟨fun item member other => outcomes_ok_not_escapes scored member other, ?_⟩
    rw [scoredRoutes, ← (outcomes_partition related).1]
    exact rankingFails
  · rintro ⟨noneEscapes, rankingFails⟩
    cases scored : items.zipIdx.mapM
        (fun (item, position) => scoreOne origin destination corridor p position item) with
    | error escaped =>
        obtain ⟨before, item, after, split, _, escapes⟩ :=
          (outcomes_eq_error_iff items 0 escaped).mp scored
        exact absurd escapes (noneEscapes item (by simp [split]) escaped)
    | ok outcomes =>
        have related := (mapM_eq_ok_iff _ _ _).mp scored
        refine ⟨outcomes, rfl, ?_⟩
        rw [(outcomes_partition related).1]
        exact rankingFails

end Items

/-! ## The whole batch -/

/-- The policy passes its check and both endpoints read. -/
def RequestAccepted
    (p : Policy)
    (origin destination : Value) :
    Prop :=
  p.validate = .ok () ∧ (∃ o, Coordinates.ofValue origin = .ok o) ∧
    ∃ d, Coordinates.ofValue destination = .ok d

section Checked

variable {origin destination : Value} {o d : Coordinates}
  (originRead : Coordinates.ofValue origin = .ok o)
  (destinationRead : Coordinates.ofValue destination = .ok d)
  (corridor : Option Value) (p : Policy)
include originRead destinationRead

theorem BatchItem.escapes_checked
    (item : BatchItem)
    (fault : Fault) :
    item.Escapes o.toValue d.toValue corridor p fault ↔
      item.Escapes origin destination corridor p fault := by
  unfold BatchItem.Escapes
  rw [BatchItem.evaluate_checked originRead destinationRead]

theorem scoredRoutes_checked
    (items : List BatchItem) :
    scoredRoutes o.toValue d.toValue corridor p items =
      scoredRoutes origin destination corridor p items := by
  simp only [scoredRoutes, BatchItem.route?,
    BatchItem.evaluate_checked originRead destinationRead]

theorem scoringFailures_checked
    (items : List BatchItem) :
    scoringFailures o.toValue d.toValue corridor p items =
      scoringFailures origin destination corridor p items := by
  simp only [scoringFailures, BatchItem.failure?,
    BatchItem.evaluate_checked originRead destinationRead]

end Checked

/-- Once the policy and both endpoints pass, a batch fails exactly when an item escapes, with
the fault of the first escaping item in input order, or, no item escaping, when ranking the
scored routes fails. -/
theorem scoreBatch_accepted_eq_error_iff
    {items : List BatchItem}
    {origin destination : Value}
    {p : Policy}
    (corridor : Option Value)
    (accepted : RequestAccepted p origin destination)
    (fault : Fault) :
    scoreBatch items origin destination p corridor = .error fault ↔
      (∃ before item after, items = before ++ item :: after ∧
          (∀ earlier ∈ before, ∀ other,
            ¬ earlier.Escapes origin destination corridor p other) ∧
          item.Escapes origin destination corridor p fault) ∨
        ((∀ item ∈ items, ∀ other, ¬ item.Escapes origin destination corridor p other) ∧
          rankRoutes (scoredRoutes origin destination corridor p items) = .error fault) := by
  obtain ⟨validated, ⟨o, originRead⟩, ⟨d, destinationRead⟩⟩ := accepted
  rw [scoreBatch_eq_inline, validated, originRead, destinationRead]
  simp only [bind_eq_error, pure_ne_error, exists_false, and_false, or_false, Except.ok.injEq,
    exists_eq_left', reduceCtorEq, false_or, true_and, exists_const]
  rw [items_then_ranking_eq_error_iff items fault, scoredRoutes_checked originRead destinationRead]
  simp only [BatchItem.escapes_checked originRead destinationRead]

/-- A batch fails exactly when its policy fails its check; or else its origin does not
read; or else its destination does not read; or else, the request accepted, when an item
escapes, with the fault of the first escaping item in input order; or else, no item
escaping, when ranking the routes that scored fails. -/
theorem scoreBatch_eq_error_iff
    (items : List BatchItem)
    (origin destination : Value)
    (p : Policy)
    (corridor : Option Value)
    (fault : Fault) :
    scoreBatch items origin destination p corridor = .error fault ↔
      p.validate = .error fault ∨
      (p.validate = .ok () ∧ Coordinates.ofValue origin = .error fault) ∨
      (p.validate = .ok () ∧ (∃ o, Coordinates.ofValue origin = .ok o) ∧
        Coordinates.ofValue destination = .error fault) ∨
      (RequestAccepted p origin destination ∧
        ((∃ before item after, items = before ++ item :: after ∧
            (∀ earlier ∈ before, ∀ other,
              ¬ earlier.Escapes origin destination corridor p other) ∧
            item.Escapes origin destination corridor p fault) ∨
          ((∀ item ∈ items, ∀ other, ¬ item.Escapes origin destination corridor p other) ∧
            rankRoutes (scoredRoutes origin destination corridor p items) = .error fault))) := by
  cases validated : p.validate with
  | error rejected =>
      rw [scoreBatch_eq_inline, validated]
      simp [bind, Except.bind, RequestAccepted, validated]
  | ok passed =>
      cases passed
      cases originRead : Coordinates.ofValue origin with
      | error rejected =>
          rw [scoreBatch_eq_inline, validated, originRead]
          simp [bind, Except.bind, RequestAccepted, originRead]
      | ok o =>
          cases destinationRead : Coordinates.ofValue destination with
          | error rejected =>
              rw [scoreBatch_eq_inline, validated, originRead, destinationRead]
              simp [bind, Except.bind, RequestAccepted, originRead, destinationRead]
          | ok d =>
              have accepted : RequestAccepted p origin destination :=
                ⟨validated, ⟨o, originRead⟩, ⟨d, destinationRead⟩⟩
              rw [scoreBatch_accepted_eq_error_iff corridor accepted]
              simp [accepted]

/-- A planner record whose leg starts at an infinite time escapes its batch, though the
policy and both endpoints pass: the start time cannot be made an integer, and that fault is no
scoring fault. -/
theorem scoreBatch_infinite_start_overflows :
    RequestAccepted {} (.tuple [.float 51.5, .float (-0.12)])
        (.tuple [.float 51.6, .float (-0.12)]) ∧
      scoreBatch [.record (.dict [("legs", .list [.dict [("distance", .int 1000),
          ("startTime", .float (1.0 / 0.0)), ("endTime", .int 0)]])])]
        (.tuple [.float 51.5, .float (-0.12)]) (.tuple [.float 51.6, .float (-0.12)]) {} none =
        .error (.overflowError "cannot convert float infinity to integer") :=
  ⟨⟨rfl, ⟨_, rfl⟩, ⟨_, rfl⟩⟩, rfl⟩

/-! ## Worker counts -/

/-- Two policies that differ only in their positive integer worker counts score a batch
alike, whichever path the fan-out takes and whatever order the pooled tasks finish in; once
the request is accepted, the batch fails exactly with the fault of the first escaping item
in input order or, none escaping, with the ranking's. Both counts give the one-worker run. -/
theorem scoreBatchOn_worker_counts_agree
    {p p' : Policy}
    {workers workers' : Nat}
    (count : p.maxWorkers = .int workers)
    (count' : p'.maxWorkers = .int workers')
    (positive : 0 < workers)
    (positive' : 0 < workers')
    (others : { p with maxWorkers := p'.maxWorkers } = p')
    (order order' : List Nat)
    (items : List BatchItem)
    (origin destination : Value)
    (corridor : Option Value)
    (accepted : RequestAccepted p origin destination)
    (fault : Fault) :
    scoreBatchOn order items origin destination p corridor =
        scoreBatchOn order' items origin destination p' corridor ∧
      (scoreBatchOn order items origin destination p corridor = .error fault ↔
        (∃ before item after, items = before ++ item :: after ∧
            (∀ earlier ∈ before, ∀ other,
              ¬ earlier.Escapes origin destination corridor p other) ∧
            item.Escapes origin destination corridor p fault) ∨
          ((∀ item ∈ items, ∀ other, ¬ item.Escapes origin destination corridor p other) ∧
            rankRoutes (scoredRoutes origin destination corridor p items) = .error fault)) := by
  rw [scoreBatchOn_eq_scoreBatch, scoreBatchOn_eq_scoreBatch]
  refine ⟨?_, scoreBatch_accepted_eq_error_iff corridor accepted fault⟩
  rw [← others, count']
  calc scoreBatch items origin destination p corridor
      = scoreBatch items origin destination { p with maxWorkers := .int workers } corridor := by
        rw [← count]
    _ = scoreBatch items origin destination { p with maxWorkers := .int 1 } corridor :=
        scoreBatch_workers items origin destination p corridor workers positive
    _ = scoreBatch items origin destination { p with maxWorkers := .int workers' } corridor :=
        (scoreBatch_workers items origin destination p corridor workers' positive').symm

/-- Three items under the default policy, whose four workers take the pooled path, the last
task finishing first: a planner record with no legs fails on its own, a record with an
infinite start time escapes, and so does a built itinerary whose leg starts at a text, which
cannot be compared with its end. The pooled run is the inline one, and its fault is the
second item's, the first escaping one in input order, though the third finished first. -/
theorem worker_counts_agree_on_pool :
    let here : Value := .tuple [.float 51.5, .float (-0.12)]
    let there : Value := .tuple [.float 51.6, .float (-0.12)]
    let items : List BatchItem := [.record (.dict [("legs", .list [])]),
      .record (.dict [("legs", .list [.dict [("distance", .int 1000),
        ("startTime", .float (1.0 / 0.0)), ("endTime", .int 0)]])]),
      .built ⟨[⟨.rail, Place.named "A", Place.named "B", .str "x", .int 60000, .int 1000, .null,
        .null⟩], .str "x", .int 60000, .null, .null⟩]
    RequestAccepted {} here there ∧
      (Value.equal ({} : Policy).maxWorkers (.int 1) || items.zipIdx.length == 1) = false ∧
      items[2].evaluate here there none {} =
        .error (Fault.notComparable "<" (.int 60000) (.str "x")) ∧
      scoreBatchOn [2, 1, 0] items here there {} none =
        scoreBatchOn [] items here there { maxWorkers := .int 1 } none ∧
      scoreBatchOn [2, 1, 0] items here there {} none =
        .error (.overflowError "cannot convert float infinity to integer") := by
  intro here there items
  have accepted : RequestAccepted {} here there := ⟨rfl, ⟨_, rfl⟩, ⟨_, rfl⟩⟩
  have pooled : ({} : Policy).maxWorkers = .int 4 := rfl
  have inline : ({ maxWorkers := .int 1 } : Policy).maxWorkers = .int 1 := rfl
  obtain ⟨agree, -⟩ := scoreBatchOn_worker_counts_agree pooled inline (by decide) (by decide) rfl
    [2, 1, 0] [] items here there none accepted
    (.overflowError "cannot convert float infinity to integer")
  exact ⟨accepted, rfl, rfl, agree, agree.trans rfl⟩

end CorridorRank
