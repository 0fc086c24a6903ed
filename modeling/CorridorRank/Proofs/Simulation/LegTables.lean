import CorridorRank.Simulation.Load
import CorridorRank.Proofs.Ranking.Groups
import CorridorRank.Proofs.Scoring.Stages

/-!
# Regrouping the rows of a leg table

`LegTable.load` rebuilds planner itinerary records from the rows of a leg table, one row per
leg. On rows whose ids are texts, and whose rows it can read in the groups it rebuilds
(`LegTable.Readable`: the columns it reads are there, the leg index and the times read as
integers, the distance cell is empty or reads as a number), it returns, and what it returns
can be said without its loops (`LegTable.load_regroups`):

* the rows are grouped by itinerary id, one group per id, in the order the ids are first
  seen, each group holding its id's rows in input order (`Grouped`);
* the first `limit` groups are rebuilt, all of them without a limit (`LegTable.within`);
* a group's rows are ordered by leg index, stably (`Sorted`, `KeepsTies`), each made its leg
  record, which has a distance exactly when the row's distance cell is non-empty
  (`LegTable.LegOf`), and the itinerary spans the first leg's start to the last leg's end
  (`LegTable.Rebuilt`).

The leg index of every row of a group is read before any row is ordered, so a group with a
row whose index does not read as an integer fails even when it has one row
(`LegTable.load_unreadable_index`).
-/

namespace CorridorRank

namespace Traversal

variable {α β ε : Type}

/-- A traversal whose every task returns the image of its item returns the image of the
items. -/
theorem mapM_eq_ok_map
    {task : α → Except ε β}
    {f : α → β}
    {items : List α}
    (each : ∀ x ∈ items, task x = .ok (f x)) :
    items.mapM task = .ok (items.map f) :=
  (mapM_eq_ok_iff _ _ _).mpr (List.forall₂_map_right_iff.mpr (List.forall₂_same.mpr each))

/-- A traversal whose every task returns a value related to its item returns them all. -/
theorem mapM_returns_related
    {task : α → Except ε β}
    {related : α → β → Prop}
    {items : List α}
    (each : ∀ x ∈ items, ∃ y, task x = .ok y ∧ related x y) :
    ∃ results, items.mapM task = .ok results ∧ List.Forall₂ related items results := by
  induction items with
  | nil => exact ⟨[], rfl, .nil⟩
  | cons item rest ih =>
      obtain ⟨head, headOk, headRelated⟩ := each item (by simp)
      obtain ⟨tail, tailOk, tailRelated⟩ := ih fun other member => each other (by simp [member])
      refine ⟨head :: tail, ?_, .cons headRelated tailRelated⟩
      rw [List.mapM_cons, headOk, tailOk]
      rfl

/-- Folds whose steps agree on every item agree. -/
theorem foldlM_congr
    {first second : β → α → Except ε β}
    {items : List α}
    (agree : ∀ x ∈ items, ∀ gathered, first gathered x = second gathered x)
    (init : β) :
    items.foldlM first init = items.foldlM second init := by
  induction items generalizing init with
  | nil => rfl
  | cons item rest ih =>
      simp only [List.foldlM_cons, agree item (by simp)]
      congr 1
      funext next
      exact ih (fun x member => agree x (by simp [member])) next

end Traversal

namespace LegTable

open Ranking Traversal NaturalMerge

/-! ## Reading a row -/

/-- The itinerary id of a row; nothing when the row has none. -/
def rowId
    (row : List (Text × Value)) :
    Value := (Value.field? row "itinerary_id").getD .null

/-- A cell of a row read as an integer, as `int()` reads it. -/
def cellInt
    (row : List (Text × Value))
    (name : String) :
    Except Fault Int :=
  (Value.dict row).lookup name >>= Value.toInt

/-- The leg index of a row; 0 when its cell does not read as an integer. -/
def legIndex
    (row : List (Text × Value)) :
    Int := ((cellInt row "leg_index").toOption).getD 0

/-- Rows ordered by leg index: one row comes before another when its index is smaller. -/
def byIndex
    (a b : List (Text × Value)) :
    Bool := decide (legIndex a < legIndex b)

/-- The distance cell of a row; nothing when the table has no such column. -/
def distanceCell
    (row : List (Text × Value)) :
    Value := (Value.field? row "distance_m").getD .null

/-- The columns read from a row that is rebuilt, besides its index, its times and its
distance. -/
def columnsRead : List String :=
  ["mode", "from_name", "from_stop", "to_name", "to_stop", "trip_id", "route_id"]

/-- A row the loader reads without fault: its itinerary id is a text, it has the columns the
loader reads, its leg index and times read as integers, and its distance cell is empty or
reads as a number. -/
structure Readable (row : List (Text × Value)) : Prop where
  id : ∃ t, Value.field? row "itinerary_id" = some (.str t)
  columns : ∀ name ∈ columnsRead, ∃ v, Value.field? row name = some v
  index : ∃ i, cellInt row "leg_index" = .ok i
  start : ∃ t, cellInt row "start_time_ms" = .ok t
  finish : ∃ t, cellInt row "end_time_ms" = .ok t
  distance : (distanceCell row).truthy → ∃ x, (distanceCell row).toFloat = .ok x

theorem lookup_of_field
    {row : List (Text × Value)}
    {name : String}
    {v : Value}
    (present : Value.field? row name = some v) :
    (Value.dict row).lookup name = .ok v := by
  simp [Value.lookup, present]

/-- A leg index cell that reads is the row's leg index. -/
theorem legIndex_of_cellInt
    {row : List (Text × Value)}
    {i : Int}
    (reads : cellInt row "leg_index" = .ok i) :
    legIndex row = i := by
  simp [legIndex, reads, Except.toOption]

theorem Readable.legIndex_cellInt
    {row : List (Text × Value)}
    (readable : Readable row) :
    cellInt row "leg_index" = .ok (legIndex row) := by
  obtain ⟨i, reads⟩ := readable.index
  rw [legIndex_of_cellInt reads, reads]

/-! ## The leg record of a row -/

/-- The planner leg record the loader makes of a row, with its start and end: the record of
the row's cells, whose times are the row's time cells read as integers, and which has a
distance exactly when the row's distance cell is non-empty, the double that cell reads as. -/
def LegOf
    (row : List (Text × Value))
    (leg : Value × Int × Int) :
    Prop :=
  legRecord row = .ok leg ∧ cellInt row "start_time_ms" = .ok leg.2.1 ∧
    cellInt row "end_time_ms" = .ok leg.2.2 ∧
    ∃ fields, leg.1 = .dict fields ∧ Value.field? fields "startTime" = some (.int leg.2.1) ∧
      Value.field? fields "endTime" = some (.int leg.2.2) ∧
      Value.field? fields "distance" =
        if (distanceCell row).truthy then (Value.float <$> (distanceCell row).toFloat).toOption
        else none

/-- A readable row has its leg record. The record ends with the distance the cell reads as, and an
empty cell leaves it without one. -/
theorem legOf_readable
    {row : List (Text × Value)}
    (readable : Readable row) :
    ∃ leg, LegOf row leg := by
  have cell : ∀ name ∈ columnsRead, ∃ v, (Value.dict row).lookup name = .ok v :=
    fun name listed => (readable.columns name listed).imp fun _ present => lookup_of_field present
  obtain ⟨mode, readMode⟩ := cell "mode" (by simp [columnsRead])
  obtain ⟨fromName, readFromName⟩ := cell "from_name" (by simp [columnsRead])
  obtain ⟨fromStop, readFromStop⟩ := cell "from_stop" (by simp [columnsRead])
  obtain ⟨toName, readToName⟩ := cell "to_name" (by simp [columnsRead])
  obtain ⟨toStop, readToStop⟩ := cell "to_stop" (by simp [columnsRead])
  obtain ⟨trip, readTrip⟩ := cell "trip_id" (by simp [columnsRead])
  obtain ⟨route, readRoute⟩ := cell "route_id" (by simp [columnsRead])
  obtain ⟨start, startReads⟩ := readable.start
  obtain ⟨startCell, readStart, startInt⟩ := bind_eq_ok.mp startReads
  obtain ⟨finish, finishReads⟩ := readable.finish
  obtain ⟨finishCell, readFinish, finishInt⟩ := bind_eq_ok.mp finishReads
  by_cases nonEmpty : (distanceCell row).truthy = true
  · obtain ⟨x, converts⟩ := readable.distance nonEmpty
    refine ⟨?leg, ?record, ?fields⟩
    case record =>
      unfold legRecord
      simp only [readMode, readFromName, readFromStop, readToName, readToStop, readStart,
        startInt, readFinish, finishInt, readTrip, readRoute, ok_bind]
      simp only [distanceCell] at nonEmpty converts
      rw [if_pos nonEmpty, converts]
      rfl
    case fields =>
      refine ⟨startReads, finishReads, _, rfl, rfl, rfl, ?_⟩
      rw [if_pos nonEmpty, converts]
      rfl
  · refine ⟨?bareLeg, ?bareRecord, ?bareFields⟩
    case bareRecord =>
      unfold legRecord
      simp only [readMode, readFromName, readFromStop, readToName, readToStop, readStart,
        startInt, readFinish, finishInt, readTrip, readRoute, ok_bind]
      simp only [distanceCell] at nonEmpty
      rw [if_neg nonEmpty]
      rfl
    case bareFields =>
      refine ⟨startReads, finishReads, _, rfl, rfl, rfl, ?_⟩
      rw [if_neg nonEmpty]
      rfl

/-! ## Ordering a group's rows -/

/-- Ordering by leg index is a strict weak order on rows. -/
theorem byIndex_weakOrder : WeakOrderOn byIndex fun _ => True where
  irrefl _ := by simp [byIndex]
  trans _ _ _ ab bc := by
    simp only [byIndex, decide_eq_true_eq] at *
    omega
  split _ _ _ ac := by
    simp only [byIndex, decide_eq_true_eq] at *
    omega

/-- The rows of a group in leg order: a rearrangement of them ordered by leg index, rows of
one index in the order they came. -/
structure InLegOrder (ordered rows : List (List (Text × Value))) : Prop where
  perm : ordered.Perm rows
  sorted : Sorted byIndex ordered
  stable : KeepsTies byIndex (fun _ => True) ordered rows

/-- A group's rows have one leg order. -/
theorem InLegOrder.unique
    {sorted other rows : List (List (Text × Value))}
    (first : InLegOrder sorted rows)
    (second : InLegOrder other rows) :
    sorted = other :=
  eq_of_sorted_of_keepsTies byIndex_weakOrder (fun _ _ => trivial) (fun _ _ => trivial)
    first.sorted second.sorted (first.stable.trans second.stable.symm)

/-- Merge sort by leg index puts a group's rows in leg order. The rows tied with a row share its
index, so they are sorted already and the sort keeps them as a sublist; having as many of them as
the input, it keeps them all in order. -/
theorem mergeSort_inLegOrder
    (rows : List (List (Text × Value))) :
    InLegOrder (rows.mergeSort fun a b => decide (legIndex a ≤ legIndex b)) rows := by
  have trans : ∀ a b c : List (Text × Value), decide (legIndex a ≤ legIndex b) = true →
      decide (legIndex b ≤ legIndex c) = true → decide (legIndex a ≤ legIndex c) = true := by
    intro a b c
    simp only [decide_eq_true_eq]
    omega
  have total : ∀ a b : List (Text × Value),
      (decide (legIndex a ≤ legIndex b) || decide (legIndex b ≤ legIndex a)) = true := by
    intro a b
    simp only [Bool.or_eq_true, decide_eq_true_eq]
    omega
  refine ⟨List.mergeSort_perm _ _, ?sorted, ?stable⟩
  case sorted =>
    refine (List.pairwise_mergeSort trans total rows).imp fun {a b} ordered => ?_
    simp only [byIndex, decide_eq_false_iff_not, not_lt]
    simpa using ordered
  case stable =>
    intro x _
    have tiedSorted : (rows.filter (tiedWith byIndex x)).Pairwise
        fun a b => decide (legIndex a ≤ legIndex b) = true := by
      rw [List.pairwise_filter]
      refine List.pairwise_of_forall fun a b tiedA tiedB => ?_
      simp only [tiedWith, byIndex, Bool.and_eq_true, Bool.not_eq_true',
        decide_eq_false_iff_not, not_lt] at tiedA tiedB
      simp only [decide_eq_true_eq]
      omega
    have kept := (List.sublist_mergeSort trans total tiedSorted List.filter_sublist).filter
      (tiedWith byIndex x)
    simp only [List.filter_filter, Bool.and_self] at kept
    exact (kept.eq_of_length ((List.mergeSort_perm _ _).filter _).length_eq.symm).symm

/-- Ordering a group's rows reads every leg index and sorts the rows by it, stably. -/
theorem orderLegs_eq
    {rows : List (List (Text × Value))}
    (indexed : ∀ row ∈ rows, cellInt row "leg_index" = .ok (legIndex row)) :
    orderLegs rows = .ok (rows.mergeSort fun a b => decide (legIndex a ≤ legIndex b)) := by
  have keyed : rows.mapM (fun row => do
      let i ← (← (Value.dict row).lookup "leg_index").toInt
      pure (i, row)) = .ok (rows.map fun row => (legIndex row, row)) := by
    refine mapM_eq_ok_map fun row member => ?_
    obtain ⟨cell, looked, read⟩ := bind_eq_ok.mp (indexed row member)
    rw [looked, ok_bind, read, ok_bind]
    rfl
  have byKey : ∀ a ∈ rows.map (fun row => (legIndex row, row)),
      ∀ b ∈ rows.map (fun row => (legIndex row, row)),
        decide (a.1 ≤ b.1) = decide (legIndex a.2 ≤ legIndex b.2) := by
    simp only [List.mem_map]
    rintro _ ⟨a, _, rfl⟩ _ ⟨b, _, rfl⟩
    rfl
  unfold orderLegs
  rw [keyed, ok_bind, pure_eq_ok,
    List.map_mergeSort (s := fun a b => decide (legIndex a ≤ legIndex b)) byKey, List.map_map]
  rw [show (Prod.snd ∘ fun row : List (Text × Value) => (legIndex row, row)) = id from rfl,
    List.map_id]

/-! ## Rebuilding a group -/

/-- How a group of rows is rebuilt into an itinerary record: its rows in leg order, the leg
record of each, and the itinerary under the group's id running from the first leg's start to
the last leg's end. -/
def Rebuilt
    (key : Value)
    (rows : List (List (Text × Value)))
    (it : Value) :
    Prop :=
  ∃ ordered legs, InLegOrder ordered rows ∧ List.Forall₂ LegOf ordered legs ∧
    ∃ first last, legs.head? = some first ∧ legs.getLast? = some last ∧
      it = .dict [("id", key), ("startTime", .int first.2.1), ("endTime", .int last.2.2),
        ("legs", .list (legs.map (·.1)))]

/-- A group of readable rows is rebuilt. -/
theorem itineraryRecord_rebuilt
    {key : Value}
    {rows : List (List (Text × Value))}
    (nonempty : rows ≠ [])
    (readable : ∀ row ∈ rows, Readable row) :
    ∃ it, itineraryRecord key rows = .ok it ∧ Rebuilt key rows it := by
  have order := mergeSort_inLegOrder rows
  have ordered := orderLegs_eq fun row member => (readable row member).legIndex_cellInt
  obtain ⟨legs, recorded, related⟩ := @mapM_returns_related _ _ _ legRecord LegOf _
    fun row member =>
      (legOf_readable (readable row (order.perm.mem_iff.mp member))).imp
        fun leg legOf => ⟨legOf.1, legOf⟩
  have legsNonempty : legs ≠ [] := by
    rintro rfl
    apply nonempty
    rw [← List.length_eq_zero_iff, ← order.perm.length_eq, related.length_eq, List.length_nil]
  obtain ⟨first, firstIs⟩ := Option.ne_none_iff_exists'.mp (mt List.head?_eq_none_iff.mp legsNonempty)
  obtain ⟨last, lastIs⟩ :=
    Option.ne_none_iff_exists'.mp (mt List.getLast?_eq_none_iff.mp legsNonempty)
  refine ⟨_, ?_, _, legs, order, related, first, last, firstIs, lastIs, rfl⟩
  unfold itineraryRecord
  rw [ordered, ok_bind, recorded, ok_bind, firstIs, lastIs]
  rfl

/-! ## Grouping and the limit -/

theorem sameKey_str
    (t : Text)
    (v : Value) :
    sameKey (.str t) v = Value.equal v (.str t) := by
  cases v <;> simp [sameKey, Value.equal, Value.num?, eq_comm]

/-- Rows whose ids are texts are grouped as items are grouped by key, ids comparing as
texts. -/
theorem group_eq_groupOrdered
    {rows : List (List (Text × Value))}
    (ids : ∀ row ∈ rows, ∃ t, Value.field? row "itinerary_id" = some (.str t)) :
    group rows = groupOrdered rowId rows := by
  unfold group groupOrdered
  refine foldlM_congr (fun row member groups => ?_) []
  obtain ⟨t, id⟩ := ids row member
  simp only [lookup_of_field id, ok_bind, rowId, id, Option.getD_some, Value.unhashable]
  unfold addToGroup
  simp only [sameKey_str]
  split <;> rfl

/-- The groups a limit lets through: the first `n` of them under a count `n`, all of them
without a limit. -/
def within
    {α : Type}
    (limit : Value)
    (groups : List α) :
    List α :=
  match limit.count? with
  | some n => groups.take n.toNat
  | none => groups

/-- A count limit is reached once as many groups as it counts are rebuilt. -/
theorem compareWith_ge_count
    {m n : Int}
    {limit : Value}
    (counted : limit.count? = some n) :
    Value.compareWith .ge (.int m) limit = .ok (decide (n ≤ m)) := by
  have number : limit.num? = some (.int n) := by
    cases limit <;> simp_all [Value.count?, Value.num?]
  rw [Value.compareWith_num .ge rfl number, Num.order?, Option.map_some, Option.getD_some,
    Value.Comparison.holds]
  congr 1
  rw [Bool.eq_iff_iff, bne_iff_ne, ne_eq, compare_lt_iff_lt, not_lt, decide_eq_true_eq]

/-- Rebuilding one more group after those rebuilt: the records so far, the new one, then
those of the rest. -/
theorem bind_prepend
    {record : Except Fault Value}
    {more : Except Fault (List Value)}
    {done : List Value} :
    (record >>= fun it => ((it :: done).reverse ++ ·) <$> more) =
      (done.reverse ++ ·) <$> (record >>= fun it => more >>= fun its => pure (it :: its)) := by
  cases record <;> cases more <;>
    simp [bind, Except.bind, Functor.map, Except.map, pure, Except.pure]

/-- Without a limit, every group is rebuilt, after those rebuilt already. -/
theorem rebuild_null
    (groups : List (Value × List (List (Text × Value))))
    (done : List Value) :
    rebuild .null groups done =
      (done.reverse ++ ·) <$> groups.mapM fun g => itineraryRecord g.1 g.2 := by
  induction groups generalizing done with
  | nil =>
      rw [rebuild]
      simp [Functor.map, Except.map, pure, Except.pure]
  | cons g rest ih =>
      obtain ⟨key, rows⟩ := g
      rw [rebuild, List.mapM_cons, ← bind_prepend]
      simp only [ih]
      rfl

/-- Under a count limit `n`, the groups are rebuilt until `n` records are made. At the limit nothing
more is rebuilt; with room for one more, a group is rebuilt and the rest go on with one place less.
-/
theorem rebuild_count
    {limit : Value}
    {n : Int}
    (counted : limit.count? = some n)
    (groups : List (Value × List (List (Text × Value))))
    (done : List Value) :
    rebuild limit groups done =
      (done.reverse ++ ·) <$>
        (groups.take (n.toNat - done.length)).mapM fun g => itineraryRecord g.1 g.2 := by
  induction groups generalizing done with
  | nil =>
      rw [rebuild]
      simp [Functor.map, Except.map, pure, Except.pure]
  | cons g rest ih =>
      obtain ⟨key, rows⟩ := g
      rw [rebuild, compareWith_ge_count counted, ok_bind]
      · by_cases full : n ≤ done.length
        · have none : n.toNat - done.length = 0 := by omega
          simp [full, none, Functor.map, Except.map, pure, Except.pure]
        · have more : n.toNat - done.length = n.toNat - (done.length + 1) + 1 := by omega
          rw [decide_eq_false full]
          dsimp only
          rw [if_neg Bool.false_ne_true, more, List.take_succ_cons, List.mapM_cons,
            ← bind_prepend]
          simp only [ih, List.length_cons]
      · rintro rfl
        simp [Value.count?] at counted

/-- A limit lets through a stretch of groups at the front. -/
theorem within_sublist
    {α : Type}
    (limit : Value)
    (groups : List α) :
    (within limit groups).Sublist groups := by
  unfold within
  split
  · exact List.take_sublist _ _
  · exact List.Sublist.refl _

/-- Loading rebuilds, in order, the groups the limit lets through. -/
theorem load_eq
    {rows : List (List (Text × Value))}
    {limit : Value}
    (limited : limit = .null ∨ ∃ n, limit.count? = some n) :
    load rows limit =
      group rows >>= fun groups => (within limit groups).mapM fun g => itineraryRecord g.1 g.2 := by
  unfold load
  congr 1
  funext groups
  rcases limited with rfl | ⟨n, counted⟩
  · rw [rebuild_null]
    simp [within, Value.count?]
  · rw [rebuild_count counted]
    simp [within, counted]

/-! ## Loading a leg table -/

/-- Loading a leg table whose ids are texts, and whose rows are readable in the groups the
limit lets through, returns the table regrouped: the rows grouped by itinerary id, the groups
in the order their ids are first seen, and each group the limit lets through rebuilt from its
rows in leg order. The rows of the groups past the limit are never read. -/
theorem load_regroups
    (rows : List (List (Text × Value)))
    (limit : Value)
    (limited : limit = .null ∨ ∃ n, limit.count? = some n)
    (ids : ∀ row ∈ rows, ∃ t, Value.field? row "itinerary_id" = some (.str t))
    (readable : ∀ groups, groupOrdered rowId rows = .ok groups →
      ∀ g ∈ within limit groups, ∀ row ∈ g.2, Readable row) :
    ∃ groups its, load rows limit = .ok its ∧ Grouped rowId rows groups ∧
      groups.Pairwise (fun g h => SeenBefore rowId rows g.1 h.1) ∧
      List.Forall₂ (fun g it => Rebuilt g.1 g.2 it) (within limit groups) its := by
  have texts : TextKeys rowId rows := fun row member => by
    obtain ⟨t, id⟩ := ids row member
    exact ⟨t, by rw [rowId, id, Option.getD_some]⟩
  obtain ⟨groups, run⟩ := groupOrdered_returns texts
  have grouped := groupOrdered_grouped texts run
  have through : ∀ g ∈ within limit groups, g ∈ groups := fun g member =>
    (within_sublist limit groups).subset member
  obtain ⟨its, rebuilt, related⟩ := @mapM_returns_related _ _ _
    (fun g => itineraryRecord g.1 g.2) (fun g it => Rebuilt g.1 g.2 it) _ fun g member =>
      itineraryRecord_rebuilt (grouped.ne_nil texts (through g member))
        (readable groups run g member)
  refine ⟨groups, its, ?_, grouped, groupOrdered_seen texts run, related⟩
  rw [load_eq limited, group_eq_groupOrdered ids, run, ok_bind, rebuilt]

/-- A row of a leg table as the table's text gives it, every cell a text. -/
def tableRow
    (id index start finish distance : String) :
    List (Text × Value) :=
  [("itinerary_id", .str id), ("leg_index", .str index), ("mode", .str "RAIL"),
    ("from_name", .str "P"), ("from_stop", .str "1:P"), ("to_name", .str "Q"),
    ("to_stop", .str "1:Q"), ("start_time_ms", .str start), ("end_time_ms", .str finish),
    ("distance_m", .str distance), ("trip_id", .str "T1"), ("route_id", .str "R1")]

/-- Interleaved itineraries whose legs come out of order, one with an empty distance cell,
and past a limit of two a third whose leg index is no integer: the first two are rebuilt, and
the third is never read. The groups of A and of B are let through, that of C is not. -/
theorem load_regroups_interleaved_rows :
    let rows := [tableRow "A" "1" "60000" "120000" "", tableRow "B" "0" "0" "60000" "500",
      tableRow "A" "0" "0" "60000" "1000", tableRow "C" "x" "0" "60000" "1000"]
    (∀ row ∈ rows, ∃ t, Value.field? row "itinerary_id" = some (.str t)) ∧
    (∀ groups, groupOrdered rowId rows = .ok groups →
      ∀ g ∈ within (.int 2) groups, ∀ row ∈ g.2, Readable row) ∧
    ∃ groups its, load rows (.int 2) = .ok its ∧ Grouped rowId rows groups ∧
      groups.Pairwise (fun g h => SeenBefore rowId rows g.1 h.1) ∧
      List.Forall₂ (fun g it => Rebuilt g.1 g.2 it) (within (.int 2) groups) its := by
  intro rows
  have ids : ∀ row ∈ rows, ∃ t, Value.field? row "itinerary_id" = some (.str t) := by
    simp only [rows, List.forall_mem_cons, List.not_mem_nil, IsEmpty.forall_iff,
      implies_true, and_true]
    exact ⟨⟨_, rfl⟩, ⟨_, rfl⟩, ⟨_, rfl⟩, ⟨_, rfl⟩⟩
  have readable : ∀ groups, groupOrdered rowId rows = .ok groups →
      ∀ g ∈ within (.int 2) groups, ∀ row ∈ g.2, Readable row := by
    intro groups run
    have grouping : groupOrdered rowId rows = .ok [(.str "A", [rows[0], rows[2]]),
        (.str "B", [rows[1]]), (.str "C", [rows[3]])] := rfl
    rw [grouping, Except.ok.injEq] at run
    subst run
    have through : within (.int 2) [((.str "A" : Value), [rows[0], rows[2]]),
        (.str "B", [rows[1]]), (.str "C", [rows[3]])] =
          [((.str "A" : Value), [rows[0], rows[2]]), (.str "B", [rows[1]])] := rfl
    intro g member row inGroup
    rw [through] at member
    simp only [List.mem_cons, List.not_mem_nil, or_false] at member
    have rebuiltRow : row = rows[0] ∨ row = rows[2] ∨ row = rows[1] := by
      rcases member with rfl | rfl <;>
        simp only [List.mem_cons, List.not_mem_nil, or_false] at inGroup <;> tauto
    rcases rebuiltRow with rfl | rfl | rfl
    all_goals
      refine ⟨⟨_, rfl⟩, fun name listed => ?_, ⟨_, rfl⟩, ⟨_, rfl⟩, ⟨_, rfl⟩, fun nonEmpty => ?_⟩
      · simp only [columnsRead, List.mem_cons, List.not_mem_nil, or_false] at listed
        rcases listed with rfl | rfl | rfl | rfl | rfl | rfl | rfl <;> exact ⟨_, rfl⟩
      · first
        | exact ⟨_, rfl⟩
        | exact absurd nonEmpty (by decide)
  exact ⟨ids, readable, load_regroups rows (.int 2) (Or.inr ⟨2, rfl⟩) ids readable⟩

/-- Every leg index is read before a group is ordered: a group of one row whose index is not
an integer fails. -/
theorem load_unreadable_index :
    load [tableRow "A" "x" "0" "60000" "1000"] .null =
      .error (.valueError "invalid literal for int() with base 10: 'x'") :=
  rfl

end LegTable

end CorridorRank
