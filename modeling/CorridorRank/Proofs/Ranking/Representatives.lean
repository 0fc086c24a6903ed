import CorridorRank.Proofs.Ranking.StableRanking
import CorridorRank.Proofs.Matching.TopCorridors

/-!
# Which route stands for a corridor, and in what order

`bestPerCorridorBy` groups items by corridor in order of first appearance, ranks each group
and ranks the groups' first items. When the corridors are texts and the rank keys compare, it
returns, and what it returns can be said without the grouping
(`bestPerCorridorBy_representatives`):

* the item kept for a corridor is, of the corridor's items of least rank, the first in input
  order (`EarliestLeast`);
* the items kept are sorted by rank, and items of equal rank come in the order in which their
  corridors are first seen in the input (`SeenBefore`).

The tie-break between corridors is where a corridor is first seen, not where the item kept for
it stands: of the routes `A 5, B 3, A 3` the two of score 3 are kept as `A 3, B 3`
(`bestPerCorridor_ties_follow_first_sight`). Ranking the routes first moves each corridor's
kept route ahead of the rest of its corridor, and then routes of equal rank come in input
order. So the two orders keep the same routes, sorted alike, and agree when no two kept routes
tie (`bestPerCorridor_earliest_least_sorted`).
-/

namespace CorridorRank

open Ranking Traversal NaturalMerge

variable {α : Type}

/-- Corridor `c` is seen before corridor `d` among the items: a stretch at the front of the
items holds an item of `c` and none of `d`. -/
def SeenBefore
    (corridor : α → Value)
    (items : List α)
    (c d : Value) :
    Prop :=
  ∃ front, front <+: items ∧ (∃ x ∈ front, corridor x = c) ∧ ∀ y ∈ front, corridor y ≠ d

/-- `r` is, of the items of its corridor with the least rank, the first: it stands among the
items, nothing of its corridor ranks below it, and whatever of its corridor stands before it
ranks above it. -/
def EarliestLeast
    (key : α → RankKey)
    (corridor : α → Value)
    (items : List α)
    (r : α) :
    Prop :=
  ∃ front back, items = front ++ r :: back ∧
    (∀ y ∈ front, corridor y = corridor r → (key r).rank < (key y).rank) ∧
    ∀ y ∈ items, corridor y = corridor r → (key r).rank ≤ (key y).rank

/-! ## Ties -/

section Ties

variable {before : α → α → Bool} {pool : α → Prop}

/-- Two tied items in a row keep their order in a list that keeps the ties. -/
theorem KeepsTies.sublist
    {xs ys : List α}
    (order : WeakOrderOn before pool)
    (keeps : KeepsTies before pool xs ys)
    {a b : α}
    (inA : pool a)
    (tied : tiedWith before a b = true)
    (inOrder : [a, b].Sublist xs) :
    [a, b].Sublist ys := by
  have both : [a, b].filter (tiedWith before a) = [a, b] := by
    simp [List.filter, order.tiedWith_self inA, tied]
  have kept := inOrder.filter (tiedWith before a)
  rw [both, keeps a inA] at kept
  exact kept.trans List.filter_sublist

/-- What holds of every two items in a row of one list holds of every two tied items in a row
of a list that keeps its ties. -/
theorem KeepsTies.pairwise
    {xs ys : List α}
    {R : α → α → Prop}
    (order : WeakOrderOn before pool)
    (keeps : KeepsTies before pool xs ys)
    (inPool : ∀ x ∈ xs, pool x)
    (holds : ys.Pairwise R) :
    xs.Pairwise fun a b => tiedWith before a b = true → R a b := by
  refine List.pairwise_iff_forall_sublist.mpr fun {a b} inOrder tied => ?_
  have inA : pool a := inPool a (inOrder.subset List.mem_cons_self)
  exact List.pairwise_iff_forall_sublist.mp holds (KeepsTies.sublist order keeps inA tied inOrder)

end Ties

section Representatives

variable {key : α → RankKey} {corridor : α → Value}

/-- Two items tie under the rank order exactly when their ranks are equal. -/
theorem tiedWith_rank
    (a b : α) :
    tiedWith (fun x y => (key x).before (key y)) a b = decide ((key a).rank = (key b).rank) := by
  rcases lt_trichotomy (key a).rank (key b).rank with less | same | greater
  · simp [tiedWith, RankKey.before, less, ne_of_lt less]
  · simp [tiedWith, RankKey.before, same]
  · simp [tiedWith, RankKey.before, greater, ne_of_gt greater, not_lt.mpr greater.le]

/-- A list sorted by the rank order is sorted by rank. -/
theorem Sorted.rank_le
    {xs : List α}
    (sorted : Sorted (fun x y => (key x).before (key y)) xs) :
    xs.Pairwise fun a b => (key a).rank ≤ (key b).rank :=
  sorted.imp fun {_ _} notBefore => not_lt.mp (by simpa [RankKey.before] using notBefore)

/-! ## The first of the least -/

/-- An item least in its corridor that comes first among the items of its corridor tied with
it is the first of the least. `same` tells the items of its corridor. An item of the corridor that
comes before it is not tied with it. -/
theorem earliestLeast_of_filter
    {items rest : List α}
    {r : α}
    {same : α → Bool}
    (sameIff : ∀ y ∈ items, same y = true ↔ corridor y = corridor r)
    (least : ∀ y ∈ items, corridor y = corridor r → (key r).rank ≤ (key y).rank)
    (first : items.filter (fun y => same y && tiedWith (fun a b => (key a).before (key b)) r y) =
      r :: rest) :
    EarliestLeast key corridor items r := by
  obtain ⟨front, back, split, skipped, -, -⟩ := List.filter_eq_cons_iff.mp first
  refine ⟨front, back, split, fun y inFront sameCorridor => ?_, least⟩
  have inItems : y ∈ items := split ▸ List.mem_append_left _ inFront
  have untied : (key r).rank ≠ (key y).rank := by
    intro sameRank
    apply skipped y inFront
    simp [(sameIff y inItems).mpr sameCorridor, tiedWith_rank, sameRank]
  exact lt_of_le_of_ne (least y inItems sameCorridor) untied

/-- The first of the least comes first among the items of its corridor tied with it. What stands
before it in its corridor ranks above it, so is not tied with it. -/
theorem EarliestLeast.filter_eq
    {items : List α}
    {r : α}
    {same : α → Bool}
    (earliest : EarliestLeast key corridor items r)
    (sameIff : ∀ y ∈ items, same y = true ↔ corridor y = corridor r) :
    ∃ rest, items.filter (fun y => same y && tiedWith (fun a b => (key a).before (key b)) r y) =
      r :: rest := by
  obtain ⟨front, back, split, above, -⟩ := earliest
  let tiedSame := fun y => same y && tiedWith (fun a b => (key a).before (key b)) r y
  have inItems : ∀ y ∈ front, y ∈ items := fun y member => split ▸ List.mem_append_left _ member
  have sameR : same r = true := (sameIff r (split ▸ by simp)).mpr rfl
  have none : front.filter tiedSame = [] := by
    refine List.filter_eq_nil_iff.mpr fun y member => ?_
    by_cases sameY : same y = true
    · have below := above y member ((sameIff y (inItems y member)).mp sameY)
      simp [tiedSame, tiedWith_rank, ne_of_lt below]
    · simp [tiedSame, sameY]
  refine ⟨back.filter tiedSame, ?_⟩
  rw [split, List.filter_append, none,
    List.filter_cons_of_pos (by simp [sameR, tiedWith_rank])]
  rfl

/-- Two firsts of the least of one corridor are one item. Whichever stood first would rank below the
other. -/
theorem EarliestLeast.unique
    {items : List α}
    {r s : α}
    (earliestR : EarliestLeast key corridor items r)
    (earliestS : EarliestLeast key corridor items s)
    (sameCorridor : corridor r = corridor s) :
    r = s := by
  obtain ⟨front, back, split, aboveR, leastR⟩ := earliestR
  obtain ⟨front', back', split', aboveS, leastS⟩ := earliestS
  have inR : r ∈ items := split ▸ by simp
  have inS : s ∈ items := split' ▸ by simp
  have sameRank : (key r).rank = (key s).rank :=
    le_antisymm (leastR s inS sameCorridor.symm) (leastS r inR sameCorridor)
  rcases List.append_eq_append_iff.mp (split.symm.trans split') with
    ⟨between, longer, rest⟩ | ⟨between, longer, rest⟩
  · cases between with
    | nil => exact (List.cons.inj rest).1
    | cons x between =>
        obtain ⟨rfl, -⟩ := List.cons.inj rest
        have before : r ∈ front' := longer ▸ by simp
        exact absurd (aboveS r before sameCorridor) (by rw [sameRank]; exact lt_irrefl _)
  · cases between with
    | nil => exact (List.cons.inj rest).1.symm
    | cons x between =>
        obtain ⟨rfl, -⟩ := List.cons.inj rest
        have before : s ∈ front := longer ▸ by simp
        exact absurd (aboveR s before sameCorridor.symm) (by rw [sameRank]; exact lt_irrefl _)

theorem EarliestLeast.mem
    {items : List α}
    {r : α}
    (earliest : EarliestLeast key corridor items r) :
    r ∈ items := by
  obtain ⟨front, back, split, -, -⟩ := earliest
  exact split ▸ by simp

/-- A first of the least is in every list that covers the corridors of the items with firsts of
the least: its corridor's entry there is itself. -/
theorem EarliestLeast.mem_of_covers
    {items ys : List α}
    {r : α}
    (covers : ∀ x ∈ items, ∃ s ∈ ys, corridor s = corridor x)
    (earliestAll : ∀ s ∈ ys, EarliestLeast key corridor items s)
    (earliest : EarliestLeast key corridor items r) :
    r ∈ ys := by
  obtain ⟨s, member, sameCorridor⟩ := covers r earliest.mem
  rwa [(earliestAll s member).unique earliest sameCorridor] at member

/-- Two lists that hold the first of the least of each corridor of the items once, and nothing
else, hold the same items. -/
theorem EarliestLeast.perm
    {items xs ys : List α}
    (distinctX : (xs.map corridor).Nodup)
    (distinctY : (ys.map corridor).Nodup)
    (coversX : ∀ x ∈ items, ∃ r ∈ xs, corridor r = corridor x)
    (coversY : ∀ x ∈ items, ∃ r ∈ ys, corridor r = corridor x)
    (earliestX : ∀ r ∈ xs, EarliestLeast key corridor items r)
    (earliestY : ∀ r ∈ ys, EarliestLeast key corridor items r) :
    xs.Perm ys :=
  (List.perm_ext_iff_of_nodup (distinctX.of_map _) (distinctY.of_map _)).mpr fun r =>
    ⟨fun member => (earliestX r member).mem_of_covers coversY earliestY,
      fun member => (earliestY r member).mem_of_covers coversX earliestX⟩

/-- In a list sorted by rank, the first of the least of a corridor stands before every item of
a corridor seen after it. Nothing before it ranks above it, so nothing of its corridor stands there,
while the stretch where its corridor is seen reaches past it. -/
theorem EarliestLeast.sublist_of_seenBefore
    {items : List α}
    {a b : α}
    (earliest : EarliestLeast key corridor items a)
    (sorted : items.Pairwise fun x y => (key x).rank ≤ (key y).rank)
    (seen : SeenBefore corridor items (corridor a) (corridor b))
    (member : b ∈ items) :
    [a, b].Sublist items := by
  obtain ⟨front, back, split, above, -⟩ := earliest
  have clear : ∀ y ∈ front, corridor y ≠ corridor a := by
    intro y inFront same
    rw [split] at sorted
    have atMost := (List.pairwise_append.mp sorted).2.2 y inFront a List.mem_cons_self
    exact absurd (above y inFront same) (not_lt.mpr atMost)
  obtain ⟨seenFront, atFront, ⟨x, inSeen, corridorX⟩, lacks⟩ := seen
  have frontA : front ++ [a] <+: items := ⟨back, by rw [split]; simp⟩
  have reaches : front ++ [a] <+: seenFront := by
    rcases le_or_gt seenFront.length front.length with short | long
    · have within : seenFront <+: front :=
        List.prefix_of_prefix_length_le atFront ((List.prefix_append front [a]).trans frontA) short
      exact absurd corridorX (clear x (within.subset inSeen))
    · exact List.prefix_of_prefix_length_le frontA atFront (by simp; omega)
  have later : b ∈ back := by
    rw [split] at member
    rcases List.mem_append.mp member with inFront | inRest
    · exact absurd rfl (lacks b (reaches.subset (List.mem_append_left _ inFront)))
    · rcases List.mem_cons.mp inRest with same | inBack
      · exact absurd rfl (lacks b (reaches.subset (by simp [same])))
      · exact inBack
  rw [split]
  exact List.sublist_append_of_sublist_right
    (List.cons_sublist_cons.mpr (List.singleton_sublist.mpr later))

variable [Inhabited α]

/-- The first of the least of a ranking, when the corridors are texts and the keys compare, is
the first of the least of what was ranked. Ranking keeps the order of the items tied with it, those
of its corridor among them. -/
theorem EarliestLeast.of_ranked
    {items ranked : List α}
    {r : α}
    (texts : TextKeys corridor items)
    (comparable : ComparableKeys key items)
    (run : rankBy key items = .ok ranked)
    (earliest : EarliestLeast key corridor ranked r) :
    EarliestLeast key corridor items r := by
  obtain ⟨-, keeps, rearranged⟩ := rankBy_sorted comparable run
  have inItems : r ∈ items := by
    obtain ⟨front, back, split, -, -⟩ := earliest
    exact rearranged.subset (split ▸ by simp)
  let same : α → Bool := fun y => Value.equal (corridor r) (corridor y)
  have sameIff : ∀ xs : List α, (∀ y ∈ xs, y ∈ items) → ∀ y ∈ xs,
      same y = true ↔ corridor y = corridor r := fun _ within y member =>
    (Value.equal_str_iff (texts r inItems) (texts y (within y member))).trans eq_comm
  obtain ⟨rest, first⟩ :=
    earliest.filter_eq (sameIff ranked fun y member => rearranged.subset member)
  let tied := tiedWith (fun a b => (key a).before (key b)) r
  have tiedFirst : items.filter (fun y => same y && tied y) = r :: rest :=
    calc items.filter (fun y => same y && tied y)
        _ = (items.filter tied).filter same := List.filter_filter.symm
        _ = (ranked.filter tied).filter same := by rw [keeps r (comparable r inItems)]
        _ = ranked.filter (fun y => same y && tied y) := List.filter_filter
        _ = r :: rest := first
  obtain ⟨-, -, -, -, least⟩ := earliest
  exact earliestLeast_of_filter (sameIff items fun _ member => member)
    (fun y member sameCorridor => least y (rearranged.symm.subset member) sameCorridor) tiedFirst

end Representatives

/-! ## Grouping in order of first sight -/

section Grouping

variable {corridor : α → Value}

/-- What is seen first in some items is seen first once more items follow. -/
theorem SeenBefore.append
    {items : List α}
    {c d : Value}
    (seen : SeenBefore corridor items c d)
    (more : List α) :
    SeenBefore corridor (items ++ more) c d := by
  obtain ⟨front, atFront, has, lacks⟩ := seen
  exact ⟨front, atFront.trans (List.prefix_append _ _), has, lacks⟩

/-- Grouping one more item with a text key either adds it to the group of its key, or opens a
group for it after the others. -/
theorem groupOrdered_snoc
    {done : List α}
    {x : α}
    {t : Text}
    {grown : List (Value × List α)}
    (text : corridor x = .str t)
    (run : groupOrdered corridor (done ++ [x]) = .ok grown) :
    ∃ groups, groupOrdered corridor done = .ok groups ∧
      (((groups.any fun g => g.1.equal (.str t)) = true ∧ grown = groups.map fun g =>
          if g.1.equal (.str t) = true then (g.1, g.2 ++ [x]) else (g.1, g.2)) ∨
        ((groups.any fun g => g.1.equal (.str t)) = false ∧ grown = groups ++ [(.str t, [x])])) := by
  unfold groupOrdered at run
  rw [List.foldlM_append, bind_eq_ok] at run
  obtain ⟨groups, prefixRun, run⟩ := run
  rw [List.foldlM_cons, bind_eq_ok] at run
  obtain ⟨next, step, run⟩ := run
  rw [List.foldlM_nil, pure_eq_ok] at run
  subst run
  refine ⟨groups, prefixRun, ?_⟩
  simp only [text, Value.unhashable] at step
  split at step
  next present => exact Or.inl ⟨present, (pure_eq_ok.mp step).symm⟩
  next absent => exact Or.inr ⟨by simpa using absent, (pure_eq_ok.mp step).symm⟩

/-- Grouping items with text keys returns. -/
theorem groupOrdered_returns
    {items : List α}
    (texts : TextKeys corridor items) :
    ∃ groups, groupOrdered corridor items = .ok groups := by
  refine foldlM_returns (fun x member gathered => ?_) []
  obtain ⟨t, text⟩ := texts x member
  simp only [text, Value.unhashable]
  split <;> exact ⟨_, rfl⟩

/-- The groups come in the order in which their keys are first seen. Joining a group keeps every key
in its place, and a new key is seen last, none of the items before having it. -/
theorem groupOrdered_seen
    {items : List α}
    {groups : List (Value × List α)}
    (texts : TextKeys corridor items)
    (run : groupOrdered corridor items = .ok groups) :
    groups.Pairwise fun g h => SeenBefore corridor items g.1 h.1 := by
  induction items using List.reverseRecOn generalizing groups with
  | nil =>
      unfold groupOrdered at run
      rw [List.foldlM_nil, pure_eq_ok] at run
      subst run
      exact .nil
  | append_singleton done x ih =>
      have textsDone : TextKeys corridor done := fun y member => texts y (List.mem_append_left _ member)
      obtain ⟨t, text⟩ := texts x (by simp)
      obtain ⟨built, prefixRun, step⟩ := groupOrdered_snoc text run
      have seen := (ih textsDone prefixRun).imp fun seenGH => seenGH.append [x]
      rcases step with ⟨-, rfl⟩ | ⟨absent, rfl⟩
      · refine List.pairwise_map.mpr (seen.imp fun {g h} seenGH => ?_)
        split <;> split <;> exact seenGH
      · have grouped := groupOrdered_grouped textsDone prefixRun
        refine List.pairwise_append.mpr ⟨seen, List.pairwise_singleton _ _, ?_⟩
        intro g member h new
        rw [List.mem_singleton.mp new]
        obtain ⟨y, inDone, same⟩ := grouped.keyed g member
        refine ⟨done, List.prefix_append _ _, ⟨y, inDone, same⟩, fun z inDone' fresh => ?_⟩
        obtain ⟨g', inGroups, same'⟩ := grouped.covers z inDone'
        have present : (built.any fun g => g.1.equal (.str t)) = true :=
          List.any_eq_true.mpr ⟨g', inGroups, by rw [same', fresh]; simp [Value.equal]⟩
        rw [present] at absent
        exact Bool.noConfusion absent

end Grouping


/-! ## The best item of each corridor -/

section Best

variable [Inhabited α] {key : α → RankKey} {corridor : α → Value}

/-- `bestPerCorridorBy` stage by stage: the groups, each ranked with its key kept, and the
ranked groups' first items ranked. -/
theorem bestPerCorridorBy_stages
    {items best : List α}
    (run : bestPerCorridorBy key corridor items = .ok best) :
    ∃ groups ranked : List (Value × List α), groupOrdered corridor items = .ok groups ∧
      List.Forall₂ (fun g r => r.1 = g.1 ∧ rankBy key g.2 = .ok r.2) groups ranked ∧
      rankBy key (ranked.filterMap fun r => r.2.head?) = .ok best := by
  unfold bestPerCorridorBy groupByCorridorBy at run
  obtain ⟨ranked, grouping, run⟩ := bind_eq_ok.mp run
  obtain ⟨groups, grouping, ranking⟩ := bind_eq_ok.mp grouping
  refine ⟨groups, ranked, grouping,
    ((mapM_eq_ok_iff _ _ _).mp ranking).imp fun g r rankedGroup => ?_, run⟩
  obtain ⟨sorted, sorting, paired⟩ := bind_eq_ok.mp rankedGroup
  rw [pure_eq_ok] at paired
  exact ⟨by rw [← paired], by rw [← paired]; exact sorting⟩

/-- The first item of a ranked group is the first of the least of its corridor among the
items. The group is its corridor's items in input order, and ranking keeps the order of ties. -/
theorem Grouped.head_earliestLeast
    {items : List α}
    {groups : List (Value × List α)}
    (grouped : Grouped corridor items groups)
    (texts : TextKeys corridor items)
    (comparable : ComparableKeys key items)
    {g : Value × List α}
    (member : g ∈ groups)
    {sorted : List α}
    (run : rankBy key g.2 = .ok sorted) :
    ∃ first, sorted.head? = some first ∧ corridor first = g.1 ∧
      EarliestLeast key corridor items first := by
  have inGroup : ∀ y, y ∈ g.2 ↔ y ∈ items ∧ corridor y = g.1 := fun _ =>
    grouped.mem_members texts member
  obtain ⟨y, inItems, same⟩ := grouped.keyed g member
  have nonempty : g.2 ≠ [] := List.ne_nil_of_mem ((inGroup y).mpr ⟨inItems, same⟩)
  have comparableGroup : ComparableKeys key g.2 := fun y inG => comparable y ((inGroup y).mp inG).1
  obtain ⟨first, isHead, isMember, least⟩ := rankBy_head nonempty run
  obtain ⟨-, corridorFirst⟩ := (inGroup first).mp isMember
  obtain ⟨rest, rfl⟩ := List.head?_eq_some_iff.mp isHead
  obtain ⟨-, keeps, -⟩ := rankBy_sorted comparableGroup run
  let same : α → Bool := fun y => Value.equal g.1 (corridor y)
  let tied := tiedWith (fun a b => (key a).before (key b)) first
  have sameIff : ∀ y ∈ items, same y = true ↔ corridor y = corridor first := fun y inItems' =>
    (Value.equal_str_iff (grouped.text_key texts member) (texts y inItems')).trans
      (by rw [corridorFirst]; exact eq_comm)
  have tiedFirst : items.filter (fun y => same y && tied y) = first :: rest.filter tied :=
    calc items.filter (fun y => same y && tied y)
        _ = items.filter (fun y => tied y && same y) :=
          List.filter_congr fun y _ => Bool.and_comm _ _
        _ = (items.filter same).filter tied := List.filter_filter.symm
        _ = (first :: rest).filter tied := by
          rw [← grouped.members g member, keeps first (comparableGroup first isMember)]
        _ = first :: rest.filter tied :=
          List.filter_cons_of_pos (by simp [tied, tiedWith_rank])
  refine ⟨first, rfl, corridorFirst, earliestLeast_of_filter sameIff (fun y inItems' sameC => ?_)
    tiedFirst⟩
  exact least comparableGroup y ((inGroup y).mpr ⟨inItems', sameC.trans corridorFirst⟩)

/-- The first items of ranked groups are, group by group, the firsts of the least of their
corridors. -/
theorem Grouped.heads_earliestLeast
    {items : List α}
    {groups gs ranked : List (Value × List α)}
    (grouped : Grouped corridor items groups)
    (texts : TextKeys corridor items)
    (comparable : ComparableKeys key items)
    (within : ∀ g ∈ gs, g ∈ groups)
    (related : List.Forall₂ (fun g r => r.1 = g.1 ∧ rankBy key g.2 = .ok r.2) gs ranked) :
    List.Forall₂ (fun g first => corridor first = g.1 ∧ EarliestLeast key corridor items first)
      gs (ranked.filterMap fun r => r.2.head?) := by
  induction related with
  | nil => simp
  | cons ranking _ ih =>
      obtain ⟨first, isHead, corridorFirst, earliest⟩ :=
        grouped.head_earliestLeast texts comparable (within _ List.mem_cons_self) ranking.2
      rw [List.filterMap_cons, isHead]
      exact .cons ⟨corridorFirst, earliest⟩ (ih fun g member => within g (List.mem_cons_of_mem _ member))

/-- With text corridors and comparable keys, `bestPerCorridorBy` returns. Each group holds items of
the input, so it ranks, and its first item is an item of the input, so the first items rank too. -/
theorem bestPerCorridorBy_returns
    {items : List α}
    (texts : TextKeys corridor items)
    (comparable : ComparableKeys key items) :
    ∃ best, bestPerCorridorBy key corridor items = .ok best := by
  obtain ⟨groups, grouping⟩ := groupOrdered_returns texts
  have grouped := groupOrdered_grouped texts grouping
  have ranks : ∀ g ∈ groups, ∃ sorted, rankBy key g.2 = .ok sorted := fun g member =>
    rankBy_returns fun y inGroup => comparable y ((grouped.mem_members texts member).mp inGroup).1
  obtain ⟨ranked, ranking⟩ : ∃ ranked, groups.mapM (fun (g : Value × List α) =>
      (do pure (g.1, ← rankBy key g.2) : Except Fault (Value × List α))) = .ok ranked :=
    mapM_returns fun g member => by
      obtain ⟨sorted, sorting⟩ := ranks g member
      exact ⟨(g.1, sorted), by rw [sorting]; rfl⟩
  have related : List.Forall₂ (fun g r => r.1 = g.1 ∧ rankBy key g.2 = .ok r.2) groups ranked :=
    ((mapM_eq_ok_iff _ _ _).mp ranking).imp fun g r rankedGroup => by
      obtain ⟨sorted, sorting, paired⟩ := bind_eq_ok.mp rankedGroup
      rw [pure_eq_ok] at paired
      exact ⟨by rw [← paired], by rw [← paired]; exact sorting⟩
  have heads := grouped.heads_earliestLeast texts comparable (fun g member => member) related
  obtain ⟨best, finalRank⟩ : ∃ best, rankBy key (ranked.filterMap fun r => r.2.head?) = .ok best :=
    rankBy_returns fun r member => by
      obtain ⟨g, -, -, earliest⟩ := forall₂_exists_left heads member
      exact comparable r earliest.mem
  refine ⟨best, ?_⟩
  unfold bestPerCorridorBy groupByCorridorBy
  rw [grouping, ok_bind]
  exact bind_eq_ok.mpr ⟨ranked, ranking, finalRank⟩

/-- The best item of each corridor, said without the grouping: with text corridors and
comparable keys, `bestPerCorridorBy` returns one item for each corridor among the items, each
the first of the least of its corridor, sorted by rank, and those of equal rank in the order
their corridors are first seen. The first items come in the order of their groups, the order of
first sight. -/
theorem bestPerCorridorBy_representatives
    {items : List α}
    (texts : TextKeys corridor items)
    (comparable : ComparableKeys key items) :
    ∃ best, bestPerCorridorBy key corridor items = .ok best ∧
      (best.map corridor).Nodup ∧ (∀ x ∈ items, ∃ r ∈ best, corridor r = corridor x) ∧
      (∀ r ∈ best, EarliestLeast key corridor items r) ∧
      best.Pairwise (fun a b => (key a).rank ≤ (key b).rank) ∧
      best.Pairwise (fun a b => (key a).rank = (key b).rank →
        SeenBefore corridor items (corridor a) (corridor b)) := by
  obtain ⟨best, run⟩ := bestPerCorridorBy_returns texts comparable
  obtain ⟨distinct, -, covers, -⟩ := bestPerCorridor_corridors texts run
  obtain ⟨groups, ranked, grouping, related, ranking⟩ := bestPerCorridorBy_stages run
  have grouped := groupOrdered_grouped texts grouping
  have heads := grouped.heads_earliestLeast texts comparable (fun g member => member) related
  have comparableHeads : ComparableKeys key (ranked.filterMap fun r => r.2.head?) := by
    intro r member
    obtain ⟨g, -, -, earliest⟩ := forall₂_exists_left heads member
    exact comparable r earliest.mem
  obtain ⟨sorted, keeps, rearranged⟩ := rankBy_sorted comparableHeads ranking
  have seenHeads : (ranked.filterMap fun r => r.2.head?).Pairwise
      fun a b => SeenBefore corridor items (corridor a) (corridor b) := by
    have keys : (ranked.filterMap fun r => r.2.head?).map corridor = groups.map Prod.fst := by
      rw [← List.forall₂_eq_eq_eq, List.forall₂_map_left_iff, List.forall₂_map_right_iff]
      exact (heads.imp fun g first facts => facts.1).flip
    have inOrder := List.pairwise_map.mpr (groupOrdered_seen texts grouping)
    rw [← keys] at inOrder
    exact List.pairwise_map.mp inOrder
  refine ⟨best, run, distinct, covers, fun r member => ?_, Sorted.rank_le sorted, ?_⟩
  · obtain ⟨g, -, -, earliest⟩ := forall₂_exists_left heads (rearranged.subset member)
    exact earliest
  · refine (KeepsTies.pairwise RankKey.weakOrder keeps
      (fun r member => comparableHeads r (rearranged.subset member)) seenHeads).imp
      fun {a b} ordered sameRank => ordered ?_
    rw [tiedWith_rank]
    exact decide_eq_true sameRank

end Best

/-! ## Routes -/

/-- The best route of each corridor, said without the grouping. On routes whose scores are
numbers, whose starts are integers and whose corridors are texts, `bestPerCorridor` returns one
route for each corridor among the routes, each the first of the least of its corridor, sorted
by rank, and those of equal rank in the order their corridors are first seen. Ranking the
routes first keeps the same routes, sorted by rank, but those of equal rank now in input
order; the two lists agree when no two routes kept tie. A route kept after ranking is the first of
the least of the routes themselves; routes of equal rank kept after ranking stand in the ranking,
and so in the input, in turn; and with no ties there is one sorted order of the routes kept. -/
theorem bestPerCorridor_earliest_least_sorted
    (routes : List ScoredRoute)
    (numbers : ∀ r ∈ routes, r.score.score.isNaN = false)
    (starts : ∀ r ∈ routes, ∃ t : Int, r.itinerary.startTime = .int t)
    (texts : ∀ r ∈ routes, ∃ t, r.corridor = .str t) :
    ∃ best, bestPerCorridor routes = .ok best ∧
      (best.map ScoredRoute.corridor).Nodup ∧
      (∀ x ∈ routes, ∃ r ∈ best, r.corridor = x.corridor) ∧
      (∀ r ∈ best, EarliestLeast ScoredRoute.key ScoredRoute.corridor routes r) ∧
      best.Pairwise (fun a b => a.key.rank ≤ b.key.rank) ∧
      best.Pairwise (fun a b => a.key.rank = b.key.rank →
        SeenBefore ScoredRoute.corridor routes a.corridor b.corridor) ∧
      ∃ reranked, (rankRoutes routes >>= bestPerCorridor) = .ok reranked ∧
        reranked.Perm best ∧
        reranked.Pairwise (fun a b => a.key.rank ≤ b.key.rank) ∧
        reranked.Pairwise (fun a b => a.key.rank = b.key.rank → [a, b].Sublist routes) ∧
        (best.Pairwise (fun a b => a.key.rank ≠ b.key.rank) → reranked = best) := by
  have comparable : ComparableKeys ScoredRoute.key routes := fun r member =>
    ⟨⟨_, rfl, numbers r member⟩, ⟨_, rfl⟩, starts r member⟩
  obtain ⟨best, run, distinct, covers, earliest, sorted, seen⟩ :=
    bestPerCorridorBy_representatives texts comparable
  obtain ⟨ranked, ranking⟩ := rankBy_returns comparable
  obtain ⟨sortedRanked, keeps, rearranged⟩ := rankBy_sorted comparable ranking
  have comparableRanked : ComparableKeys ScoredRoute.key ranked :=
    fun r member => comparable r (rearranged.subset member)
  obtain ⟨reranked, rerun, distinct', covers', earliest', sorted', seen'⟩ :=
    bestPerCorridorBy_representatives (fun r member => texts r (rearranged.subset member))
      comparableRanked
  have earliestRoutes : ∀ r ∈ reranked, EarliestLeast ScoredRoute.key ScoredRoute.corridor routes r :=
    fun r member => (earliest' r member).of_ranked texts comparable ranking
  have same : reranked.Perm best :=
    EarliestLeast.perm distinct' distinct
      (fun x member => covers' x (rearranged.symm.subset member)) covers earliestRoutes earliest
  refine ⟨best, run, distinct, covers, earliest, sorted, seen, reranked, ?_, same, sorted', ?_,
    fun apart => ?_⟩
  · show (rankBy ScoredRoute.key routes >>= bestPerCorridor) = _
    rw [ranking]
    exact rerun
  · refine seen'.imp_of_mem fun {a b} inA inB ordered sameRank => ?_
    have inRanking := (earliest' a inA).sublist_of_seenBefore (Sorted.rank_le sortedRanked)
      (ordered sameRank) (earliest' b inB).mem
    exact KeepsTies.sublist RankKey.weakOrder keeps (comparableRanked a (earliest' a inA).mem)
      (by rw [tiedWith_rank]; exact decide_eq_true sameRank) inRanking
  · have comparableBest : ∀ r ∈ best, r.key.Comparable := fun r member =>
      comparable r (earliest r member).mem
    have untied : best.Pairwise fun a b =>
        tiedWith (fun x y => x.key.before y.key) a b = false :=
      apart.imp fun {_ _} differ => by rw [tiedWith_rank]; exact decide_eq_false differ
    have sortedBy : ∀ {xs : List ScoredRoute}, xs.Pairwise (fun a b => a.key.rank ≤ b.key.rank) →
        Sorted (fun x y => x.key.before y.key) xs := fun inOrder =>
      inOrder.imp fun {_ _} atMost => by simpa [RankKey.before] using atMost
    exact eq_of_sorted_of_keepsTies RankKey.weakOrder
      (fun r member => comparableBest r (same.subset member)) comparableBest
      (sortedBy sorted') (sortedBy sorted) (keepsTies_of_perm RankKey.weakOrder comparableBest untied same)

/-- Three routes, two corridors: the best of corridor `A` is its second route. -/
theorem bestPerCorridor_three_routes_sorted :
    ∃ best, bestPerCorridor [scoredOnly "A" 5.0 0, scoredOnly "B" 3.0 1, scoredOnly "A" 3.0 2] =
      .ok best ∧ best.Pairwise (fun a b => a.key.rank ≤ b.key.rank) :=
  (bestPerCorridor_earliest_least_sorted _ (by decide) (by simp [scoredOnly])
    (by simp [scoredOnly, ScoredRoute.corridor])).imp fun _ facts => ⟨facts.1, facts.2.2.2.2.1⟩

/-- Routes of equal rank are kept in the order their corridors are first seen, not in input
order, so ranking first changes the order: of `A 5, B 3, A 3` the routes of score 3 are kept
as `A 3, B 3` (positions 2, 1), and after ranking as `B 3, A 3` (positions 1, 2). -/
theorem bestPerCorridor_ties_follow_first_sight :
    (scoredOnly "A" 3.0 2).key = (scoredOnly "B" 3.0 1).key ∧
    (List.map ScoredRoute.index <$> bestPerCorridor
        [scoredOnly "A" 5.0 0, scoredOnly "B" 3.0 1, scoredOnly "A" 3.0 2]).toOption =
        some [2, 1] ∧
      (List.map ScoredRoute.index <$> (rankRoutes
        [scoredOnly "A" 5.0 0, scoredOnly "B" 3.0 1, scoredOnly "A" 3.0 2] >>= bestPerCorridor)).toOption =
        some [1, 2] :=
  ⟨rfl, by decide +kernel, by decide +kernel⟩

end CorridorRank
