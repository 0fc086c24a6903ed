import CorridorRank.Proofs.Ranking.Representatives

/-!
# Routes grouped by corridor

`groupByCorridor` collects routes by corridor and ranks each group. When the corridors are
texts and the rank keys compare, it returns, and what it returns can be said without the
fold (`groupByCorridor_partitions`): one group for each corridor among the routes, in the
order in which the corridors are first seen, each holding the ranking of its corridor's
routes taken in input order. So no group is empty, every route sits in the group of its own
corridor, and the groups together hold every route once.

The fold adds one route at a time, to the one group of its corridor or to a new group at the
end; either way the groups' routes are the routes seen so far, rearranged
(`groupOrdered_flatMap_perm`). Ranking a group only rearranges it (`rankBy_perm`).
-/

namespace CorridorRank

open Ranking Traversal

variable {α : Type}

/-! ## Every item in one group -/

section Grouping

variable {key : α → Value}

/-- Adding an item to the one group whose key matches adds it once to the groups' items. The item
joins the first group with its key, and no later group has that key. -/
theorem flatMap_join_perm
    (x : α)
    {k : Value}
    {groups : List (Value × List α)}
    (distinct : (groups.map Prod.fst).Nodup)
    (exactKey : ∀ g ∈ groups, g.1.equal k = true ↔ g.1 = k)
    (present : ∃ g ∈ groups, g.1 = k) :
    ((groups.map fun g => if g.1.equal k = true then (g.1, g.2 ++ [x]) else (g.1, g.2)).flatMap
      Prod.snd).Perm (groups.flatMap Prod.snd ++ [x]) := by
  induction groups with
  | nil => simp at present
  | cons g rest ih =>
    rw [List.map_cons, List.nodup_cons] at distinct
    by_cases home : g.1 = k
    · have others : ∀ h ∈ rest, h.1.equal k = false := by
        intro h member
        refine Bool.eq_false_iff.mpr fun joins => distinct.1 ?_
        rw [home, ← (exactKey h (List.mem_cons_of_mem g member)).mp joins]
        exact List.mem_map_of_mem member
      have untouched : (rest.map fun h =>
          if h.1.equal k = true then (h.1, h.2 ++ [x]) else (h.1, h.2)) = rest := by
        refine (List.map_congr_left fun h member => ?_).trans (List.map_id rest)
        rw [others h member]
        rfl
      rw [List.map_cons, if_pos ((exactKey g List.mem_cons_self).mpr home), untouched,
        List.flatMap_cons, List.flatMap_cons, List.append_assoc, List.append_assoc]
      exact List.perm_append_comm.append_left g.2
    · have apart : g.1.equal k = false :=
        Bool.eq_false_iff.mpr fun joins => home ((exactKey g List.mem_cons_self).mp joins)
      obtain ⟨h, member, same⟩ := present
      have later : ∃ h ∈ rest, h.1 = k :=
        ⟨h, (List.mem_cons.mp member).resolve_left fun first => home (first ▸ same), same⟩
      rw [List.map_cons, apart, List.flatMap_cons, List.flatMap_cons, List.append_assoc]
      exact (ih distinct.2 (fun h member => exactKey h (List.mem_cons_of_mem g member))
        later).append_left g.2

/-- Grouping items with text keys keeps every item, once: the groups' items are the items,
rearranged. What the fold has built from a prefix holds that prefix, and the next item goes in once.
-/
theorem groupOrdered_flatMap_perm
    {items : List α}
    {groups : List (Value × List α)}
    (texts : TextKeys key items)
    (run : groupOrdered key items = .ok groups) :
    (groups.flatMap Prod.snd).Perm items := by
  induction items using List.reverseRecOn generalizing groups with
  | nil =>
      unfold groupOrdered at run
      rw [List.foldlM_nil, pure_eq_ok] at run
      subst run
      exact List.Perm.refl _
  | append_singleton done x ih =>
      have textsDone : TextKeys key done := fun y member => texts y (List.mem_append_left _ member)
      obtain ⟨t, text⟩ := texts x (by simp)
      obtain ⟨built, prefixRun, step⟩ := groupOrdered_snoc text run
      have held := (ih textsDone prefixRun).append_right [x]
      rcases step with ⟨present, rfl⟩ | ⟨-, rfl⟩
      · have grouped := groupOrdered_grouped textsDone prefixRun
        have exactKey : ∀ g ∈ built, g.1.equal (.str t) = true ↔ g.1 = .str t := fun g member =>
          Value.equal_str_iff (grouped.text_key textsDone member) ⟨t, rfl⟩
        obtain ⟨home, atHome, joins⟩ := List.any_eq_true.mp present
        exact (flatMap_join_perm x grouped.distinct exactKey
          ⟨home, atHome, (exactKey home atHome).mp joins⟩).trans held
      · rw [List.flatMap_append]
        simpa using held

/-- Groups rearranged one by one hold, together, a rearrangement of what they held. -/
theorem flatMap_perm_of_forall₂
    {groups ranked : List (Value × List α)}
    (related : List.Forall₂ (fun g r => r.2.Perm g.2) groups ranked) :
    (ranked.flatMap Prod.snd).Perm (groups.flatMap Prod.snd) := by
  induction related with
  | nil => exact List.Perm.refl _
  | cons same _ ih =>
      rw [List.flatMap_cons, List.flatMap_cons]
      exact same.append ih

/-- Every group holds an item: the one that opened it. -/
theorem Grouped.ne_nil
    {done : List α}
    {groups : List (Value × List α)}
    (grouped : Grouped key done groups)
    (texts : TextKeys key done)
    {g : Value × List α}
    (member : g ∈ groups) :
    g.2 ≠ [] := by
  obtain ⟨y, inDone, same⟩ := grouped.keyed g member
  exact List.ne_nil_of_mem ((grouped.mem_members texts member).mpr ⟨inDone, same⟩)

end Grouping

/-! ## Ranking each group -/

section Ranked

variable [Inhabited α] {key : α → RankKey} {corridor : α → Value}

/-- `groupByCorridorBy` stage by stage: the groups, then each group ranked with its key
kept. -/
theorem groupByCorridorBy_ranks
    {items : List α}
    {ranked : List (Value × List α)}
    (run : groupByCorridorBy key corridor items = .ok ranked) :
    ∃ groups, groupOrdered corridor items = .ok groups ∧
      List.Forall₂ (fun g r => r.1 = g.1 ∧ rankBy key g.2 = .ok r.2) groups ranked := by
  unfold groupByCorridorBy at run
  obtain ⟨groups, grouping, ranking⟩ := bind_eq_ok.mp run
  refine ⟨groups, grouping, ((mapM_eq_ok_iff _ _ _).mp ranking).imp fun g r rankedGroup => ?_⟩
  obtain ⟨sorted, sorting, paired⟩ := bind_eq_ok.mp rankedGroup
  rw [pure_eq_ok] at paired
  exact ⟨by rw [← paired], by rw [← paired]; exact sorting⟩

/-- With text corridors and comparable keys, `groupByCorridorBy` returns: the grouping does,
and each group holds items of the input, so it ranks. -/
theorem groupByCorridorBy_returns
    {items : List α}
    (texts : TextKeys corridor items)
    (comparable : ComparableKeys key items) :
    ∃ ranked, groupByCorridorBy key corridor items = .ok ranked := by
  obtain ⟨groups, grouping⟩ := groupOrdered_returns texts
  have grouped := groupOrdered_grouped texts grouping
  unfold groupByCorridorBy
  rw [grouping, ok_bind]
  refine mapM_returns fun ⟨k, members⟩ member => ?_
  obtain ⟨sorted, sorting⟩ := rankBy_returns fun y inGroup =>
    comparable y ((grouped.mem_members texts member).mp inGroup).1
  exact ⟨(k, sorted), by dsimp only at sorting ⊢; rw [sorting]; rfl⟩

/-- Grouping by corridor, said without the fold: with text corridors and comparable keys,
`groupByCorridorBy` returns one group for each corridor among the items and no other, in the
order the corridors are first seen; a group holds the ranking of its corridor's items in
input order. So each group holds an item, each item of a group has the group's corridor,
and the groups together hold the items, each once. A ranked group is the group of its key,
rearranged. -/
theorem groupByCorridorBy_partitions
    {items : List α}
    (texts : TextKeys corridor items)
    (comparable : ComparableKeys key items) :
    ∃ ranked, groupByCorridorBy key corridor items = .ok ranked ∧
      (ranked.map Prod.fst).Nodup ∧ (∀ x ∈ items, ∃ r ∈ ranked, r.1 = corridor x) ∧
      (∀ r ∈ ranked, ∃ x ∈ items, corridor x = r.1) ∧
      ranked.Pairwise (fun r s => SeenBefore corridor items r.1 s.1) ∧
      (∀ r ∈ ranked, rankBy key (items.filter fun x => Value.equal r.1 (corridor x)) = .ok r.2) ∧
      (∀ r ∈ ranked, r.2 ≠ []) ∧ (∀ r ∈ ranked, ∀ x ∈ r.2, corridor x = r.1) ∧
      (ranked.flatMap Prod.snd).Perm items := by
  obtain ⟨ranked, run⟩ := groupByCorridorBy_returns texts comparable
  obtain ⟨groups, grouping, related⟩ := groupByCorridorBy_ranks run
  have grouped := groupOrdered_grouped texts grouping
  have ofGroup : ∀ r ∈ ranked, ∃ g ∈ groups, r.1 = g.1 ∧ rankBy key g.2 = .ok r.2 :=
    fun r member => forall₂_exists_left related member
  have keys : ranked.map Prod.fst = groups.map Prod.fst := by
    have same : List.Forall₂ (fun a b => a = b) (groups.map Prod.fst) (ranked.map Prod.fst) :=
      List.forall₂_map_left_iff.mpr (List.forall₂_map_right_iff.mpr
        (related.imp fun _ _ paired => paired.1.symm))
    exact (List.forall₂_eq_eq_eq ▸ same).symm
  refine ⟨ranked, run, keys ▸ grouped.distinct, fun x member => ?_, fun r member => ?_, ?_,
    fun r member => ?_, fun r member => ?_, fun r member y inGroup => ?_,
    (flatMap_perm_of_forall₂ (related.imp fun _ _ paired => rankBy_perm paired.2)).trans
      (groupOrdered_flatMap_perm texts grouping)⟩
  · obtain ⟨g, inGroups, same⟩ := grouped.covers x member
    obtain ⟨r, inRanked, paired⟩ := forall₂_exists_right related inGroups
    exact ⟨r, inRanked, paired.1.trans same⟩
  · obtain ⟨g, inGroups, same, -⟩ := ofGroup r member
    obtain ⟨x, inItems, keyed⟩ := grouped.keyed g inGroups
    exact ⟨x, inItems, keyed.trans same.symm⟩
  · rw [← List.pairwise_map, keys, List.pairwise_map]
    exact groupOrdered_seen texts grouping
  · obtain ⟨g, inGroups, same, ranking⟩ := ofGroup r member
    rw [same, ← grouped.members g inGroups]
    exact ranking
  · obtain ⟨g, inGroups, -, ranking⟩ := ofGroup r member
    exact fun empty => grouped.ne_nil texts inGroups (List.Perm.nil_eq (empty ▸ rankBy_perm ranking)).symm
  · obtain ⟨g, inGroups, same, ranking⟩ := ofGroup r member
    rw [same]
    exact ((grouped.mem_members texts inGroups).mp ((rankBy_perm ranking).subset inGroup)).2

end Ranked

/-! ## Scored routes -/

/-- Scored routes grouped by corridor. On routes whose scores are numbers, whose starts are
integers and whose corridors are texts, `groupByCorridor` returns one group for each
corridor among the routes and no other, in the order the corridors are first seen; the
group of corridor `c` is the ranking of the routes of corridor `c` in input order. So no
group is empty, no route is in the group of another corridor, and the groups together are a
rearrangement of the routes: none is lost and none is repeated. -/
theorem groupByCorridor_partitions
    (routes : List ScoredRoute)
    (numbers : ∀ r ∈ routes, r.score.score.isNaN = false)
    (starts : ∀ r ∈ routes, ∃ t : Int, r.itinerary.startTime = .int t)
    (texts : ∀ r ∈ routes, ∃ t, r.corridor = .str t) :
    ∃ groups, groupByCorridor routes = .ok groups ∧
      (groups.map Prod.fst).Nodup ∧ (∀ x ∈ routes, ∃ g ∈ groups, g.1 = x.corridor) ∧
      (∀ g ∈ groups, ∃ x ∈ routes, x.corridor = g.1) ∧
      groups.Pairwise (fun g h => SeenBefore ScoredRoute.corridor routes g.1 h.1) ∧
      (∀ g ∈ groups, rankRoutes (routes.filter fun x => Value.equal g.1 x.corridor) = .ok g.2) ∧
      (∀ g ∈ groups, g.2 ≠ []) ∧ (∀ g ∈ groups, ∀ x ∈ g.2, x.corridor = g.1) ∧
      (groups.flatMap Prod.snd).Perm routes :=
  groupByCorridorBy_partitions texts fun r member =>
    ⟨⟨_, rfl, numbers r member⟩, ⟨_, rfl⟩, starts r member⟩

/-- Two corridors interleaved, `A 5, B 3, A 3`: grouping returns, and its groups hold the
three routes. -/
theorem groupByCorridor_interleaved_corridors :
    ∃ groups, groupByCorridor [scoredOnly "A" 5.0 0, scoredOnly "B" 3.0 1, scoredOnly "A" 3.0 2] =
      .ok groups ∧ (groups.flatMap Prod.snd).Perm
        [scoredOnly "A" 5.0 0, scoredOnly "B" 3.0 1, scoredOnly "A" 3.0 2] :=
  (groupByCorridor_partitions _ (by decide) (by simp [scoredOnly])
    (by simp [scoredOnly, ScoredRoute.corridor])).imp fun _ facts => ⟨facts.1, facts.2.2.2.2.2.2.2.2⟩

/-- Corridor `A` is seen first, and its routes are ranked: position 2 (score 3) before
position 0 (score 5). -/
example : (List.map (fun g => g.2.map ScoredRoute.index) <$>
    groupByCorridor [scoredOnly "A" 5.0 0, scoredOnly "B" 3.0 1, scoredOnly "A" 3.0 2]).toOption =
    some [[2, 0], [1]] := by
  decide +kernel

end CorridorRank
