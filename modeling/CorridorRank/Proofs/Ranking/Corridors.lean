import CorridorRank.Proofs.Ranking.KeyOrder
import CorridorRank.Proofs.Scoring.Accounting

/-!
# The best item of each corridor

`groupOrdered` collects items by key, one item at a time. When every key is a text, what it
has built after any prefix of the items is `Grouped`: the groups have distinct keys, each
holds exactly the items of the prefix with its key, in input order, and each key of the
prefix has its group (`Grouped.join`, `Grouped.newGroup` for one item, `groupOrdered_grouped`
for the whole list).

`bestPerCorridorBy` ranks each group and ranks the groups' first items. So it returns one
item of each corridor among its input and nothing else (`bestPerCorridor_corridors`); and
when the items' rank keys are comparable, the list is sorted by rank and each of its items
ranks least in its corridor (`bestPerCorridor_least`).
-/

namespace CorridorRank

open Ranking Traversal NaturalMerge

variable {α : Type}

theorem Value.equal_str_iff
    {a b : Value}
    (textA : ∃ s, a = .str s)
    (textB : ∃ s, b = .str s) :
    Value.equal a b = true ↔ a = b := by
  obtain ⟨s, rfl⟩ := textA
  obtain ⟨u, rfl⟩ := textB
  simp [Value.equal]

/-- Every item of a list has a text for key. -/
def TextKeys
    (key : α → Value)
    (items : List α) :
    Prop :=
  ∀ x ∈ items, ∃ t, key x = .str t

/-- The number of distinct keys among a list's items. -/
noncomputable def keyCount
    (key : α → Value)
    (items : List α) :
    Nat :=
  Set.ncard {k | ∃ x ∈ items, key x = k}

/-! ## Grouping -/

/-- What grouping the items `done` by `key` has built: groups with distinct keys, each
holding the items of `done` with its key in input order, and a group for each key among
them. -/
structure Grouped (key : α → Value) (done : List α) (groups : List (Value × List α)) : Prop where
  distinct : (groups.map Prod.fst).Nodup
  members : ∀ g ∈ groups, g.2 = done.filter fun y => Value.equal g.1 (key y)
  covers : ∀ y ∈ done, ∃ g ∈ groups, g.1 = key y
  keyed : ∀ g ∈ groups, ∃ y ∈ done, key y = g.1

section Grouping

variable {key : α → Value} {done : List α} {groups : List (Value × List α)} {x : α} {t : Text}

theorem grouped_nil : Grouped key [] [] :=
  ⟨List.nodup_nil, by simp, by simp, by simp⟩

theorem Grouped.text_key
    (grouped : Grouped key done groups)
    (texts : TextKeys key done)
    {g : Value × List α}
    (member : g ∈ groups) :
    ∃ s, g.1 = .str s := by
  obtain ⟨y, inDone, same⟩ := grouped.keyed g member
  obtain ⟨s, text⟩ := texts y inDone
  exact ⟨s, same ▸ text⟩

/-- Each group holds an item, and each of its items has the group's key. -/
theorem Grouped.mem_members
    (grouped : Grouped key done groups)
    (texts : TextKeys key done)
    {g : Value × List α}
    (member : g ∈ groups)
    {y : α} :
    y ∈ g.2 ↔ y ∈ done ∧ key y = g.1 := by
  rw [grouped.members g member, List.mem_filter]
  constructor
  · rintro ⟨inDone, same⟩
    exact ⟨inDone, ((Value.equal_str_iff (grouped.text_key texts member) (texts y inDone)).mp
      same).symm⟩
  · rintro ⟨inDone, same⟩
    exact ⟨inDone, (Value.equal_str_iff (grouped.text_key texts member) (texts y inDone)).mpr
      same.symm⟩

/-- An item whose key has a group joins that group, and no other. Joining a group keeps every key.
-/
theorem Grouped.join
    (grouped : Grouped key done groups)
    (texts : TextKeys key done)
    (text : key x = .str t)
    (present : (groups.any fun g => g.1.equal (.str t)) = true) :
    Grouped key (done ++ [x]) (groups.map fun g =>
      if g.1.equal (.str t) = true then (g.1, g.2 ++ [x]) else (g.1, g.2)) := by
  obtain ⟨home, atHome, homeEqual⟩ := List.any_eq_true.mp present
  have homeKey : home.1 = key x := by
    rw [text]
    exact (Value.equal_str_iff (grouped.text_key texts atHome) ⟨t, rfl⟩).mp homeEqual
  refine ⟨?_, fun g' member => ?_, fun y member => ?_, fun g' member => ?_⟩
  · simpa [List.map_map, Function.comp_def, apply_ite] using grouped.distinct
  · obtain ⟨g, inGroups, rfl⟩ := List.mem_map.mp member
    by_cases joins : g.1.equal (.str t) = true
    · rw [if_pos joins, List.filter_append, ← grouped.members g inGroups]
      simp [joins, text]
    · rw [if_neg joins, List.filter_append, ← grouped.members g inGroups]
      simp [joins, text]
  · rcases List.mem_append.mp member with earlier | last
    · obtain ⟨g, inGroups, same⟩ := grouped.covers y earlier
      exact ⟨_, List.mem_map_of_mem inGroups, by split <;> exact same⟩
    · rw [List.mem_singleton.mp last]
      exact ⟨_, List.mem_map_of_mem atHome, by split <;> exact homeKey⟩
  · obtain ⟨g, inGroups, rfl⟩ := List.mem_map.mp member
    obtain ⟨y, inDone, same⟩ := grouped.keyed g inGroups
    exact ⟨y, List.mem_append_left _ inDone, by split <;> exact same⟩

/-- An item whose key has no group yet starts one, after the others. No item before it has the new
key, or that item's group would have it. -/
theorem Grouped.newGroup
    (grouped : Grouped key done groups)
    (texts : TextKeys key done)
    (text : key x = .str t)
    (absent : (groups.any fun g => g.1.equal (.str t)) = false) :
    Grouped key (done ++ [x]) (groups ++ [(.str t, [x])]) := by
  have apart : ∀ g ∈ groups, g.1.equal (.str t) = false := by
    simpa using absent
  have fresh : ∀ y ∈ done, Value.equal (.str t) (key y) = false := by
    intro y inDone
    obtain ⟨g, inGroups, same⟩ := grouped.covers y inDone
    cases equal : Value.equal (.str t) (key y)
    · rfl
    · have keyY : key y = .str t := ((Value.equal_str_iff ⟨t, rfl⟩ (texts y inDone)).mp equal).symm
      have := apart g inGroups
      rw [same, keyY] at this
      simp [Value.equal] at this
  refine ⟨?_, fun g member => ?_, fun y member => ?_, fun g member => ?_⟩
  · rw [List.map_append, List.nodup_append]
    refine ⟨grouped.distinct, List.nodup_singleton _, fun k old k' new => ?_⟩
    obtain ⟨g, inGroups, rfl⟩ := List.mem_map.mp old
    have isNew : k' = .str t := by simpa using new
    rw [isNew]
    intro same
    have := apart g inGroups
    rw [same] at this
    simp [Value.equal] at this
  · rw [List.filter_append]
    rcases List.mem_append.mp member with old | new
    · rw [← grouped.members g old]
      simp [apart g old, text]
    · have none : done.filter (fun y => Value.equal (.str t) (key y)) = [] :=
        List.filter_eq_nil_iff.mpr fun y inDone => by simp [fresh y inDone]
      rw [List.mem_singleton.mp new]
      show [x] = done.filter (fun y => Value.equal (.str t) (key y)) ++
        [x].filter (fun y => Value.equal (.str t) (key y))
      rw [none, List.filter_singleton, text]
      simp [Value.equal]
  · rcases List.mem_append.mp member with earlier | last
    · obtain ⟨g, inGroups, same⟩ := grouped.covers y earlier
      exact ⟨g, List.mem_append_left _ inGroups, same⟩
    · rw [List.mem_singleton.mp last, text]
      exact ⟨_, List.mem_append_right _ (List.mem_singleton_self _), rfl⟩
  · rcases List.mem_append.mp member with old | new
    · obtain ⟨y, inDone, same⟩ := grouped.keyed g old
      exact ⟨y, List.mem_append_left _ inDone, same⟩
    · rw [List.mem_singleton.mp new]
      exact ⟨x, List.mem_append_right _ (List.mem_singleton_self _), text⟩

/-- Grouping items with text keys groups them. The fold extends what it has built from a prefix by
the next item. -/
theorem groupOrdered_grouped
    {items : List α}
    (texts : TextKeys key items)
    (run : groupOrdered key items = .ok groups) :
    Grouped key items groups := by
  induction items using List.reverseRecOn generalizing groups with
  | nil =>
      unfold groupOrdered at run
      rw [List.foldlM_nil, pure_eq_ok] at run
      subst run
      exact grouped_nil
  | append_singleton done x ih =>
      have textsDone : TextKeys key done := fun y member => texts y (List.mem_append_left _ member)
      unfold groupOrdered at run
      rw [List.foldlM_append, bind_eq_ok] at run
      obtain ⟨built, prefixRun, run⟩ := run
      have start : Grouped key done built := ih textsDone prefixRun
      rw [List.foldlM_cons, bind_eq_ok] at run
      obtain ⟨next, step, run⟩ := run
      rw [List.foldlM_nil, pure_eq_ok] at run
      subst run
      obtain ⟨t, text⟩ := texts x (by simp)
      simp only [text, Value.unhashable] at step
      split at step
      next present =>
        rw [pure_eq_ok] at step
        exact step ▸ start.join textsDone text present
      next absent =>
        rw [pure_eq_ok] at step
        exact step ▸ start.newGroup textsDone text (by simpa using absent)

end Grouping

/-! ## The best of each group -/

theorem forall₂_exists_left
    {β γ : Type}
    {R : β → γ → Prop}
    {left : List β}
    {right : List γ}
    (related : List.Forall₂ R left right)
    {b : γ}
    (member : b ∈ right) :
    ∃ a ∈ left, R a b := by
  induction related with
  | nil => simp at member
  | cons first _ ih =>
      rcases List.mem_cons.mp member with same | later
      · exact ⟨_, List.mem_cons_self, same ▸ first⟩
      · obtain ⟨a, inLeft, holds⟩ := ih later
        exact ⟨a, List.mem_cons_of_mem _ inLeft, holds⟩

theorem forall₂_exists_right
    {β γ : Type}
    {R : β → γ → Prop}
    {left : List β}
    {right : List γ}
    (related : List.Forall₂ R left right)
    {a : β}
    (member : a ∈ left) :
    ∃ b ∈ right, R a b := by
  induction related with
  | nil => simp at member
  | cons first _ ih =>
      rcases List.mem_cons.mp member with same | later
      · exact ⟨_, List.mem_cons_self, same ▸ first⟩
      · obtain ⟨b, inRight, holds⟩ := ih later
        exact ⟨b, List.mem_cons_of_mem _ inRight, holds⟩

section Best

variable [Inhabited α] {key : α → RankKey} {corridor : α → Value}

/-- The items of one group whose rank keys are comparable. -/
def ComparableKeys
    (key : α → RankKey)
    (items : List α) :
    Prop :=
  ∀ x ∈ items, (key x).Comparable

/-- A ranked group starts with one of its members, of least rank among them. Nothing after the first
item ranks below it. -/
theorem rankBy_head
    {members sorted : List α}
    (nonempty : members ≠ [])
    (run : rankBy key members = .ok sorted) :
    ∃ first, sorted.head? = some first ∧ first ∈ members ∧
      (ComparableKeys key members → ∀ x ∈ members, (key first).rank ≤ (key x).rank) := by
  have rearranged := rankBy_perm run
  cases sorted with
  | nil => exact absurd (List.Perm.nil_eq rearranged).symm nonempty
  | cons first rest =>
      refine ⟨first, rfl, rearranged.subset List.mem_cons_self, fun comparable x member => ?_⟩
      obtain ⟨ranks, -, -⟩ := rankBy_sorted comparable run
      rcases List.mem_cons.mp (rearranged.symm.subset member) with same | later
      · rw [same]
      · have after := (sorted_cons.mp ranks).1 x later
        simpa [RankKey.before] using after

/-- Ranking each group of `groups` and taking the first items gives one item for each group,
a member of it of least rank. -/
theorem heads_of_ranked
    {groups ranked : List (Value × List α)}
    (related : List.Forall₂ (fun g r => r.1 = g.1 ∧ rankBy key g.2 = .ok r.2) groups ranked)
    (nonempty : ∀ g ∈ groups, g.2 ≠ []) :
    List.Forall₂ (fun g first => first ∈ g.2 ∧
        (ComparableKeys key g.2 → ∀ x ∈ g.2, (key first).rank ≤ (key x).rank))
      groups (ranked.filterMap fun r => r.2.head?) := by
  induction related with
  | nil => simp
  | cons ranking _ ih =>
      obtain ⟨first, isFirst, member, least⟩ :=
        rankBy_head (nonempty _ List.mem_cons_self) ranking.2
      rw [List.filterMap_cons, isFirst]
      exact .cons ⟨member, least⟩ (ih fun g inRest => nonempty g (List.mem_cons_of_mem _ inRest))

/-- What `bestPerCorridorBy` computes, stage by stage: the groups, their first items once
ranked, and those items ranked. Every group holds the item that opened it, and each is ranked and
keeps its key. -/
theorem bestPerCorridorBy_eq
    {items best : List α}
    (texts : TextKeys corridor items)
    (run : bestPerCorridorBy key corridor items = .ok best) :
    ∃ groups heads, Grouped corridor items groups ∧
      List.Forall₂ (fun g first => g ∈ groups ∧ first ∈ g.2 ∧
        (ComparableKeys key g.2 → ∀ x ∈ g.2, (key first).rank ≤ (key x).rank)) groups heads ∧
      rankBy key heads = .ok best := by
  unfold bestPerCorridorBy groupByCorridorBy at run
  obtain ⟨ranked, grouping, run⟩ := bind_eq_ok.mp run
  obtain ⟨groups, grouping, ranking⟩ := bind_eq_ok.mp grouping
  have grouped := groupOrdered_grouped texts grouping
  have nonempty : ∀ g ∈ groups, g.2 ≠ [] := by
    intro g member
    obtain ⟨y, inItems, same⟩ := grouped.keyed g member
    exact List.ne_nil_of_mem ((grouped.mem_members texts member).mpr ⟨inItems, same⟩)
  have rankedGroups : List.Forall₂ (fun g r => r.1 = g.1 ∧ rankBy key g.2 = .ok r.2) groups
      ranked := ((mapM_eq_ok_iff _ _ _).mp ranking).imp fun g r ranked => by
    obtain ⟨sorted, sorting, paired⟩ := bind_eq_ok.mp ranked
    rw [pure_eq_ok] at paired
    exact ⟨by rw [← paired], by rw [← paired]; exact sorting⟩
  exact ⟨groups, _, grouped, (List.forall₂_and_left _ _).mpr
    ⟨fun g member => member, heads_of_ranked rankedGroups nonempty⟩, run⟩

/-- The best item of each corridor: one item for each corridor among the input, taken from
the input, so as many items as there are corridors. A first item is a member of its group, an input
item with the group's key, so the corridors of the input are those of the result, each once. -/
theorem bestPerCorridor_corridors
    {items best : List α}
    (texts : TextKeys corridor items)
    (run : bestPerCorridorBy key corridor items = .ok best) :
    (best.map corridor).Nodup ∧ (∀ r ∈ best, r ∈ items) ∧
      (∀ x ∈ items, ∃ r ∈ best, corridor r = corridor x) ∧
      best.length = keyCount corridor items := by
  obtain ⟨groups, heads, grouped, related, ranking⟩ := bestPerCorridorBy_eq texts run
  have rearranged := rankBy_perm ranking
  have ofGroup : ∀ {g first}, g ∈ groups → first ∈ g.2 → first ∈ items ∧ corridor first = g.1 :=
    fun member inGroup => (grouped.mem_members texts member).mp inGroup
  have keys : heads.map corridor = groups.map Prod.fst := by
    have same : List.Forall₂ (fun g first => g.1 = corridor first) groups heads :=
      related.imp fun g first ⟨member, inGroup, _⟩ => (ofGroup member inGroup).2.symm
    rw [← List.forall₂_eq_eq_eq, List.forall₂_map_left_iff, List.forall₂_map_right_iff]
    exact List.Forall₂.flip (same.imp fun g first equal => equal.symm)
  have distinct : (best.map corridor).Nodup := by
    rw [(rearranged.map corridor).nodup_iff, keys]
    exact grouped.distinct
  have fromItems : ∀ r ∈ best, r ∈ items := by
    intro r member
    obtain ⟨g, -, inGroups, inGroup, -⟩ := forall₂_exists_left related (rearranged.subset member)
    exact (ofGroup inGroups inGroup).1
  have everyCorridor : ∀ x ∈ items, ∃ r ∈ best, corridor r = corridor x := by
    intro x member
    obtain ⟨g, inGroups, same⟩ := grouped.covers x member
    obtain ⟨first, isHead, -, inGroup, -⟩ := forall₂_exists_right related inGroups
    exact ⟨first, rearranged.symm.subset isHead, (ofGroup inGroups inGroup).2.trans same⟩
  refine ⟨distinct, fromItems, everyCorridor, ?_⟩
  classical
  have corridors : {k | ∃ x ∈ items, corridor x = k} = ((best.map corridor).toFinset : Set Value) := by
    ext k
    simp only [Set.mem_ofPred_eq, List.coe_toFinset, List.mem_map]
    constructor
    · rintro ⟨x, member, rfl⟩
      obtain ⟨r, inBest, same⟩ := everyCorridor x member
      exact ⟨r, inBest, same⟩
    · rintro ⟨r, inBest, rfl⟩
      exact ⟨r, fromItems r inBest, rfl⟩
  rw [keyCount, corridors, Set.ncard_coe_finset, List.toFinset_card_of_nodup distinct,
    List.length_map]

/-- When the rank keys are comparable, the best items are sorted by rank, and none ranks
below an item of its own corridor. An item sharing the corridor of a best item is in the group that
item was the first of. -/
theorem bestPerCorridor_least
    {items best : List α}
    (texts : TextKeys corridor items)
    (comparable : ComparableKeys key items)
    (run : bestPerCorridorBy key corridor items = .ok best) :
    Sorted (fun a b => (key a).before (key b)) best ∧
      ∀ r ∈ best, ∀ x ∈ items, corridor x = corridor r → (key r).rank ≤ (key x).rank := by
  obtain ⟨groups, heads, grouped, related, ranking⟩ := bestPerCorridorBy_eq texts run
  have rearranged := rankBy_perm ranking
  have inGroup : ∀ {g y}, g ∈ groups → y ∈ g.2 → y ∈ items ∧ corridor y = g.1 :=
    fun member inGroup => (grouped.mem_members texts member).mp inGroup
  have headsComparable : ComparableKeys key heads := by
    intro first isHead
    obtain ⟨g, -, inGroups, member, -⟩ := forall₂_exists_left related isHead
    exact comparable first (inGroup inGroups member).1
  refine ⟨(rankBy_sorted headsComparable ranking).1, fun r member x inItems same => ?_⟩
  obtain ⟨g, -, inGroups, isMember, least⟩ := forall₂_exists_left related (rearranged.subset member)
  have corridorR := (inGroup inGroups isMember).2
  have xInGroup : x ∈ g.2 := (grouped.mem_members texts inGroups).mpr ⟨inItems, same.trans corridorR⟩
  exact least (fun y inG => comparable y (inGroup inGroups inG).1) x xInGroup

/-- When the rank keys are comparable, no item of a corridor that the first `n` best items
leave out ranks below any of them. The best item of a corridor left out was cut off, so it comes
after every kept one. -/
theorem bestPerCorridor_take_top
    {items best : List α}
    (texts : TextKeys corridor items)
    (comparable : ComparableKeys key items)
    (run : bestPerCorridorBy key corridor items = .ok best)
    (n : Nat) :
    ∀ r ∈ best.take n, ∀ x ∈ items, corridor x ∉ (best.take n).map corridor →
      (key r).rank ≤ (key x).rank := by
  obtain ⟨sorted, least⟩ := bestPerCorridor_least texts comparable run
  obtain ⟨-, -, everyCorridor, -⟩ := bestPerCorridor_corridors texts run
  intro r kept x inItems missing
  obtain ⟨b, inBest, same⟩ := everyCorridor x inItems
  have dropped : b ∈ best.drop n := by
    rcases List.mem_append.mp ((List.take_append_drop n best).symm ▸ inBest) with inTake | inDrop
    · exact absurd (same ▸ List.mem_map_of_mem inTake) missing
    · exact inDrop
  have after : (key b).before (key r) = false := by
    rw [← List.take_append_drop n best] at sorted
    exact (sorted_append.mp sorted).2.2 r kept b dropped
  have below : (key r).rank ≤ (key b).rank := by
    simpa [RankKey.before] using after
  exact below.trans (least b inBest x inItems same.symm)

end Best

end CorridorRank
