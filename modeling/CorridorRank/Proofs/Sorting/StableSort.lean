import CorridorRank.Proofs.Sorting.StableMerge

/-!
# The natural merge sort is the stable sort

With a comparison that answers as a strict weak order on the items (`Decides`,
`WeakOrderOn`), `sortBy` returns a sorted rearrangement of its input that keeps the ties of
the input (`sortBy_stable`), and so the one stable sort (`eq_of_sorted_of_keepsTies`).

Every step of the sort that moves items sorts one stretch of the array stably and leaves
the rest (`SortsStretch`): a run found ascending is left as it is, one found strictly
descending is reversed, a short run is extended by binary insertion, and two runs side by
side are merged. The stack keeps its runs sorted (`Sorter.Ordered`); the fuel of each loop
is enough for the runs to cover the array and for the stack to come down to one run.
-/

namespace CorridorRank.NaturalMerge

open Traversal

variable {α ε : Type} [Inhabited α] {before : α → α → Bool} {pool : α → Prop}
  {lt : α → α → Except ε Bool}

/-! ## Runs -/

theorem segment_getElem
    {items : Array α}
    {start len m : Nat}
    (inside : m < (segment items start len).toList.length) :
    (segment items start len).toList[m] = items.getD (start + m) default := by
  have sized : m < (segment items start len).size := by simpa using inside
  rw [size_segment] at sized
  simp [segment, Array.getD_eq_getD_getElem?, show start + m < items.size by omega]

omit [Inhabited α] in
/-- A stretch split at a point inside it. -/
theorem segment_split
    {items : Array α}
    {lo l stop : Nat}
    (after : lo ≤ l)
    (upTo : l ≤ stop) :
    (segment items lo (stop - lo)).toList =
      (segment items lo (l - lo)).toList ++ (segment items l (stop - l)).toList := by
  have joined := segment_append items lo (l - lo) (stop - l)
  rw [show lo + (l - lo) = l by omega, show l - lo + (stop - l) = stop - lo by omega] at joined
  exact joined.symm

/-- A stretch whose neighbours are related by a transitive relation is related pairwise. Each item
is related to every later one, by induction on the later position. -/
theorem pairwise_of_adjacent
    {R : α → α → Prop}
    {items : Array α}
    {lo len : Nat}
    (trans : ∀ x y z, pool x → pool y → pool z → R x y → R y z → R x z)
    (inPool : ∀ m < len, pool (items.getD (lo + m) default))
    (adjacent : ∀ m, 0 < m → m < len →
      R (items.getD (lo + (m - 1)) default) (items.getD (lo + m) default)) :
    (segment items lo len).toList.Pairwise R := by
  have chain : ∀ j < len, ∀ i < j,
      R (items.getD (lo + i) default) (items.getD (lo + j) default) := by
    intro j
    induction j with
    | zero => intro _ i below; omega
    | succ j ih =>
        intro inside i below
        have step := adjacent (j + 1) (by omega) inside
        rcases Nat.lt_or_eq_of_le (Nat.le_of_lt_succ below) with earlier | same
        · exact trans _ _ _ (inPool i (by omega)) (inPool j (by omega)) (inPool (j + 1) inside)
            (ih (by omega) i earlier) step
        · subst same
          exact step
  rw [List.pairwise_iff_getElem]
  intro i j inI inJ ordered
  rw [segment_getElem, segment_getElem]
  have sized := inJ
  rw [Array.length_toList, size_segment] at sized
  exact chain j (by omega) i ordered

variable (order : WeakOrderOn before pool) (decides : Decides lt before pool)

include decides in
/-- A run continues while each item comes before its predecessor exactly when the run
descends. -/
theorem runEnd_adjacent
    {items : Array α}
    {descending : Bool}
    {hi position stop : Nat}
    (within : hi ≤ items.size)
    (inItems : ∀ x ∈ items.toList, pool x)
    (after : 1 ≤ position)
    (found : runEnd lt items descending hi position = .ok stop) :
    ∀ j, position ≤ j → j < stop →
      before (items.getD j default) (items.getD (j - 1) default) = descending := by
  fun_induction runEnd lt items descending hi position generalizing stop with
  | case1 position below ih =>
      obtain ⟨answer, compared, found⟩ := bind_eq_ok.mp found
      rw [decides _ _ (inItems _ (getD_mem (by omega))) (inItems _ (getD_mem (by omega))),
        Except.ok.injEq] at compared
      split at found
      next continues =>
        intro j low high
        rcases Nat.lt_or_eq_of_le low with later | same
        · exact ih (by omega) found j later high
        · subst same
          rw [compared]
          simpa using continues
      next =>
        rw [pure_eq_ok] at found
        intro j low high
        omega
  | case2 position above =>
      rw [pure_eq_ok] at found
      intro j low high
      omega

include decides in
/-- A run found from `lo` has at least one item, and each later item of it comes before its
predecessor exactly when the run descends. The first comparison sets the direction. -/
theorem countRun_adjacent
    {items : Array α}
    {lo hi len : Nat}
    {descending : Bool}
    (within : hi ≤ items.size)
    (inItems : ∀ x ∈ items.toList, pool x)
    (below : lo < hi)
    (found : countRun lt items lo hi = .ok (len, descending)) :
    1 ≤ len ∧ lo + len ≤ hi ∧ ∀ m, 0 < m → m < len →
      before (items.getD (lo + m) default) (items.getD (lo + (m - 1)) default) = descending := by
  unfold countRun at found
  split at found
  · simp only [pure_eq_ok, Prod.mk.injEq] at found
    obtain ⟨rfl, rfl⟩ := found
    exact ⟨Nat.le_refl 1, by omega, fun m some single => by omega⟩
  · obtain ⟨first, compared, found⟩ := bind_eq_ok.mp found
    obtain ⟨stop, ended, found⟩ := bind_eq_ok.mp found
    simp only [pure_eq_ok, Prod.mk.injEq] at found
    obtain ⟨rfl, rfl⟩ := found
    rw [decides _ _ (inItems _ (getD_mem (by omega))) (inItems _ (getD_mem (by omega))),
      Except.ok.injEq] at compared
    have bounds := runEnd_bounds lt ended
    refine ⟨by omega, by omega, fun m some inside => ?_⟩
    rcases Nat.lt_or_ge m 2 with second | later
    · rw [show m = 1 by omega]
      exact compared
    · have step := runEnd_adjacent decides within inItems (by omega) ended (lo + m) (by omega)
        (by omega)
      rwa [show lo + m - 1 = lo + (m - 1) by omega] at step

include order in
/-- A run is sorted once it is reversed if it descends. An ascending run is sorted already, and a
strictly descending one has no ties and, reversed, ascends strictly. -/
theorem orient_sorts
    {items : Array α}
    {lo len : Nat}
    {descending : Bool}
    (within : lo + len ≤ items.size)
    (inItems : ∀ x ∈ items.toList, pool x)
    (adjacent : ∀ m, 0 < m → m < len →
      before (items.getD (lo + m) default) (items.getD (lo + (m - 1)) default) = descending) :
    SortsStretch before pool items (if descending then reverseRun items lo len else items) lo len := by
  have inRun : ∀ m < len, pool (items.getD (lo + m) default) :=
    fun m inside => inItems _ (getD_mem (by omega))
  have inStretch : ∀ x ∈ (segment items lo len).toList, pool x :=
    fun x member => inItems x (mem_of_mem_segment member)
  cases descending with
  | false =>
      refine SortsStretch.of_sorted (pairwise_of_adjacent ?_ inRun adjacent)
      exact fun x y z inX inY inZ first second => order.not_before_trans inX inY inZ first second
  | true =>
      have descends : (segment items lo len).toList.Pairwise fun x y => before y x = true :=
        pairwise_of_adjacent (fun x y z inX inY inZ first second => order.trans inZ inY inX second
          first) inRun adjacent
      have ascends := List.pairwise_reverse.mpr descends
      refine ⟨(segment items lo len).toList.reverse, ?_, List.reverse_perm _, ?_, ?_⟩
      · simp only [↓reduceIte, reverseRun]
        rw [writeAt_toList items lo (segment items lo len).toList.reverse
          (by simp [size_segment]; omega)]
        simp [size_segment, show min len (items.size - lo) = len by omega]
      · exact ascends.imp_of_mem fun {x y} inX inY ahead =>
          order.asymm (inStretch x (List.mem_reverse.mp inX)) (inStretch y (List.mem_reverse.mp inY))
            ahead
      · exact keepsTies_reverse order inStretch (descends.imp fun ahead =>
          (tiedWith_comm _ _).trans (tiedWith_of_before ahead))

include order decides in
/-- On a sorted stretch, binary insertion finds the place after every item the pivot does
not come before. Once the pivot comes before an item, it comes before every later one. -/
theorem insertionPoint_threshold
    {items : Array α}
    {pivot : α}
    {l r point : Nat}
    (inPivot : pool pivot)
    (inRead : ∀ m, l ≤ m → m < r → pool (items.getD m default))
    (sorted : ∀ i j, l ≤ i → i < j → j < r →
      before (items.getD j default) (items.getD i default) = false)
    (ordered : l ≤ r)
    (found : insertionPoint lt items pivot l r = .ok point) :
    ∀ m, l ≤ m → m < r → before pivot (items.getD m default) = decide (point ≤ m) := by
  have monotone : ∀ i j, i ≤ j → j < r - l → before pivot (items.getD (l + i) default) = true →
      before pivot (items.getD (l + j) default) = true := by
    intro i j earlier inside ahead
    rcases Nat.lt_or_eq_of_le earlier with less | same
    · exact order.before_of_before_of_not inPivot (inRead _ (by omega) (by omega))
        (inRead _ (by omega) (by omega)) ahead (sorted _ _ (by omega) (by omega) (by omega))
    · exact same ▸ ahead
  obtain ⟨threshold, within, answers⟩ := threshold_of_monotone _ (r - l) monotone
  have located : insertionPoint lt items pivot l r = .ok (l + threshold) :=
    insertionPoint_eq (by omega) (by omega) fun m low high => by
      rw [decides _ _ inPivot (inRead m low high), show m = l + (m - l) by omega,
        answers (m - l) (by omega)]
      simp only [Except.ok.injEq, decide_eq_decide]
      omega
  rw [found, Except.ok.injEq] at located
  intro m low high
  rw [located, show m = l + (m - l) by omega, answers (m - l) (by omega)]
  simp only [decide_eq_decide]
  omega

include order in
/-- Putting the item at `start` back at `l`, behind the sorted items of `[lo, l)` it does not
come before and ahead of the sorted items of `[l, start)` it does, sorts `[lo, start]`. The pivot
passes only items it comes before, so none it is tied with. -/
theorem insertAt_sorts
    {items : Array α}
    {pivot : α}
    {lo l start : Nat}
    (after : lo ≤ l)
    (upTo : l ≤ start)
    (below : start < items.size)
    (isPivot : items.getD start default = pivot)
    (inItems : ∀ x ∈ items.toList, pool x)
    (leftSorted : Sorted before (segment items lo (l - lo)).toList)
    (rightSorted : Sorted before (segment items l (start - l)).toList)
    (stays : ∀ x ∈ (segment items lo (l - lo)).toList, before pivot x = false)
    (passes : ∀ x ∈ (segment items l (start - l)).toList, before pivot x = true) :
    SortsStretch before pool items
      (writeAt items l (pivot :: (segment items l (start - l)).toList)) lo (start + 1 - lo) := by
  have inPivot : pool pivot := isPivot ▸ inItems _ (getD_mem below)
  have inStretch : ∀ {first len}, ∀ x ∈ (segment items first len).toList, pool x :=
    fun x member => inItems x (mem_of_mem_segment member)
  have extended : (segment items lo (start + 1 - lo)).toList =
      (segment items lo (l - lo)).toList ++ (segment items l (start - l)).toList ++ [pivot] := by
    have whole := segment_append items lo (start - lo) 1
    rw [show lo + (start - lo) = start by omega, show start - lo + 1 = start + 1 - lo by omega,
      segment_one below, isPivot] at whole
    rw [← whole, segment_split after upTo]
  refine ⟨(segment items lo (l - lo)).toList ++ pivot :: (segment items l (start - l)).toList,
    ?_, ?_, ?_, ?_⟩
  · rw [writeAt_toList items l (pivot :: (segment items l (start - l)).toList)
      (by simp [size_segment]; omega)]
    rw [show lo + (start + 1 - lo) = start + 1 by omega, show l = lo + (l - lo) by omega,
      take_add_segment, show lo + (l - lo) = l by omega]
    simp [size_segment, show min (start - l) (items.size - l) = start - l by omega,
      show l + (start - l + 1) = start + 1 by omega]
  · rw [extended, List.append_assoc]
    exact List.Perm.append_left _ (List.perm_append_singleton _ _).symm
  · refine sorted_append_of_pivot order inStretch (fun y member => ?_) inPivot leftSorted
      (sorted_cons.mpr ⟨fun y member => order.asymm inPivot (inStretch y member)
        (passes y member), rightSorted⟩) stays fun y member => ?_
    · rcases List.mem_cons.mp member with same | later
      · exact same ▸ inPivot
      · exact inStretch y later
    · rcases List.mem_cons.mp member with same | later
      · rw [same]
        exact order.irrefl inPivot
      · exact order.asymm inPivot (inStretch y later) (passes y later)
  · rw [extended, List.append_assoc]
    have swapped : KeepsTies before pool ([pivot] ++ (segment items l (start - l)).toList)
        ((segment items l (start - l)).toList ++ [pivot]) :=
      keepsTies_swap order (by simpa using inPivot) inStretch
        (by simpa using fun y member => tiedWith_of_before (passes y member))
    exact (KeepsTies.refl _).append swapped

include order decides in
/-- Binary insertion of the items from `start` up to `hi` into the sorted stretch from `lo`
sorts the stretch from `lo` up to `hi`. The pivot goes in at `l`, between the items it does not come
before and those it does, which sorts the stretch up to it. -/
theorem binaryInsert_sorts
    {items sorted : Array α}
    {lo hi start : Nat}
    (within : hi ≤ items.size)
    (ordered : lo ≤ start)
    (upTo : start ≤ hi)
    (inItems : ∀ x ∈ items.toList, pool x)
    (prefixSorted : Sorted before (segment items lo (start - lo)).toList)
    (run : binaryInsert lt items lo hi start = .ok sorted) :
    SortsStretch before pool items sorted lo (hi - lo) := by
  fun_induction binaryInsert lt items lo hi start with
  | case1 items start below pivot ih =>
      obtain ⟨l, found, run⟩ := bind_eq_ok.mp run
      have bounds := insertionPoint_bounds lt ordered found
      have inPivot : pool pivot := inItems _ (getD_mem (by omega))
      have answers := insertionPoint_threshold order decides inPivot
        (fun m low high => inItems _ (getD_mem (by omega)))
        (fun i j low ij high => by
          have pair := prefixSorted.getD_segment (by omega) (show i - lo < j - lo by omega)
            (show j - lo < start - lo by omega)
          rwa [show lo + (j - lo) = j by omega, show lo + (i - lo) = i by omega] at pair)
        ordered found
      have stays : ∀ x ∈ (segment items lo (l - lo)).toList, before pivot x = false :=
        forall_mem_segment fun m inside _ => by
          rw [answers (lo + m) (by omega) (by omega)]
          simp only [decide_eq_false_iff_not]
          omega
      have passes : ∀ x ∈ (segment items l (start - l)).toList, before pivot x = true :=
        forall_mem_segment fun m inside _ => by
          rw [answers (l + m) (by omega) (by omega)]
          simp
      rw [segment_split (show lo ≤ l by omega) (show l ≤ start by omega), sorted_append]
        at prefixSorted
      have inserted := insertAt_sorts order (by omega) (by omega) (by omega) rfl inItems
        prefixSorted.1 prefixSorted.2.1 stays passes
      have rest := ih l (by rw [size_writeAt]; exact within) (by omega) (by omega)
        (fun x member => inItems x (inserted.perm.subset member)) (inserted.sorted (by omega)) run
      exact inserted.trans rest (by omega) (by omega)
  | case2 items start above =>
      rw [pure_eq_ok] at run
      subst run
      rw [show hi = start by omega]
      exact SortsStretch.of_sorted prefixSorted

/-! ## The run stack -/

/-- What the sort keeps true of order between its steps: every run on the stack is sorted,
and the array keeps the ties of the input. -/
structure Sorter.Ordered (before : α → α → Bool) (pool : α → Prop) (input : Array α)
    (s : Sorter α) : Prop where
  sortedRuns : ∀ run ∈ s.runs.toList, Sorted before (segment s.items run.base run.len).toList
  keeps : KeepsTies before pool s.items.toList input.toList

section Stack

variable {input items : Array α} {s merged : Sorter α} {stop lo len : Nat}

omit [Inhabited α] in
theorem sorted_of_length_le_one
    {xs : List α}
    (short : xs.length ≤ 1) :
    Sorted before xs := by
  match xs, short with
  | [], _ => exact sorted_nil
  | [x], _ => exact sorted_singleton x

omit [Inhabited α] in
theorem Sorter.Holds.inPool
    (holds : s.Holds input stop)
    (inInput : ∀ x ∈ input.toList, pool x) :
    ∀ x ∈ s.items.toList, pool x :=
  fun x member => inInput x (holds.perm.subset member)

omit [Inhabited α] in
/-- Every stack position reads a sorted run: a run on the stack, or the empty default. -/
theorem Sorter.Ordered.sorted_getD
    (ordered : s.Ordered before pool input)
    (j : Nat) :
    Sorted before (segment s.items (s.runs.getD j default).base
      (s.runs.getD j default).len).toList := by
  by_cases inside : j < s.runs.size
  · exact ordered.sortedRuns _ (getD_mem inside)
  · rw [Array.getD_eq_getD_getElem?, Array.getElem?_eq_none (by omega)]
    exact sorted_of_length_le_one (by simp [segment_toList, show (default : Run).len = 0 from rfl])

omit [Inhabited α] in
/-- A sorted run pushed on the stack keeps it ordered. -/
theorem Sorter.Ordered.push
    (ordered : s.Ordered before pool input)
    (sorted : Sorted before (segment s.items lo len).toList) :
    ({ s with runs := s.runs.push ⟨lo, len, 0⟩ } : Sorter α).Ordered before pool input := by
  refine ⟨fun run member => ?_, ordered.keeps⟩
  rw [Array.toList_push] at member
  rcases List.mem_append.mp member with kept | pushed
  · exact ordered.sortedRuns run kept
  · rw [List.mem_singleton.mp pushed]
    exact sorted

omit [Inhabited α] in
/-- Sorting a stretch past the runs on the stack leaves them sorted. -/
theorem Sorter.Ordered.sortAbove
    (ordered : s.Ordered before pool input)
    (holds : s.Holds input lo)
    (sorts : SortsStretch before pool s.items items lo len)
    (fits : lo + len ≤ s.items.size) :
    ({ s with items := items } : Sorter α).Ordered before pool input := by
  refine ⟨fun run member => ?_, sorts.keeps.trans ordered.keeps⟩
  have inside := holds.tiles.bounds run member
  rw [sorts.segment_below fits (by omega)]
  exact ordered.sortedRuns run member

omit [Inhabited α] in
/-- Sorting a stretch that ends by `stop` leaves the array from `stop` on as it was. -/
theorem SortsStretch.drop_of_le
    (sorts : SortsStretch before pool s.items items lo len)
    (fits : lo + len ≤ s.items.size)
    (later : lo + len ≤ stop) :
    items.toList.drop stop = s.items.toList.drop stop := by
  have same := congrArg (List.drop (stop - (lo + len))) (sorts.drop_eq fits)
  simpa [List.drop_drop, show lo + len + (stop - (lo + len)) = stop by omega] using same

variable (inInput : ∀ x ∈ input.toList, pool x)

include order decides inInput in
/-- Merging the runs at stack positions `i` and `i + 1` sorts the stretch they cover. The second run
starts where the first ends. -/
theorem mergeRuns_sorts
    {i : Nat}
    (holds : s.Holds input stop)
    (ordered : s.Ordered before pool input)
    (pair : i + 1 < s.runs.size)
    (run : mergeRuns lt s i = .ok merged) :
    SortsStretch before pool s.items merged.items (s.runs.getD i default).base
      ((s.runs.getD i default).len + (s.runs.getD (i + 1) default).len) := by
  obtain ⟨minGallop, merging, -⟩ := mergeRuns_eq lt run
  obtain ⟨middle, -, based, secondBased, above⟩ := holds.tiles.around pair
  have fits := above.le
  have sized := holds.size_eq
  have within := holds.within
  have inItems := holds.inPool inInput
  refine mergeAt_stable decides (by omega) ⟨order, ?_, ?_, ?_, ?_⟩ merging
  · exact fun x member => inItems x (mem_of_mem_segment member)
  · exact fun x member => inItems x (mem_of_mem_segment member)
  · exact ordered.sorted_getD i
  · rw [show (s.runs.getD i default).base + (s.runs.getD i default).len =
      (s.runs.getD (i + 1) default).base by omega]
    exact ordered.sorted_getD (i + 1)

include order decides inInput in
/-- Merging two runs of the stack keeps it ordered, and the array past the runs as it was. A run
below the pair, and a run above it, is where it was. -/
theorem mergeRuns_ordered
    {i : Nat}
    (holds : s.Holds input stop)
    (ordered : s.Ordered before pool input)
    (pair : i + 1 < s.runs.size)
    (run : mergeRuns lt s i = .ok merged) :
    merged.Ordered before pool input ∧ merged.items.toList.drop stop = s.items.toList.drop stop := by
  have sorts := mergeRuns_sorts order decides inInput holds ordered pair run
  obtain ⟨-, -, runs⟩ := mergeRuns_eq lt run
  obtain ⟨middle, below, based, secondBased, above⟩ := holds.tiles.around pair
  have fits := above.le
  have sized := holds.size_eq
  have within := holds.within
  refine ⟨⟨fun run member => ?_, sorts.keeps.trans ordered.keeps⟩,
    sorts.drop_of_le (by omega) (by omega)⟩
  rw [runs] at member
  rcases List.mem_append.mp member with lower | member
  · have inside := below.bounds run lower
    rw [sorts.segment_below (by omega) (by omega)]
    exact ordered.sortedRuns run (List.mem_of_mem_take lower)
  rcases List.mem_cons.mp member with merged | upper
  · subst merged
    exact sorts.sorted (by omega)
  · have inside := above.bounds run upper
    rw [sorts.segment_above (by omega) (by omega)]
    exact ordered.sortedRuns run (List.mem_of_mem_drop upper)

include order decides inInput in
theorem mergeAbove_ordered
    {p : Nat}
    (fuel : Nat)
    (holds : s.Holds input stop)
    (ordered : s.Ordered before pool input)
    (run : mergeAbove lt p fuel s = .ok merged) :
    merged.Ordered before pool input ∧ merged.items.toList.drop stop = s.items.toList.drop stop := by
  induction fuel generalizing s with
  | zero =>
      simp only [mergeAbove, pure_eq_ok] at run
      subst run
      exact ⟨ordered, rfl⟩
  | succ fuel ih =>
      simp only [mergeAbove] at run
      split at run
      next pairs =>
        simp only [Bool.and_eq_true, decide_eq_true_eq] at pairs
        obtain ⟨once, merging, run⟩ := bind_eq_ok.mp run
        have pair : s.runs.size - 2 + 1 < s.runs.size := by omega
        obtain ⟨onceOrdered, onceFrame⟩ :=
          mergeRuns_ordered order decides inInput holds ordered pair merging
        obtain ⟨mergedOrdered, frame⟩ := ih (mergeRuns_holds lt holds pair merging) onceOrdered run
        exact ⟨mergedOrdered, frame.trans onceFrame⟩
      next =>
        rw [pure_eq_ok] at run
        subst run
        exact ⟨ordered, rfl⟩

include order decides inInput in
/-- Settling the top run keeps the stack ordered and the array past it as it was: only the power of
the top run changes. -/
theorem settle_ordered
    {n : Nat}
    {settled : Sorter α}
    (holds : s.Holds input stop)
    (ordered : s.Ordered before pool input)
    (run : settle lt n len s = .ok settled) :
    settled.Ordered before pool input ∧
      settled.items.toList.drop stop = s.items.toList.drop stop := by
  simp only [settle] at run
  split at run
  · rw [pure_eq_ok] at run
    subst run
    exact ⟨ordered, rfl⟩
  · obtain ⟨lowered, merging, run⟩ := bind_eq_ok.mp run
    rw [pure_eq_ok] at run
    subst run
    obtain ⟨loweredOrdered, frame⟩ :=
      mergeAbove_ordered order decides inInput _ holds ordered merging
    refine ⟨⟨fun run member => ?_, loweredOrdered.keeps⟩, frame⟩
    simp only [Array.set!_eq_setIfInBounds, Array.toList_setIfInBounds] at member
    rcases List.mem_or_eq_of_mem_set member with kept | updated
    · exact loweredOrdered.sortedRuns run kept
    · subst updated
      exact loweredOrdered.sorted_getD _

include order decides inInput in
/-- A run sorted in place just past the stack is settled and pushed: the sorter keeps its
invariants, with the run's end as the new boundary. -/
theorem pushRun_ordered
    {settled : Sorter α}
    (holds : s.Holds input lo)
    (ordered : s.Ordered before pool input)
    (within : lo + len ≤ input.size)
    (sorts : SortsStretch before pool s.items items lo len)
    (settling : settle lt input.size len
      { items := items, runs := s.runs, minGallop := s.minGallop } = .ok settled) :
    ({ settled with runs := settled.runs.push ⟨lo, len, 0⟩ } : Sorter α).Holds input (lo + len) ∧
      ({ settled with runs := settled.runs.push ⟨lo, len, 0⟩ } : Sorter α).Ordered before pool
        input := by
  have sized := holds.size_eq
  have placed : ({ items := items, runs := s.runs, minGallop := s.minGallop } : Sorter α).Holds
      input lo := ⟨sorts.perm.trans holds.perm, holds.tiles, holds.within⟩
  obtain ⟨settledOrdered, frame⟩ := settle_ordered order decides inInput placed
    (ordered.sortAbove holds sorts (by omega)) settling
  have pushedSorted : Sorted before (segment settled.items lo len).toList := by
    rw [segment_toList, frame, ← segment_toList]
    exact sorts.sorted (by omega)
  exact ⟨(settle_holds lt placed settling).push within, settledOrdered.push pushedSorted⟩

include order decides inInput in
/-- With a unit of fuel for each item left, pushing runs covers the whole array with sorted
runs. A short run is extended by binary insertion, and the extended run is settled and pushed. -/
theorem pushRuns_ordered
    {minrun : Nat}
    (fuel : Nat)
    {pushed : Sorter α}
    (holds : s.Holds input lo)
    (ordered : s.Ordered before pool input)
    (enough : input.size ≤ lo + fuel)
    (run : pushRuns lt input.size minrun fuel s lo = .ok pushed) :
    pushed.Holds input input.size ∧ pushed.Ordered before pool input := by
  induction fuel generalizing s lo with
  | zero =>
      simp only [pushRuns, pure_eq_ok] at run
      subst run
      have within := holds.within
      rw [show input.size = lo by omega]
      exact ⟨holds, ordered⟩
  | succ fuel ih =>
      simp only [pushRuns] at run
      split at run
      next finished =>
        rw [pure_eq_ok] at run
        subst run
        have within := holds.within
        rw [show input.size = lo by omega]
        exact ⟨holds, ordered⟩
      next inside =>
      obtain ⟨⟨len, descending⟩, counted, run⟩ := bind_eq_ok.mp run
      have sized := holds.size_eq
      have inItems := holds.inPool inInput
      obtain ⟨some, fits, adjacent⟩ :=
        countRun_adjacent decides (by omega) inItems (by omega) counted
      have oriented := orient_sorts order (by omega) inItems adjacent
      dsimp only at run
      split at run
      next short =>
        obtain ⟨sorted, inserted, run⟩ := bind_eq_ok.mp run
        obtain ⟨_, extended, run⟩ := bind_eq_ok.mp run
        rw [pure_eq_ok] at extended
        subst extended
        obtain ⟨settled, settling, run⟩ := bind_eq_ok.mp run
        have grown := binaryInsert_sorts order decides (by rw [oriented.size_eq]; omega)
          (Nat.le_add_right lo len) (by omega)
          (fun x member => inItems x (oriented.perm.subset member))
          (by rw [Nat.add_sub_cancel_left]; exact oriented.sorted (by omega)) inserted
        rw [Nat.add_sub_cancel_left] at grown
        obtain ⟨pushedHolds, pushedOrdered⟩ := pushRun_ordered order decides inInput holds ordered
          (by omega) (oriented.trans grown (by omega) (by omega)) settling
        exact ih pushedHolds pushedOrdered (by omega) run
      next =>
        obtain ⟨_, kept, run⟩ := bind_eq_ok.mp run
        rw [pure_eq_ok] at kept
        subst kept
        obtain ⟨settled, settling, run⟩ := bind_eq_ok.mp run
        obtain ⟨pushedHolds, pushedOrdered⟩ :=
          pushRun_ordered order decides inInput holds ordered (by omega) oriented settling
        exact ih pushedHolds pushedOrdered (by omega) run

include order decides inInput in
/-- With a unit of fuel for each run but one, collapsing the stack leaves one sorted run at
most. Whichever pair it merges lies below the top of the stack. -/
theorem collapse_ordered
    (fuel : Nat)
    {collapsed : Sorter α}
    (holds : s.Holds input stop)
    (ordered : s.Ordered before pool input)
    (enough : s.runs.size ≤ fuel + 1)
    (run : collapse lt fuel s = .ok collapsed) :
    collapsed.Ordered before pool input ∧ collapsed.runs.size ≤ 1 := by
  induction fuel generalizing s with
  | zero =>
      simp only [collapse, pure_eq_ok] at run
      subst run
      exact ⟨ordered, enough⟩
  | succ fuel ih =>
      simp only [collapse] at run
      split at run
      next single =>
        rw [pure_eq_ok] at run
        subst run
        exact ⟨ordered, single⟩
      next several =>
      obtain ⟨merged, merging, run⟩ := bind_eq_ok.mp run
      obtain ⟨i, pair, merging⟩ : ∃ i, i + 1 < s.runs.size ∧ mergeRuns lt s i = .ok merged :=
        ⟨_, by split <;> omega, merging⟩
      have fewer := mergeRuns_size lt pair merging
      exact ih (mergeRuns_holds lt holds pair merging)
        (mergeRuns_ordered order decides inInput holds ordered pair merging).1 (by omega) run

end Stack

include order decides in
/-- With a comparison that answers as a strict weak order on the items, the sort returns
them sorted, with the items of each tie in the order the input had them. Before any run is pushed,
the empty stack tiles the empty stretch; at the end one run is left, and it covers the array. -/
theorem sortBy_stable
    {input sorted : Array α}
    (inInput : ∀ x ∈ input.toList, pool x)
    (run : sortBy lt input = .ok sorted) :
    Sorted before sorted.toList ∧ KeepsTies before pool sorted.toList input.toList := by
  simp only [sortBy] at run
  split at run
  next few =>
    rw [pure_eq_ok] at run
    subst run
    exact ⟨sorted_of_length_le_one (by simp; omega), KeepsTies.refl _⟩
  next several =>
  obtain ⟨pushed, pushing, run⟩ := bind_eq_ok.mp run
  obtain ⟨collapsed, collapsing, run⟩ := bind_eq_ok.mp run
  rw [pure_eq_ok] at run
  subst run
  have start : (⟨input, #[], gallopWins⟩ : Sorter α).Holds input 0 :=
    ⟨List.Perm.refl _, rfl, Nat.zero_le _⟩
  have startOrdered : (⟨input, #[], gallopWins⟩ : Sorter α).Ordered before pool input :=
    ⟨by simp, KeepsTies.refl _⟩
  obtain ⟨pushedHolds, pushedOrdered⟩ :=
    pushRuns_ordered order decides inInput _ start startOrdered (by omega) pushing
  have collapsedHolds := collapse_holds lt _ pushedHolds collapsing
  obtain ⟨collapsedOrdered, single⟩ :=
    collapse_ordered order decides inInput _ pushedHolds pushedOrdered (Nat.le_succ _) collapsing
  have tiles := collapsedHolds.tiles
  have nonempty : collapsed.runs.toList ≠ [] := fun empty => by
    rw [empty] at tiles
    simp only [Tiles] at tiles
    omega
  obtain ⟨last, only⟩ := List.length_eq_one_iff.mp
    (Nat.le_antisymm (by simpa using single) (List.length_pos_iff.mpr nonempty))
  rw [only] at tiles
  obtain ⟨based, covers⟩ := tiles
  simp only [Tiles] at covers
  have sortedLast := collapsedOrdered.sortedRuns last (by rw [only]; exact List.mem_singleton_self _)
  rw [segment_toList, based, List.drop_zero, show last.len = collapsed.items.size by
    rw [collapsedHolds.size_eq]; omega, List.take_of_length_le (by simp)] at sortedLast
  exact ⟨sortedLast, collapsedOrdered.keeps⟩

end CorridorRank.NaturalMerge
