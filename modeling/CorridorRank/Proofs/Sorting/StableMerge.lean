import CorridorRank.Proofs.Sorting.Order
import CorridorRank.Proofs.Sorting.Searches
import CorridorRank.Proofs.Sorting.Permutation

/-!
# Merges are stable

On two sorted runs, with a comparison that answers as a strict weak order `before`
(`Runs`, `Decides`), a merge returns the stable merge: a sorted list that keeps the ties of
the first run followed by the second.

A stable merge moves one item at a time (`Low.Take`, `High.Take`): from the low end, the
next item of `a` when nothing left of `b` comes before it, and the next item of `b` when it
comes before everything left of `a`; from the high end the same, mirrored. Each move of
the merge (`Low.Move`, `High.Move`) is such a take, or a gallop, which on sorted runs moves
exactly the items that takes one by one would (`gallopRight_threshold`,
`gallopLeft_threshold`). What a take keeps (`Low.Ordered`, `High.Ordered`) then holds
wherever the merge stops.
-/

namespace CorridorRank.NaturalMerge

open Traversal

variable {α ε : Type}

/-- Two runs ready to merge: their items are in the pool of a strict weak order, and each
is sorted. -/
structure Runs (before : α → α → Bool) (pool : α → Prop) (a b : Array α) : Prop where
  order : WeakOrderOn before pool
  inA : ∀ x ∈ a.toList, pool x
  inB : ∀ y ∈ b.toList, pool y
  sortedA : Sorted before a.toList
  sortedB : Sorted before b.toList

/-! ## Stretches of sorted arrays -/

section Stretches

variable {before : α → α → Bool} {items : Array α}

theorem mem_of_mem_segment
    {start len : Nat}
    {y : α}
    (member : y ∈ (segment items start len).toList) :
    y ∈ items.toList := by
  rw [segment_toList] at member
  exact List.mem_of_mem_drop (List.mem_of_mem_take member)

theorem getD_mem
    [Inhabited α]
    {i : Nat}
    (inside : i < items.size) :
    items.getD i default ∈ items.toList := by
  simp [Array.getD_eq_getD_getElem?, inside, Array.getElem_mem]

theorem Sorted.toSegment
    (sorted : Sorted before items.toList)
    (start len : Nat) :
    Sorted before (segment items start len).toList := by
  rw [segment_toList]
  exact sorted.sublist ((List.take_sublist _ _).trans (List.drop_sublist _ _))

theorem Sorted.getD
    [Inhabited α]
    (sorted : Sorted before items.toList)
    {i j : Nat}
    (ordered : i < j)
    (inside : j < items.size) :
    before (items.getD j default) (items.getD i default) = false := by
  have pairs := List.pairwise_iff_getElem.mp sorted i j (by simp; omega) (by simpa using inside)
    ordered
  simpa [Array.getD_eq_getD_getElem?, inside, show i < items.size by omega] using pairs

/-- A nonempty stretch is its first item and the stretch after it. -/
theorem segment_cons
    [Inhabited α]
    {start len : Nat}
    (inside : start < items.size)
    (some : 1 ≤ len) :
    (segment items start len).toList =
      items.getD start default :: (segment items (start + 1) (len - 1)).toList := by
  have split := segment_append items start 1 (len - 1)
  rw [Nat.add_sub_cancel' some, segment_one inside] at split
  rw [← split]
  rfl

/-- A nonempty stretch at the front is the stretch before its last item, then that item. -/
theorem segment_concat
    [Inhabited α]
    {len : Nat}
    (inside : len ≤ items.size)
    (some : 1 ≤ len) :
    (segment items 0 len).toList =
      (segment items 0 (len - 1)).toList ++ [items.getD (len - 1) default] := by
  have split := segment_append items 0 (len - 1) 1
  rw [Nat.sub_add_cancel some, Nat.zero_add, segment_one (by omega)] at split
  exact split.symm

theorem segment_getD
    [Inhabited α]
    {start len i : Nat}
    (fits : start + len ≤ items.size)
    (inside : i < len) :
    (segment items start len).getD i default = items.getD (start + i) default := by
  have within : i < (items.extract start (start + len)).size := by simp; omega
  simp [Array.getD_eq_getD_getElem?, segment, Array.getElem?_eq_getElem within,
    show start + i < items.size by omega]

theorem getD_mem_segment
    [Inhabited α]
    {start len m : Nat}
    (fits : start + len ≤ items.size)
    (inside : m < len) :
    items.getD (start + m) default ∈ (segment items start len).toList := by
  rw [← segment_getD fits inside]
  exact getD_mem (by rw [size_segment]; omega)

/-- Every item of a stretch is read at a position inside it. -/
theorem exists_of_mem_segment
    [Inhabited α]
    {start len : Nat}
    {y : α}
    (member : y ∈ (segment items start len).toList) :
    ∃ i < len, start + i < items.size ∧ items.getD (start + i) default = y := by
  obtain ⟨i, inside, found⟩ := List.getElem_of_mem member
  have sized : i < (segment items start len).size := by simpa using inside
  rw [size_segment] at sized
  refine ⟨i, by omega, by omega, ?_⟩
  rw [← found]
  simp [Array.getD_eq_getD_getElem?, segment, show start + i < items.size by omega]

theorem forall_mem_segment
    [Inhabited α]
    {start len : Nat}
    {property : α → Prop}
    (holds : ∀ m < len, start + m < items.size → property (items.getD (start + m) default)) :
    ∀ y ∈ (segment items start len).toList, property y := by
  intro y member
  obtain ⟨i, inside, bound, rfl⟩ := exists_of_mem_segment member
  exact holds i inside bound

theorem take_add_segment
    (start len : Nat) :
    items.toList.take (start + len) = items.toList.take start ++ (segment items start len).toList := by
  rw [segment_toList, List.take_add]

theorem drop_eq_segment_append
    (start len : Nat) :
    items.toList.drop start = (segment items start len).toList ++ items.toList.drop (start + len) := by
  rw [segment_toList, ← List.drop_drop, List.take_append_drop]

theorem Sorted.getD_segment
    [Inhabited α]
    {start len i j : Nat}
    (sorted : Sorted before (segment items start len).toList)
    (fits : start + len ≤ items.size)
    (ordered : i < j)
    (inside : j < len) :
    before (items.getD (start + j) default) (items.getD (start + i) default) = false := by
  have pair := sorted.getD ordered (by rw [size_segment]; omega)
  rwa [segment_getD fits inside, segment_getD fits (by omega)] at pair

@[simp]
theorem segment_zero
    (start : Nat) :
    (segment items start 0).toList = [] := by
  simp [segment_toList]

end Stretches

/-! ## Sorting a stretch in place -/

section SortsStretch

/-- `after` is `items` with the `len` items from `start` replaced by their stable sort: a
sorted rearrangement of them that keeps their ties. -/
def SortsStretch
    (before : α → α → Bool)
    (pool : α → Prop)
    (items after : Array α)
    (start len : Nat) :
    Prop :=
  ∃ stretch, after.toList = items.toList.take start ++ stretch ++ items.toList.drop (start + len) ∧
    stretch.Perm (segment items start len).toList ∧ Sorted before stretch ∧
    KeepsTies before pool stretch (segment items start len).toList

variable {before : α → α → Bool} {pool : α → Prop} {items middle after : Array α}
  {start len : Nat}

theorem toList_eq_around
    (items : Array α)
    (start len : Nat) :
    items.toList =
      items.toList.take start ++ (segment items start len).toList ++ items.toList.drop (start + len) := by
  rw [List.append_assoc, ← drop_eq_segment_append, List.take_append_drop]

/-- A sorted stretch is its own stable sort. -/
theorem SortsStretch.of_sorted
    (sorted : Sorted before (segment items start len).toList) :
    SortsStretch before pool items items start len :=
  ⟨_, toList_eq_around items start len, List.Perm.refl _, sorted, KeepsTies.refl _⟩

theorem SortsStretch.length_eq
    (sorts : SortsStretch before pool items after start len)
    (fits : start + len ≤ items.size) :
    ∃ stretch, after.toList = items.toList.take start ++ stretch ++ items.toList.drop (start + len) ∧
      stretch.length = len ∧ Sorted before stretch := by
  obtain ⟨stretch, shape, rearranged, sorted, -⟩ := sorts
  refine ⟨stretch, shape, ?_, sorted⟩
  rw [rearranged.length_eq, Array.length_toList, size_segment]
  omega

theorem SortsStretch.perm
    (sorts : SortsStretch before pool items after start len) :
    after.toList.Perm items.toList := by
  obtain ⟨stretch, shape, rearranged, -, -⟩ := sorts
  rw [shape]
  conv_rhs => rw [toList_eq_around items start len]
  exact (rearranged.append_left _).append_right _

theorem SortsStretch.size_eq
    (sorts : SortsStretch before pool items after start len) :
    after.size = items.size := by
  simpa using sorts.perm.length_eq

theorem SortsStretch.keeps
    (sorts : SortsStretch before pool items after start len) :
    KeepsTies before pool after.toList items.toList := by
  obtain ⟨stretch, shape, -, -, keeps⟩ := sorts
  rw [shape]
  conv_rhs => rw [toList_eq_around items start len]
  exact ((KeepsTies.refl _).append keeps).append (KeepsTies.refl _)

/-- What lies before the stretch stays. -/
theorem SortsStretch.segment_below
    (sorts : SortsStretch before pool items after start len)
    (fits : start + len ≤ items.size)
    {base size : Nat}
    (below : base + size ≤ start) :
    (segment after base size).toList = (segment items base size).toList := by
  obtain ⟨stretch, shape, -, -⟩ := sorts.length_eq fits
  rw [segment_toList, segment_toList, shape, List.append_assoc,
    List.drop_append_of_le_length (by simp; omega), List.take_append_of_le_length (by simp; omega),
    List.drop_take, List.take_take]
  congr 1
  omega

/-- What lies after the stretch stays. -/
theorem SortsStretch.drop_eq
    (sorts : SortsStretch before pool items after start len)
    (fits : start + len ≤ items.size) :
    after.toList.drop (start + len) = items.toList.drop (start + len) := by
  obtain ⟨stretch, shape, sized, -⟩ := sorts.length_eq fits
  rw [shape, List.drop_left']
  simp [sized]
  omega

theorem SortsStretch.segment_above
    (sorts : SortsStretch before pool items after start len)
    (fits : start + len ≤ items.size)
    {base size : Nat}
    (above : start + len ≤ base) :
    (segment after base size).toList = (segment items base size).toList := by
  rw [segment_toList, segment_toList, show base = start + len + (base - (start + len)) by omega,
    ← List.drop_drop, sorts.drop_eq fits, List.drop_drop]

/-- The stretch of a stable sort, in the array. -/
theorem SortsStretch.segment_eq
    (sorts : SortsStretch before pool items after start len)
    (fits : start + len ≤ items.size) :
    ∃ stretch, (segment after start len).toList = stretch ∧ after.toList =
      items.toList.take start ++ stretch ++ items.toList.drop (start + len) ∧
        stretch.Perm (segment items start len).toList ∧ Sorted before stretch ∧
        KeepsTies before pool stretch (segment items start len).toList := by
  obtain ⟨stretch, shape, rearranged, sorted, keeps⟩ := sorts
  have sized : stretch.length = len := by
    rw [rearranged.length_eq, Array.length_toList, size_segment]
    omega
  refine ⟨stretch, ?_, shape, rearranged, sorted, keeps⟩
  rw [segment_toList, shape, List.append_assoc, List.drop_append_of_le_length (by simp; omega)]
  simp [sized]

theorem SortsStretch.sorted
    (sorts : SortsStretch before pool items after start len)
    (fits : start + len ≤ items.size) :
    Sorted before (segment after start len).toList := by
  obtain ⟨stretch, same, -, -, sorted, -⟩ := sorts.segment_eq fits
  rw [same]
  exact sorted

/-- Sorting a stretch, and then a longer one from the same place, sorts the longer one. The longer
stretch is the sorted one followed by what came after it. -/
theorem SortsStretch.trans
    {longer : Nat}
    (first : SortsStretch before pool items middle start len)
    (second : SortsStretch before pool middle after start longer)
    (shorter : len ≤ longer)
    (fits : start + longer ≤ items.size) :
    SortsStretch before pool items after start longer := by
  obtain ⟨stretch, same, shape, rearranged, -, keeps⟩ := first.segment_eq (by omega)
  obtain ⟨final, finalShape, finalRearranged, finalSorted, finalKeeps⟩ := second
  have grown : (segment middle start longer).toList =
      stretch ++ (segment items (start + len) (longer - len)).toList := by
    have split := segment_append middle start len (longer - len)
    rw [Nat.add_sub_cancel' shorter] at split
    rw [← split, same, first.segment_above (by omega) (Nat.le_refl _)]
  have whole : (segment items start longer).toList =
      (segment items start len).toList ++ (segment items (start + len) (longer - len)).toList := by
    rw [segment_append, Nat.add_sub_cancel' shorter]
  have front : middle.toList.take start = items.toList.take start := by
    rw [shape, List.append_assoc, List.take_left' (by simp; omega)]
  have back : middle.toList.drop (start + longer) = items.toList.drop (start + longer) := by
    rw [show start + longer = start + len + (longer - len) by omega, ← List.drop_drop,
      first.drop_eq (by omega), List.drop_drop]
  refine ⟨final, ?_, ?_, finalSorted, ?_⟩
  · rw [finalShape, front, back]
  · rw [whole]
    exact finalRearranged.trans (by rw [grown]; exact rearranged.append_right _)
  · rw [whole]
    exact finalKeeps.trans (by rw [grown]; exact keeps.append (KeepsTies.refl _))

end SortsStretch

/-! ## Galloping over sorted stretches -/

section Thresholds

variable {before : α → α → Bool} {pool : α → Prop} {lt : α → α → Except ε Bool}
  {key : α} {read : Nat → α} {n hint k : Nat}

/-- On a sorted stretch, galloping right stops at the first item that `key` comes before. Once `key`
comes before an item, it comes before every later one. -/
theorem gallopRight_threshold
    (order : WeakOrderOn before pool)
    (decides : Decides lt before pool)
    (inKey : pool key)
    (inRead : ∀ m < n, pool (read m))
    (sorted : ∀ i j, i < j → j < n → before (read j) (read i) = false)
    (hintInside : hint < n)
    (galloped : gallopRight lt key read n hint = .ok k) :
    k ≤ n ∧ ∀ m < n, before key (read m) = decide (k ≤ m) := by
  have monotone : ∀ i j, i ≤ j → j < n → before key (read i) = true →
      before key (read j) = true := by
    intro i j ordered inside ahead
    rcases Nat.lt_or_eq_of_le ordered with earlier | same
    · exact order.before_of_before_of_not inKey (inRead i (by omega)) (inRead j inside) ahead
        (sorted i j earlier inside)
    · exact same ▸ ahead
  obtain ⟨threshold, within, answers⟩ := threshold_of_monotone _ n monotone
  have found : gallopRight lt key read n hint = .ok threshold :=
    gallopRight_eq hintInside within fun m inside => by
      rw [decides _ _ inKey (inRead m inside), answers m inside]
  rw [galloped, Except.ok.injEq] at found
  subst found
  exact ⟨within, answers⟩

/-- On a sorted stretch, galloping left stops at the first item that does not come before
`key`. Once an item does not come before `key`, no later one does. -/
theorem gallopLeft_threshold
    (order : WeakOrderOn before pool)
    (decides : Decides lt before pool)
    (inKey : pool key)
    (inRead : ∀ m < n, pool (read m))
    (sorted : ∀ i j, i < j → j < n → before (read j) (read i) = false)
    (hintInside : hint < n)
    (galloped : gallopLeft lt key read n hint = .ok k) :
    k ≤ n ∧ ∀ m < n, before (read m) key = decide (m < k) := by
  have monotone : ∀ i j, i ≤ j → j < n → (!before (read i) key) = true →
      (!before (read j) key) = true := by
    intro i j ordered inside after
    rw [Bool.not_eq_true'] at after ⊢
    rcases Nat.lt_or_eq_of_le ordered with earlier | same
    · exact order.not_before_trans inKey (inRead i (by omega)) (inRead j inside) after
        (sorted i j earlier inside)
    · exact same ▸ after
  obtain ⟨threshold, within, answers⟩ :=
    threshold_of_monotone (fun m => !before (read m) key) n monotone
  have flipped : ∀ m < n, before (read m) key = decide (m < threshold) := fun m inside => by
    rw [← Bool.not_not (before (read m) key), answers m inside, ← decide_not]
    simp only [Nat.not_le]
  have found : gallopLeft lt key read n hint = .ok threshold :=
    gallopLeft_eq hintInside within fun m inside => by
      rw [decides _ _ (inRead m inside) inKey, flipped m inside]
  rw [galloped, Except.ok.injEq] at found
  subst found
  exact ⟨within, flipped⟩

end Thresholds

/-! ## A stable merge from the low end -/

section Low

variable [Inhabited α] (before : α → α → Bool) (a b : Array α)

/-- One move of a stable merge from the low end: the next item of `a` when nothing left of
`b` comes before it, the next item of `b` when it comes before everything left of `a`, or a
new gallop threshold. -/
inductive Low.Take : Low α → Low α → Prop
  | takeA (s : Low α) (someA : 1 ≤ s.na)
      (first : ∀ y ∈ (segment b s.ib s.nb).toList, before y (a.getD s.ia default) = false) :
      Take s { s with out := a.getD s.ia default :: s.out, ia := s.ia + 1, na := s.na - 1 }
  | takeB (s : Low α) (someB : 1 ≤ s.nb)
      (first : ∀ y ∈ (segment a s.ia s.na).toList, before (b.getD s.ib default) y = true) :
      Take s { s with out := b.getD s.ib default :: s.out, ib := s.ib + 1, nb := s.nb - 1 }
  | threshold (s : Low α) (minGallop : Nat) : Take s { s with minGallop := minGallop }

/-- What a stable merge from the low end keeps: what it has merged is sorted, nothing left
comes before any of it, and its view keeps the ties of the two runs. -/
structure Low.Ordered (pool : α → Prop) (s : Low α) : Prop where
  sorted : Sorted before s.out.reverse
  below : ∀ x ∈ s.out,
    ∀ y ∈ (segment a s.ia s.na).toList ++ (segment b s.ib s.nb).toList, before y x = false
  keeps : KeepsTies before pool (s.done a b) (a.toList ++ b.toList)

variable {before} {pool : α → Prop} {a b}

omit [Inhabited α] in
theorem Low.ordered_start
    (minGallop : Nat) :
    (⟨0, a.size, 0, b.size, [], minGallop⟩ : Low α).Ordered before a b pool :=
  ⟨sorted_nil, by simp, by simpa [Low.done] using KeepsTies.refl _⟩

theorem Low.Holds.take
    {s t : Low α}
    (holds : s.Holds a b)
    (taken : Low.Take before a b s t) :
    t.Holds a b := by
  cases taken with
  | takeA someA _ => exact holds.takeA someA
  | takeB someB _ => exact holds.takeB someB
  | threshold minGallop => exact holds.gallopThreshold minGallop

variable (runs : Runs before pool a b)
include runs

/-- Taking a stable merge's next item from the low end keeps it ordered. A moved item comes before
what is left of its own run and, by the guard, before the rest of the other; an item of `b` passes
what is left of `a`, none of which it is tied with. -/
theorem Low.Ordered.take
    {s t : Low α}
    (holds : s.Holds a b)
    (ordered : s.Ordered before a b pool)
    (taken : Low.Take before a b s t) :
    t.Ordered before a b pool := by
  cases taken with
  | takeA someA first =>
      have inside : s.ia < a.size := by have := holds.restA; omega
      have rest := segment_cons inside someA
      refine ⟨?_, ?_, ?_⟩
      · rw [List.reverse_cons]
        refine sorted_append.mpr ⟨ordered.sorted, sorted_singleton _, fun x inOut y same => ?_⟩
        rw [List.mem_singleton] at same
        subst same
        exact ordered.below x (List.mem_reverse.mp inOut) _ (by simp [rest])
      · intro x inOut y inRest
        rcases List.mem_cons.mp inOut with moved | inOut
        · subst moved
          rcases List.mem_append.mp inRest with inA | inB
          · have sortedRest := runs.sortedA.toSegment s.ia s.na
            rw [rest] at sortedRest
            exact (sorted_cons.mp sortedRest).1 y inA
          · exact first y inB
        · refine ordered.below x inOut y ?_
          rw [rest, List.cons_append]
          exact List.mem_cons_of_mem _ inRest
      · simpa [Low.done, rest] using ordered.keeps
  | takeB someB first =>
      have inside : s.ib < b.size := by have := holds.restB; omega
      have rest := segment_cons inside someB
      have inY : pool (b.getD s.ib default) := runs.inB _ (getD_mem inside)
      refine ⟨?_, ?_, ?_⟩
      · rw [List.reverse_cons]
        refine sorted_append.mpr ⟨ordered.sorted, sorted_singleton _, fun x inOut y same => ?_⟩
        rw [List.mem_singleton] at same
        subst same
        exact ordered.below x (List.mem_reverse.mp inOut) _ (by simp [rest])
      · intro x inOut y inRest
        rcases List.mem_cons.mp inOut with moved | inOut
        · subst moved
          rcases List.mem_append.mp inRest with inA | inB
          · exact runs.order.asymm inY (runs.inA _ (mem_of_mem_segment inA)) (first y inA)
          · have sortedRest := runs.sortedB.toSegment s.ib s.nb
            rw [rest] at sortedRest
            exact (sorted_cons.mp sortedRest).1 y inB
        · refine ordered.below x inOut y ?_
          rw [rest]
          exact List.mem_append.mpr ((List.mem_append.mp inRest).imp id (List.mem_cons_of_mem _))
      · have swapped : KeepsTies before pool
            ([b.getD s.ib default] ++ (segment a s.ia s.na).toList)
            ((segment a s.ia s.na).toList ++ [b.getD s.ib default]) :=
          keepsTies_swap runs.order (by simpa using inY)
            (fun y inA => runs.inA _ (mem_of_mem_segment inA))
            (by simpa using fun y inA => tiedWith_of_before (first y inA))
        have moved := ((KeepsTies.refl s.out.reverse).append swapped).append
          (KeepsTies.refl (segment b (s.ib + 1) (s.nb - 1)).toList)
        refine KeepsTies.trans ?_ ordered.keeps
        simpa [Low.done, rest] using moved
  | threshold minGallop => exact ⟨ordered.sorted, ordered.below, ordered.keeps⟩

theorem Low.Ordered.takes
    {s t : Low α}
    (holds : s.Holds a b)
    (ordered : s.Ordered before a b pool)
    (path : Relation.ReflTransGen (Low.Take before a b) s t) :
    t.Holds a b ∧ t.Ordered before a b pool := by
  induction path with
  | refl => exact ⟨holds, ordered⟩
  | tail _ taken reached => exact ⟨reached.1.take taken, reached.2.take runs reached.1 taken⟩

omit [Inhabited α] in
/-- Once a run is used up, the view of an ordered merge from the low end is sorted. -/
theorem Low.Ordered.sorted_done
    {s : Low α}
    (ordered : s.Ordered before a b pool)
    (emptied : s.na = 0 ∨ s.nb = 0) :
    Sorted before (s.done a b) := by
  have rest : Sorted before ((segment a s.ia s.na).toList ++ (segment b s.ib s.nb).toList) := by
    rcases emptied with empty | empty
    · simpa [empty] using runs.sortedB.toSegment s.ib s.nb
    · simpa [empty] using runs.sortedA.toSegment s.ia s.na
  rw [Low.done, List.append_assoc]
  exact sorted_append.mpr ⟨ordered.sorted, rest,
    fun x inOut y inRest => ordered.below x (List.mem_reverse.mp inOut) y inRest⟩

/-- With one item of `a` left, after everything left of `b`, putting it last finishes the
stable merge. The last item of `a` passes what is left of `b`, none of which it is tied with. -/
theorem Low.Ordered.lastOfA
    {s : Low α}
    (holds : s.Holds a b)
    (ordered : s.Ordered before a b pool)
    (one : s.na = 1)
    (lastA : ∀ y ∈ b.toList, before y (a.getD (a.size - 1) default) = true) :
    Sorted before (s.lastOfA a b) ∧ KeepsTies before pool (s.lastOfA a b) (a.toList ++ b.toList) := by
  have inside : s.ia < a.size := by have := holds.restA; omega
  have last : s.ia = a.size - 1 := by have := holds.restA; omega
  have rest : (segment a s.ia s.na).toList = [a.getD s.ia default] := by
    rw [one, segment_one inside]
  have inX : pool (a.getD s.ia default) := runs.inA _ (getD_mem inside)
  have after : ∀ y ∈ (segment b s.ib s.nb).toList, before y (a.getD s.ia default) = true :=
    fun y inB => last ▸ lastA y (mem_of_mem_segment inB)
  constructor
  · rw [Low.lastOfA]
    refine sorted_append.mpr ⟨sorted_append.mpr ⟨ordered.sorted, runs.sortedB.toSegment _ _, ?_⟩,
      sorted_singleton _, ?_⟩
    · intro x inOut y inB
      exact ordered.below x (List.mem_reverse.mp inOut) y (List.mem_append_right _ inB)
    · intro x inFront y same
      rw [List.mem_singleton] at same
      subst same
      rcases List.mem_append.mp inFront with inOut | inB
      · exact ordered.below x (List.mem_reverse.mp inOut) _ (by simp [rest])
      · exact runs.order.asymm (runs.inB _ (mem_of_mem_segment inB)) inX (after x inB)
  · have swapped : KeepsTies before pool
        ((segment b s.ib s.nb).toList ++ [a.getD s.ia default])
        ([a.getD s.ia default] ++ (segment b s.ib s.nb).toList) :=
      keepsTies_swap runs.order (fun y inB => runs.inB _ (mem_of_mem_segment inB))
        (by simpa using inX) (by simpa using fun y inB => tiedWith_of_before (after y inB))
    have moved := (KeepsTies.refl s.out.reverse).append swapped
    refine KeepsTies.trans ?_ ordered.keeps
    simpa [Low.lastOfA, Low.done, rest] using moved

/-- An item goes before what is left of `b` when the next item of `b` does not come
before it. -/
theorem Low.guardA
    {s : Low α}
    (holds : s.Holds a b)
    {x : α}
    (inX : pool x)
    (head : 1 ≤ s.nb → before (b.getD s.ib default) x = false) :
    ∀ y ∈ (segment b s.ib s.nb).toList, before y x = false := by
  intro y inRest
  rcases Nat.eq_zero_or_pos s.nb with empty | some
  · rw [empty, segment_zero] at inRest
    cases inRest
  · have inside : s.ib < b.size := by have := holds.restB; omega
    have sortedRest := runs.sortedB.toSegment s.ib s.nb
    rw [segment_cons inside some] at inRest sortedRest
    rcases List.mem_cons.mp inRest with same | later
    · exact same ▸ head some
    · exact runs.order.not_before_trans inX (runs.inB _ (getD_mem inside))
        (runs.inB _ (mem_of_mem_segment later)) (head some) ((sorted_cons.mp sortedRest).1 y later)

/-- An item goes before what is left of `a` when it comes before the next item of `a`. -/
theorem Low.guardB
    {s : Low α}
    (holds : s.Holds a b)
    {x : α}
    (inX : pool x)
    (head : 1 ≤ s.na → before x (a.getD s.ia default) = true) :
    ∀ y ∈ (segment a s.ia s.na).toList, before x y = true := by
  intro y inRest
  rcases Nat.eq_zero_or_pos s.na with empty | some
  · rw [empty, segment_zero] at inRest
    cases inRest
  · have inside : s.ia < a.size := by have := holds.restA; omega
    have sortedRest := runs.sortedA.toSegment s.ia s.na
    rw [segment_cons inside some] at inRest sortedRest
    rcases List.mem_cons.mp inRest with same | later
    · exact same ▸ head some
    · exact runs.order.before_of_before_of_not inX (runs.inA _ (getD_mem inside))
        (runs.inA _ (mem_of_mem_segment later)) (head some) ((sorted_cons.mp sortedRest).1 y later)

/-- Moving the next `k` items of `a` at once is taking them one by one, when the next
item of `b` comes before none of them. -/
theorem Low.takes_runA
    {s : Low α}
    (holds : s.Holds a b)
    {k : Nat}
    (fits : k ≤ s.na)
    (heads : ∀ j < k, 1 ≤ s.nb →
      before (b.getD s.ib default) (a.getD (s.ia + j) default) = false) :
    Relation.ReflTransGen (Low.Take before a b) s
      { s with out := (segment a s.ia k).toList.reverse ++ s.out, ia := s.ia + k,
               na := s.na - k } := by
  induction k with
  | zero =>
      simp only [segment_zero, List.reverse_nil, List.nil_append]
      exact .refl
  | succ k ih =>
      have inside : s.ia + k < a.size := by have := holds.restA; omega
      have path := ih (by omega) fun j below => heads j (by omega)
      have moved := holds.runA (k := k) (by omega)
      have taken := Low.Take.takeA _ (by dsimp only; omega)
        (Low.guardA runs moved (runs.inA _ (getD_mem inside)) (heads k (by omega)))
      have extended : (segment a s.ia (k + 1)).toList =
          (segment a s.ia k).toList ++ [a.getD (s.ia + k) default] := by
        rw [← segment_append, segment_one inside]
      refine path.tail ?_
      simp only [extended, List.reverse_append, List.reverse_singleton, List.cons_append,
        ← Nat.add_assoc, ← Nat.sub_sub]
      exact taken

/-- Moving the next `k` items of `b` at once is taking them one by one, when each comes
before the next item of `a`. -/
theorem Low.takes_runB
    {s : Low α}
    (holds : s.Holds a b)
    {k : Nat}
    (fits : k ≤ s.nb)
    (heads : ∀ j < k, 1 ≤ s.na →
      before (b.getD (s.ib + j) default) (a.getD s.ia default) = true) :
    Relation.ReflTransGen (Low.Take before a b) s
      { s with out := (segment b s.ib k).toList.reverse ++ s.out, ib := s.ib + k,
               nb := s.nb - k } := by
  induction k with
  | zero =>
      simp only [segment_zero, List.reverse_nil, List.nil_append]
      exact .refl
  | succ k ih =>
      have inside : s.ib + k < b.size := by have := holds.restB; omega
      have path := ih (by omega) fun j below => heads j (by omega)
      have moved := holds.runB (k := k) (by omega)
      have taken := Low.Take.takeB _ (by dsimp only; omega)
        (Low.guardB runs moved (runs.inB _ (getD_mem inside)) (heads k (by omega)))
      have extended : (segment b s.ib (k + 1)).toList =
          (segment b s.ib k).toList ++ [b.getD (s.ib + k) default] := by
        rw [← segment_append, segment_one inside]
      refine path.tail ?_
      simp only [extended, List.reverse_append, List.reverse_singleton, List.cons_append,
        ← Nat.add_assoc, ← Nat.sub_sub]
      exact taken

variable {lt : α → α → Except ε Bool} (decides : Decides lt before pool)
include decides

/-- On sorted runs, every move of a merge from the low end is a stable merge's takes. What the runs
have left reads from the arrays, in order; the next item of `b` comes before the item of `a` the
gallop stopped at, and the next item of `a` is not after the item of `b` it stopped at. -/
theorem Low.Move.takes
    {s t : Low α}
    (holds : s.Holds a b)
    (moved : Low.Move lt a b s t) :
    Relation.ReflTransGen (Low.Take before a b) s t := by
  have inA : ∀ m < s.na, pool (a.getD (s.ia + m) default) := fun m inside =>
    runs.inA _ (getD_mem (by have := holds.restA; omega))
  have inB : ∀ m < s.nb, pool (b.getD (s.ib + m) default) := fun m inside =>
    runs.inB _ (getD_mem (by have := holds.restB; omega))
  have sortedA : ∀ i j, i < j → j < s.na →
      before (a.getD (s.ia + j) default) (a.getD (s.ia + i) default) = false :=
    fun i j ordered inside => runs.sortedA.getD (by omega) (by have := holds.restA; omega)
  have sortedB : ∀ i j, i < j → j < s.nb →
      before (b.getD (s.ib + j) default) (b.getD (s.ib + i) default) = false :=
    fun i j ordered inside => runs.sortedB.getD (by omega) (by have := holds.restB; omega)
  have firstA : 1 ≤ s.na → pool (a.getD s.ia default) := fun some => by simpa using inA 0 some
  have firstB : 1 ≤ s.nb → pool (b.getD s.ib default) := fun some => by simpa using inB 0 some
  cases moved with
  | takeA answered someA someB =>
      rw [decides _ _ (firstB someB) (firstA someA), Except.ok.injEq] at answered
      exact .single (.takeA s someA (Low.guardA runs holds (firstA someA) fun _ => answered))
  | takeB answered someA someB =>
      rw [decides _ _ (firstB someB) (firstA someA), Except.ok.injEq] at answered
      exact .single (.takeB s someB (Low.guardB runs holds (firstB someB) fun _ => answered))
  | gallopA k galloped someA someB =>
      obtain ⟨fits, answers⟩ := gallopRight_threshold runs.order decides (firstB someB) inA sortedA
        someA galloped
      exact Low.takes_runA runs holds fits fun j below _ => by
        rw [answers j (by omega)]
        simpa using below
  | gallopAB k galloped someA someB =>
      obtain ⟨fits, answers⟩ := gallopRight_threshold runs.order decides (firstB someB) inA sortedA
        someA galloped
      refine (Low.takes_runA runs holds fits fun j below _ => by
        rw [answers j (by omega)]
        simpa using below).tail ?_
      exact .takeB _ someB (Low.guardB runs (holds.runA fits) (firstB someB) fun left => by
        dsimp only at left ⊢
        rw [answers k (by omega)]
        simp)
  | gallopB k galloped someA someB =>
      obtain ⟨fits, answers⟩ := gallopLeft_threshold runs.order decides (firstA someA) inB sortedB
        someB galloped
      exact Low.takes_runB runs holds fits fun j below _ => by
        rw [answers j (by omega)]
        simpa using below
  | gallopBA k galloped someA someB =>
      obtain ⟨fits, answers⟩ := gallopLeft_threshold runs.order decides (firstA someA) inB sortedB
        someB galloped
      refine (Low.takes_runB runs holds fits fun j below _ => by
        rw [answers j (by omega)]
        simpa using below).tail ?_
      exact .takeA _ someA (Low.guardA runs (holds.runB fits) (firstA someA) fun left => by
        dsimp only at left ⊢
        rw [answers k (by omega)]
        simp)
  | threshold minGallop => exact .single (.threshold s minGallop)

/-- Every state a merge from the low end reaches from an ordered one is ordered. -/
theorem Low.Ordered.reaches
    {s t : Low α}
    (holds : s.Holds a b)
    (ordered : s.Ordered before a b pool)
    (reaches : Relation.ReflTransGen (Low.Move lt a b) s t) :
    t.Holds a b ∧ t.Ordered before a b pool := by
  induction reaches with
  | refl => exact ⟨holds, ordered⟩
  | tail _ moved reached =>
      exact Low.Ordered.takes runs reached.1 reached.2 (moved.takes runs decides reached.1)

/-- Merging from the low end two sorted runs, where the first item of `b` comes before
every item of `a` and every item of `b` before the last of `a`, gives the stable merge. The merge
starts with the first item of `b` taken, and has fuel enough to use up a run. -/
theorem mergeLo_stable
    {minGallop threshold : Nat}
    {merged : List α}
    (firstB : ∀ x ∈ a.toList, before (b.getD 0 default) x = true)
    (lastA : ∀ y ∈ b.toList, before y (a.getD (a.size - 1) default) = true)
    (someA : 1 ≤ a.size)
    (someB : 1 ≤ b.size)
    (run : mergeLo lt a b minGallop = .ok (merged, threshold)) :
    Sorted before merged ∧ KeepsTies before pool merged (a.toList ++ b.toList) := by
  have taken : Low.Take before a b ⟨0, a.size, 0, b.size, [], minGallop⟩
      ⟨0, a.size, 1, b.size - 1, [b.getD 0 default], minGallop⟩ :=
    .takeB _ someB fun y inA => firstB y (by simpa using inA)
  have start := Low.Ordered.takes runs (Low.holds_start minGallop) (Low.ordered_start minGallop)
    (.single taken)
  simp only [mergeLo] at run
  split at run
  next emptied =>
    rw [merged_of_pure run]
    exact ⟨start.2.sorted_done runs (Or.inr (by simpa using emptied)), start.2.keeps⟩
  next remaining =>
  split at run
  next one =>
    rw [merged_of_pure run]
    exact start.2.lastOfA runs start.1 (by simpa using one) lastA
  next several =>
  simp only [beq_iff_eq] at remaining several
  obtain ⟨t, reaches, ends⟩ := mergeLow_reaches lt a b _ _ _ (by dsimp only; omega)
    (by dsimp only; omega) run
  obtain ⟨holds, ordered⟩ := Low.Ordered.reaches runs decides start.1 start.2 reaches
  rcases ends with ⟨finished, ended⟩ | ⟨finished, one⟩
  · rw [finished]
    refine ⟨ordered.sorted_done runs ?_, ordered.keeps⟩
    dsimp only at ended
    omega
  · rw [finished]
    exact ordered.lastOfA runs holds one lastA

end Low

/-! ## A stable merge from the high end -/

section High

variable [Inhabited α] (before : α → α → Bool) (a b : Array α)

/-- One move of a stable merge from the high end: the last item left of `a` when
everything left of `b` comes before it, the last item left of `b` when it comes before
nothing left of `a`, or a new gallop threshold. -/
inductive High.Take : High α → High α → Prop
  | takeA (s : High α) (someA : 1 ≤ s.na)
      (last : ∀ y ∈ (segment b 0 s.nb).toList, before y (a.getD (s.na - 1) default) = true) :
      Take s { s with out := a.getD (s.na - 1) default :: s.out, na := s.na - 1 }
  | takeB (s : High α) (someB : 1 ≤ s.nb)
      (last : ∀ y ∈ (segment a 0 s.na).toList, before (b.getD (s.nb - 1) default) y = false) :
      Take s { s with out := b.getD (s.nb - 1) default :: s.out, nb := s.nb - 1 }
  | threshold (s : High α) (minGallop : Nat) : Take s { s with minGallop := minGallop }

/-- What a stable merge from the high end keeps: what it has merged is sorted, none of it
comes before anything left, and its view keeps the ties of the two runs. -/
structure High.Ordered (pool : α → Prop) (s : High α) : Prop where
  sorted : Sorted before s.out
  above : ∀ x ∈ (segment a 0 s.na).toList ++ (segment b 0 s.nb).toList,
    ∀ y ∈ s.out, before y x = false
  keeps : KeepsTies before pool (s.done a b) (a.toList ++ b.toList)

variable {before} {pool : α → Prop} {a b}

omit [Inhabited α] in
theorem High.ordered_start
    (minGallop : Nat) :
    (⟨a.size, b.size, [], minGallop⟩ : High α).Ordered before a b pool :=
  ⟨sorted_nil, by simp, by simpa [High.done] using KeepsTies.refl _⟩

theorem High.Holds.take
    {s t : High α}
    (holds : s.Holds a b)
    (taken : High.Take before a b s t) :
    t.Holds a b := by
  cases taken with
  | takeA someA _ => exact holds.takeA someA
  | takeB someB _ => exact holds.takeB someB
  | threshold minGallop => exact holds.gallopThreshold minGallop

theorem High.Holds.takes
    {s t : High α}
    (holds : s.Holds a b)
    (path : Relation.ReflTransGen (High.Take before a b) s t) :
    t.Holds a b := by
  induction path with
  | refl => exact holds
  | tail _ taken reached => exact reached.take taken

variable (runs : Runs before pool a b)
include runs

/-- Taking a stable merge's next item from the high end keeps it ordered. A moved item comes after
what is left of its own run and after the rest of the other; an item of `a` passes what is left of
`b`, none of which it is tied with. -/
theorem High.Ordered.take
    {s t : High α}
    (holds : s.Holds a b)
    (ordered : s.Ordered before a b pool)
    (taken : High.Take before a b s t) :
    t.Ordered before a b pool := by
  cases taken with
  | takeA someA last =>
      have inside : s.na - 1 < a.size := by have := holds.restA; omega
      have rest := segment_concat holds.restA someA
      have inX : pool (a.getD (s.na - 1) default) := runs.inA _ (getD_mem inside)
      refine ⟨?_, ?_, ?_⟩
      · exact sorted_cons.mpr
          ⟨fun y inOut => ordered.above _ (by simp [rest]) y inOut, ordered.sorted⟩
      · intro x inRest y inOut
        rcases List.mem_cons.mp inOut with moved | inOut
        · subst moved
          rcases List.mem_append.mp inRest with inA | inB
          · have sortedRest := runs.sortedA.toSegment 0 s.na
            rw [rest] at sortedRest
            exact (sorted_append.mp sortedRest).2.2 x inA _ (List.mem_singleton_self _)
          · exact runs.order.asymm (runs.inB _ (mem_of_mem_segment inB)) inX (last x inB)
        · refine ordered.above x ?_ y inOut
          rw [rest, List.append_assoc]
          exact List.mem_append.mpr ((List.mem_append.mp inRest).imp id
            (fun inB => List.mem_append_right _ inB))
      · have swapped : KeepsTies before pool
            ((segment b 0 s.nb).toList ++ [a.getD (s.na - 1) default])
            ([a.getD (s.na - 1) default] ++ (segment b 0 s.nb).toList) :=
          keepsTies_swap runs.order (fun y inB => runs.inB _ (mem_of_mem_segment inB))
            (by simpa using inX) (by simpa using fun y inB => tiedWith_of_before (last y inB))
        have moved := ((KeepsTies.refl (segment a 0 (s.na - 1)).toList).append swapped).append
          (KeepsTies.refl s.out)
        refine KeepsTies.trans ?_ ordered.keeps
        simpa [High.done, rest] using moved
  | takeB someB last =>
      have rest := segment_concat holds.restB someB
      refine ⟨?_, ?_, ?_⟩
      · exact sorted_cons.mpr
          ⟨fun y inOut => ordered.above _ (by simp [rest]) y inOut, ordered.sorted⟩
      · intro x inRest y inOut
        rcases List.mem_cons.mp inOut with moved | inOut
        · subst moved
          rcases List.mem_append.mp inRest with inA | inB
          · exact last x inA
          · have sortedRest := runs.sortedB.toSegment 0 s.nb
            rw [rest] at sortedRest
            exact (sorted_append.mp sortedRest).2.2 x inB _ (List.mem_singleton_self _)
        · refine ordered.above x ?_ y inOut
          rw [rest, ← List.append_assoc]
          exact List.mem_append_left _ inRest
      · simpa [High.done, rest] using ordered.keeps
  | threshold minGallop => exact ⟨ordered.sorted, ordered.above, ordered.keeps⟩

theorem High.Ordered.takes
    {s t : High α}
    (holds : s.Holds a b)
    (ordered : s.Ordered before a b pool)
    (path : Relation.ReflTransGen (High.Take before a b) s t) :
    t.Holds a b ∧ t.Ordered before a b pool := by
  induction path with
  | refl => exact ⟨holds, ordered⟩
  | tail _ taken reached => exact ⟨reached.1.take taken, reached.2.take runs reached.1 taken⟩

omit [Inhabited α] in
/-- Once a run is used up, the view of an ordered merge from the high end is sorted. -/
theorem High.Ordered.sorted_done
    {s : High α}
    (ordered : s.Ordered before a b pool)
    (emptied : s.na = 0 ∨ s.nb = 0) :
    Sorted before (s.done a b) := by
  have rest : Sorted before ((segment a 0 s.na).toList ++ (segment b 0 s.nb).toList) := by
    rcases emptied with empty | empty
    · simpa [empty] using runs.sortedB.toSegment 0 s.nb
    · simpa [empty] using runs.sortedA.toSegment 0 s.na
  rw [High.done]
  exact sorted_append.mpr ⟨rest, ordered.sorted, ordered.above⟩

/-- With one item of `b` left, before everything left of `a`, putting it first finishes the
stable merge. The first item of `b` passes what is left of `a`, none of which it is tied with. -/
theorem High.Ordered.firstOfB
    {s : High α}
    (holds : s.Holds a b)
    (ordered : s.Ordered before a b pool)
    (one : s.nb = 1)
    (firstB : ∀ x ∈ a.toList, before (b.getD 0 default) x = true) :
    Sorted before (s.firstOfB a b) ∧
      KeepsTies before pool (s.firstOfB a b) (a.toList ++ b.toList) := by
  have inside : 0 < b.size := by have := holds.restB; omega
  have rest : (segment b 0 s.nb).toList = [b.getD 0 default] := by
    rw [one, segment_one inside]
  have inY : pool (b.getD 0 default) := runs.inB _ (getD_mem inside)
  have ahead : ∀ x ∈ (segment a 0 s.na).toList, before (b.getD 0 default) x = true :=
    fun x inA => firstB x (mem_of_mem_segment inA)
  constructor
  · rw [High.firstOfB]
    refine sorted_append.mpr ⟨sorted_cons.mpr ⟨fun x inA => ?_, runs.sortedA.toSegment _ _⟩,
      ordered.sorted, fun x inFront y inOut => ordered.above x ?_ y inOut⟩
    · exact runs.order.asymm inY (runs.inA _ (mem_of_mem_segment inA)) (ahead x inA)
    · rcases List.mem_cons.mp inFront with same | inA
      · simp [same, rest]
      · exact List.mem_append_left _ inA
  · have swapped : KeepsTies before pool
        ([b.getD 0 default] ++ (segment a 0 s.na).toList)
        ((segment a 0 s.na).toList ++ [b.getD 0 default]) :=
      keepsTies_swap runs.order (by simpa using inY)
        (fun x inA => runs.inA _ (mem_of_mem_segment inA))
        (by simpa using fun x inA => tiedWith_of_before (ahead x inA))
    have moved := swapped.append (KeepsTies.refl s.out)
    refine KeepsTies.trans ?_ ordered.keeps
    simpa [High.firstOfB, High.done, rest] using moved

/-- An item goes after what is left of `b` when it comes after the last item of `b`. -/
theorem High.guardA
    {s : High α}
    (holds : s.Holds a b)
    {x : α}
    (inX : pool x)
    (head : 1 ≤ s.nb → before (b.getD (s.nb - 1) default) x = true) :
    ∀ y ∈ (segment b 0 s.nb).toList, before y x = true := by
  intro y inRest
  rcases Nat.eq_zero_or_pos s.nb with empty | some
  · rw [empty, segment_zero] at inRest
    cases inRest
  · have inside : s.nb - 1 < b.size := by have := holds.restB; omega
    have sortedRest := runs.sortedB.toSegment 0 s.nb
    rw [segment_concat holds.restB some] at inRest sortedRest
    rcases List.mem_append.mp inRest with earlier | same
    · exact runs.order.before_of_not_of_before (runs.inB _ (mem_of_mem_segment earlier))
        (runs.inB _ (getD_mem inside)) inX
        ((sorted_append.mp sortedRest).2.2 y earlier _ (List.mem_singleton_self _)) (head some)
    · exact (List.mem_singleton.mp same) ▸ head some

/-- An item goes after what is left of `a` when it does not come before the last item of
`a`. -/
theorem High.guardB
    {s : High α}
    (holds : s.Holds a b)
    {x : α}
    (inX : pool x)
    (head : 1 ≤ s.na → before x (a.getD (s.na - 1) default) = false) :
    ∀ y ∈ (segment a 0 s.na).toList, before x y = false := by
  intro y inRest
  rcases Nat.eq_zero_or_pos s.na with empty | some
  · rw [empty, segment_zero] at inRest
    cases inRest
  · have inside : s.na - 1 < a.size := by have := holds.restA; omega
    have sortedRest := runs.sortedA.toSegment 0 s.na
    rw [segment_concat holds.restA some] at inRest sortedRest
    rcases List.mem_append.mp inRest with earlier | same
    · exact runs.order.not_before_trans (runs.inA _ (mem_of_mem_segment earlier))
        (runs.inA _ (getD_mem inside)) inX
        ((sorted_append.mp sortedRest).2.2 y earlier _ (List.mem_singleton_self _)) (head some)
    · exact (List.mem_singleton.mp same) ▸ head some

/-- Moving the last `j` items left of `a` at once is taking them one by one, when each
comes after the last item of `b`. -/
theorem High.takes_topA
    {s : High α}
    (holds : s.Holds a b)
    {j : Nat}
    (fits : j ≤ s.na)
    (heads : ∀ m, s.na - j ≤ m → m < s.na → 1 ≤ s.nb →
      before (b.getD (s.nb - 1) default) (a.getD m default) = true) :
    Relation.ReflTransGen (High.Take before a b) s
      { s with out := (segment a (s.na - j) j).toList ++ s.out, na := s.na - j } := by
  induction j with
  | zero =>
      simp only [segment_zero, List.nil_append, Nat.sub_zero]
      exact .refl
  | succ j ih =>
      have inside : s.na - j - 1 < a.size := by have := holds.restA; omega
      have path := ih (by omega) fun m low high => heads m (by omega) high
      have taken := High.Take.takeA _ (by dsimp only; omega)
        (High.guardA runs (High.Holds.takes holds path) (runs.inA _ (getD_mem inside))
          fun some => heads (s.na - j - 1) (by omega) (by omega) some)
      have extended : (segment a (s.na - j - 1) (j + 1)).toList =
          a.getD (s.na - j - 1) default :: (segment a (s.na - j) j).toList := by
        rw [segment_cons inside (by omega), Nat.add_sub_cancel, Nat.sub_add_cancel (by omega)]
      refine path.tail ?_
      simp only [← Nat.sub_sub, extended, List.cons_append]
      exact taken

/-- Moving the last `j` items left of `b` at once is taking them one by one, when none
comes before the last item of `a`. -/
theorem High.takes_topB
    {s : High α}
    (holds : s.Holds a b)
    {j : Nat}
    (fits : j ≤ s.nb)
    (heads : ∀ m, s.nb - j ≤ m → m < s.nb → 1 ≤ s.na →
      before (b.getD m default) (a.getD (s.na - 1) default) = false) :
    Relation.ReflTransGen (High.Take before a b) s
      { s with out := (segment b (s.nb - j) j).toList ++ s.out, nb := s.nb - j } := by
  induction j with
  | zero =>
      simp only [segment_zero, List.nil_append, Nat.sub_zero]
      exact .refl
  | succ j ih =>
      have inside : s.nb - j - 1 < b.size := by have := holds.restB; omega
      have path := ih (by omega) fun m low high => heads m (by omega) high
      have taken := High.Take.takeB _ (by dsimp only; omega)
        (High.guardB runs (High.Holds.takes holds path) (runs.inB _ (getD_mem inside))
          fun some => heads (s.nb - j - 1) (by omega) (by omega) some)
      have extended : (segment b (s.nb - j - 1) (j + 1)).toList =
          b.getD (s.nb - j - 1) default :: (segment b (s.nb - j) j).toList := by
        rw [segment_cons inside (by omega), Nat.add_sub_cancel, Nat.sub_add_cancel (by omega)]
      refine path.tail ?_
      simp only [← Nat.sub_sub, extended, List.cons_append]
      exact taken

/-- The items of `a` from position `p` on move at once as they would one by one. -/
theorem High.takes_runA
    {s : High α}
    (holds : s.Holds a b)
    {p : Nat}
    (fits : p ≤ s.na)
    (heads : ∀ m, p ≤ m → m < s.na → 1 ≤ s.nb →
      before (b.getD (s.nb - 1) default) (a.getD m default) = true) :
    Relation.ReflTransGen (High.Take before a b) s
      { s with out := (segment a p (s.na - p)).toList ++ s.out, na := s.na - (s.na - p) } := by
  have path := High.takes_topA runs holds (Nat.sub_le s.na p)
    fun m low high => heads m (by omega) high
  rw [Nat.sub_sub_self fits] at path ⊢
  exact path

/-- The items of `b` from position `p` on move at once as they would one by one. -/
theorem High.takes_runB
    {s : High α}
    (holds : s.Holds a b)
    {p : Nat}
    (fits : p ≤ s.nb)
    (heads : ∀ m, p ≤ m → m < s.nb → 1 ≤ s.na →
      before (b.getD m default) (a.getD (s.na - 1) default) = false) :
    Relation.ReflTransGen (High.Take before a b) s
      { s with out := (segment b p (s.nb - p)).toList ++ s.out, nb := s.nb - (s.nb - p) } := by
  have path := High.takes_topB runs holds (Nat.sub_le s.nb p)
    fun m low high => heads m (by omega) high
  rw [Nat.sub_sub_self fits] at path ⊢
  exact path

variable {lt : α → α → Except ε Bool} (decides : Decides lt before pool)
include decides

/-- On sorted runs, every move of a merge from the high end is a stable merge's takes. What the runs
have left reads from the arrays, in order; the last item of `b` does not come before the item of `a`
the gallop stopped after, and the last item of `a` comes after the item of `b` it stopped after. -/
theorem High.Move.takes
    {s t : High α}
    (holds : s.Holds a b)
    (moved : High.Move lt a b s t) :
    Relation.ReflTransGen (High.Take before a b) s t := by
  have inA : ∀ m < s.na, pool (a.getD m default) := fun m inside =>
    runs.inA _ (getD_mem (by have := holds.restA; omega))
  have inB : ∀ m < s.nb, pool (b.getD m default) := fun m inside =>
    runs.inB _ (getD_mem (by have := holds.restB; omega))
  have sortedA : ∀ i j, i < j → j < s.na → before (a.getD j default) (a.getD i default) = false :=
    fun i j ordered inside => runs.sortedA.getD ordered (by have := holds.restA; omega)
  have sortedB : ∀ i j, i < j → j < s.nb → before (b.getD j default) (b.getD i default) = false :=
    fun i j ordered inside => runs.sortedB.getD ordered (by have := holds.restB; omega)
  have lastA : 1 ≤ s.na → pool (a.getD (s.na - 1) default) := fun some => inA _ (by omega)
  have lastB : 1 ≤ s.nb → pool (b.getD (s.nb - 1) default) := fun some => inB _ (by omega)
  cases moved with
  | takeA answered someA someB =>
      rw [decides _ _ (lastB someB) (lastA someA), Except.ok.injEq] at answered
      exact .single (.takeA s someA (High.guardA runs holds (lastA someA) fun _ => answered))
  | takeB answered someA someB =>
      rw [decides _ _ (lastB someB) (lastA someA), Except.ok.injEq] at answered
      exact .single (.takeB s someB (High.guardB runs holds (lastB someB) fun _ => answered))
  | gallopA p galloped someA someB =>
      obtain ⟨fits, answers⟩ := gallopRight_threshold runs.order decides (lastB someB) inA sortedA
        (by omega) galloped
      exact High.takes_runA runs holds fits fun m low high _ => by
        rw [answers m high]
        simpa using low
  | gallopAB p galloped someA someB =>
      obtain ⟨fits, answers⟩ := gallopRight_threshold runs.order decides (lastB someB) inA sortedA
        (by omega) galloped
      refine (High.takes_runA runs holds fits fun m low high _ => by
        rw [answers m high]
        simpa using low).tail ?_
      exact .takeB _ someB (High.guardB runs (holds.runA fits) (lastB someB) fun left => by
        dsimp only at left ⊢
        rw [Nat.sub_sub_self fits] at left ⊢
        rw [answers (p - 1) (by omega)]
        simp only [decide_eq_false_iff_not, Nat.not_le]
        omega)
  | gallopB p galloped someA someB =>
      obtain ⟨fits, answers⟩ := gallopLeft_threshold runs.order decides (lastA someA) inB sortedB
        (by omega) galloped
      exact High.takes_runB runs holds fits fun m low high _ => by
        rw [answers m high]
        simpa using low
  | gallopBA p galloped someA someB =>
      obtain ⟨fits, answers⟩ := gallopLeft_threshold runs.order decides (lastA someA) inB sortedB
        (by omega) galloped
      refine (High.takes_runB runs holds fits fun m low high _ => by
        rw [answers m high]
        simpa using low).tail ?_
      exact .takeA _ someA (High.guardA runs (holds.runB fits) (lastA someA) fun left => by
        dsimp only at left ⊢
        rw [Nat.sub_sub_self fits] at left ⊢
        rw [answers (p - 1) (by omega)]
        simp only [decide_eq_true_eq]
        omega)
  | threshold minGallop => exact .single (.threshold s minGallop)

/-- Every state a merge from the high end reaches from an ordered one is ordered. -/
theorem High.Ordered.reaches
    {s t : High α}
    (holds : s.Holds a b)
    (ordered : s.Ordered before a b pool)
    (reaches : Relation.ReflTransGen (High.Move lt a b) s t) :
    t.Holds a b ∧ t.Ordered before a b pool := by
  induction reaches with
  | refl => exact ⟨holds, ordered⟩
  | tail _ moved reached =>
      exact High.Ordered.takes runs reached.1 reached.2 (moved.takes runs decides reached.1)

/-- Merging from the high end two sorted runs, where the first item of `b` comes before
every item of `a` and every item of `b` before the last of `a`, gives the stable merge. The merge
starts with the last item of `a` taken, and has fuel enough to use up a run. -/
theorem mergeHi_stable
    {minGallop threshold : Nat}
    {merged : List α}
    (firstB : ∀ x ∈ a.toList, before (b.getD 0 default) x = true)
    (lastA : ∀ y ∈ b.toList, before y (a.getD (a.size - 1) default) = true)
    (someA : 1 ≤ a.size)
    (someB : 1 ≤ b.size)
    (run : mergeHi lt a b minGallop = .ok (merged, threshold)) :
    Sorted before merged ∧ KeepsTies before pool merged (a.toList ++ b.toList) := by
  have taken : High.Take before a b ⟨a.size, b.size, [], minGallop⟩
      ⟨a.size - 1, b.size, [a.getD (a.size - 1) default], minGallop⟩ :=
    .takeA _ someA fun y inB => lastA y (by simpa using inB)
  have start := High.Ordered.takes runs (High.holds_start minGallop)
    (High.ordered_start minGallop) (.single taken)
  simp only [mergeHi] at run
  split at run
  next emptied =>
    rw [merged_of_pure run]
    exact ⟨start.2.sorted_done runs (Or.inl (by simpa using emptied)), start.2.keeps⟩
  next remaining =>
  split at run
  next one =>
    rw [merged_of_pure run]
    exact start.2.firstOfB runs start.1 (by simpa using one) firstB
  next several =>
  simp only [beq_iff_eq] at remaining several
  obtain ⟨t, reaches, ends⟩ := mergeHigh_reaches lt a b _ _ _ (by dsimp only; omega)
    (by dsimp only; omega) run
  obtain ⟨holds, ordered⟩ := High.Ordered.reaches runs decides start.1 start.2 reaches
  rcases ends with ⟨finished, ended⟩ | ⟨finished, one⟩
  · rw [finished]
    refine ⟨ordered.sorted_done runs ?_, ordered.keeps⟩
    dsimp only at ended
    omega
  · rw [finished]
    exact ordered.firstOfB runs holds one firstB

end High

/-! ## Merging two runs of an array -/

section MergeAt

variable [Inhabited α] {before : α → α → Bool} {pool : α → Prop}

omit [Inhabited α] in
/-- What stays of two runs around their merge is in order with it: the first item of the
second run separates what stayed of the first from the merge, and the last item of the
first run separates the merge from what stayed of the second. -/
theorem sorted_around_merge
    (order : WeakOrderOn before pool)
    {keptA restA restB keptB merged : List α}
    {firstB lastA : α}
    (inA : ∀ x ∈ keptA ++ restA, pool x)
    (inB : ∀ y ∈ restB ++ keptB, pool y)
    (inFirst : pool firstB)
    (inLast : pool lastA)
    (sortedKeptA : Sorted before keptA)
    (sortedMerged : Sorted before merged)
    (sortedKeptB : Sorted before keptB)
    (rearranged : merged.Perm (restA ++ restB))
    (keptBeforeFirst : ∀ x ∈ keptA, before firstB x = false)
    (restAfterFirst : ∀ x ∈ restA, before firstB x = true)
    (notBeforeFirst : ∀ y ∈ restB, before y firstB = false)
    (notAfterLast : ∀ x ∈ keptA ++ restA, before lastA x = false)
    (restBeforeLast : ∀ y ∈ restB, before y lastA = true)
    (keptNotBeforeLast : ∀ y ∈ keptB, before y lastA = false) :
    Sorted before (keptA ++ merged ++ keptB) := by
  have inMerged : ∀ z ∈ merged, z ∈ restA ∨ z ∈ restB := fun z member =>
    List.mem_append.mp (rearranged.subset member)
  have inPool : ∀ z ∈ merged, pool z := fun z member => by
    rcases inMerged z member with inRestA | inRestB
    · exact inA z (List.mem_append_right _ inRestA)
    · exact inB z (List.mem_append_left _ inRestB)
  have front : Sorted before (keptA ++ merged) := by
    refine sorted_append_of_pivot order (fun x member => inA x (List.mem_append_left _ member))
      inPool inFirst sortedKeptA sortedMerged keptBeforeFirst fun z member => ?_
    rcases inMerged z member with inRestA | inRestB
    · exact order.asymm inFirst (inA z (List.mem_append_right _ inRestA))
        (restAfterFirst z inRestA)
    · exact notBeforeFirst z inRestB
  refine sorted_append_of_pivot order (fun z member => ?_)
    (fun y member => inB y (List.mem_append_right _ member)) inLast front sortedKeptB
    (fun z member => ?_) keptNotBeforeLast
  · rcases List.mem_append.mp member with inKept | inMerge
    · exact inA z (List.mem_append_left _ inKept)
    · exact inPool z inMerge
  · rcases List.mem_append.mp member with inKept | inMerge
    · exact notAfterLast z (List.mem_append_left _ inKept)
    · rcases inMerged z inMerge with inRestA | inRestB
      · exact notAfterLast z (List.mem_append_right _ inRestA)
      · exact order.asymm (inB z (List.mem_append_left _ inRestB)) inLast
          (restBeforeLast z inRestB)

variable {lt : α → α → Except ε Bool}

/-- Merging two adjacent sorted runs of an array writes their stable merge over them. What of `a`
comes before the first item of `b`, and what of `b` after the last item of `a`, stays in place; the
array around the merge is what stays of `a`, what of it merges, what of `b` merges and what stays of
`b`; and the middle merges stably from whichever end and is written back over itself. -/
theorem mergeAt_stable
    (decides : Decides lt before pool)
    {items merged : Array α}
    {baseA na nb minGallop threshold : Nat}
    (fits : baseA + na + nb ≤ items.size)
    (runs : Runs before pool (segment items baseA na) (segment items (baseA + na) nb))
    (run : mergeAt lt items baseA na nb minGallop = .ok (merged, threshold)) :
    SortsStretch before pool items merged baseA (na + nb) := by
  unfold SortsStretch
  rw [← segment_append, ← Nat.add_assoc]
  have inReadA : ∀ m < na, pool (items.getD (baseA + m) default) := fun m inside =>
    runs.inA _ (getD_mem_segment (by omega) inside)
  have inReadB : ∀ m < nb, pool (items.getD (baseA + na + m) default) := fun m inside =>
    runs.inB _ (getD_mem_segment fits inside)
  have sortedReadA : ∀ i j, i < j → j < na →
      before (items.getD (baseA + j) default) (items.getD (baseA + i) default) = false :=
    fun i j ordered inside => runs.sortedA.getD_segment (by omega) ordered inside
  have sortedReadB : ∀ i j, i < j → j < nb →
      before (items.getD (baseA + na + j) default) (items.getD (baseA + na + i) default) = false :=
    fun i j ordered inside => runs.sortedB.getD_segment fits ordered inside
  have inFirst : 1 ≤ nb → pool (items.getD (baseA + na) default) := fun someB => inReadB 0 someB
  have inLast : 1 ≤ na → pool (items.getD (baseA + (na - 1)) default) := fun someA =>
    inReadA _ (by omega)
  have lastAfter : ∀ x ∈ (segment items baseA na).toList,
      before (items.getD (baseA + (na - 1)) default) x = false :=
    forall_mem_segment fun m inside _ => by
      rcases Nat.lt_or_ge m (na - 1) with earlier | last
      · exact sortedReadA m (na - 1) earlier (by omega)
      · rw [show m = na - 1 by omega]
        exact runs.order.irrefl (inReadA _ (by omega))
  have firstBefore : ∀ y ∈ (segment items (baseA + na) nb).toList,
      before y (items.getD (baseA + na) default) = false :=
    forall_mem_segment fun m inside _ => by
      rcases Nat.eq_zero_or_pos m with first | later
      · subst first
        exact runs.order.irrefl (inReadB 0 inside)
      · exact sortedReadB 0 m later inside
  have whole : items.toList = items.toList.take baseA ++
      ((segment items baseA na).toList ++ (segment items (baseA + na) nb).toList) ++
        items.toList.drop (baseA + na + nb) := by
    rw [segment_append, Nat.add_assoc, List.append_assoc, ← drop_eq_segment_append,
      List.take_append_drop]
  simp only [mergeAt] at run
  obtain ⟨k, skipped, run⟩ := bind_eq_ok.mp run
  have kFits := gallopRight_le lt (Nat.zero_le na) skipped
  have placedFirst : 1 ≤ na → 1 ≤ nb → ∀ m < na,
      before (items.getD (baseA + na) default) (items.getD (baseA + m) default) =
        decide (k ≤ m) := fun someA someB =>
    (gallopRight_threshold runs.order decides (inReadB 0 someB) inReadA sortedReadA someA
      skipped).2
  split at run
  next inPlace =>
    simp only [beq_iff_eq] at inPlace
    rw [merged_of_pure run]
    refine ⟨_, whole, List.Perm.refl _, ?_, KeepsTies.refl _⟩
    rcases Nat.eq_zero_or_pos na with noA | someA
    · simpa [noA] using runs.sortedB
    rcases Nat.eq_zero_or_pos nb with noB | someB
    · simpa [noB] using runs.sortedA
    refine sorted_append_of_pivot runs.order runs.inA runs.inB (inFirst someB) runs.sortedA
      runs.sortedB (forall_mem_segment fun m inside _ => ?_) firstBefore
    rw [placedFirst someA someB m inside]
    simp only [decide_eq_false_iff_not, Nat.not_le]
    omega
  next someA =>
  simp only [beq_iff_eq] at someA
  obtain ⟨nb', trimmed, run⟩ := bind_eq_ok.mp run
  rw [show baseA + k + (na - k) - 1 = baseA + (na - 1) by omega] at trimmed
  have nbFits := gallopLeft_le lt (Nat.sub_le nb 1) trimmed
  have placedLast : 1 ≤ nb → ∀ m < nb,
      before (items.getD (baseA + na + m) default) (items.getD (baseA + (na - 1)) default) =
        decide (m < nb') := fun someB =>
    (gallopLeft_threshold runs.order decides (inReadA _ (by omega)) inReadB sortedReadB
      (by omega) trimmed).2
  split at run
  next inPlace =>
    simp only [beq_iff_eq] at inPlace
    rw [merged_of_pure run]
    refine ⟨_, whole, List.Perm.refl _, ?_, KeepsTies.refl _⟩
    rcases Nat.eq_zero_or_pos nb with noB | someB
    · simpa [noB] using runs.sortedA
    refine sorted_append_of_pivot runs.order runs.inA runs.inB (inLast (by omega))
      runs.sortedA runs.sortedB lastAfter (forall_mem_segment fun m inside _ => ?_)
    rw [placedLast someB m inside]
    simp [inPlace]
  next someB =>
  simp only [beq_iff_eq] at someB
  have splitA : (segment items baseA na).toList =
      (segment items baseA k).toList ++ (segment items (baseA + k) (na - k)).toList := by
    rw [segment_append, Nat.add_sub_cancel' kFits]
  have splitB : (segment items (baseA + na) nb).toList =
      (segment items (baseA + na) nb').toList ++
        (segment items (baseA + na + nb') (nb - nb')).toList := by
    rw [segment_append, Nat.add_sub_cancel' nbFits]
  have answersA := placedFirst (by omega) (by omega)
  have answersB := placedLast (by omega)
  have keptBeforeFirst : ∀ x ∈ (segment items baseA k).toList,
      before (items.getD (baseA + na) default) x = false :=
    forall_mem_segment fun m inside _ => by
      rw [answersA m (by omega)]
      simpa using inside
  have restAfterFirst : ∀ x ∈ (segment items (baseA + k) (na - k)).toList,
      before (items.getD (baseA + na) default) x = true :=
    forall_mem_segment fun m inside _ => by
      rw [Nat.add_assoc, answersA (k + m) (by omega)]
      simp
  have restBeforeLast : ∀ y ∈ (segment items (baseA + na) nb').toList,
      before y (items.getD (baseA + (na - 1)) default) = true :=
    forall_mem_segment fun m inside _ => by
      rw [answersB m (by omega)]
      simpa using inside
  have keptNotBeforeLast : ∀ y ∈ (segment items (baseA + na + nb') (nb - nb')).toList,
      before y (items.getD (baseA + (na - 1)) default) = false :=
    forall_mem_segment fun m inside _ => by
      rw [Nat.add_assoc, answersB (nb' + m) (by omega)]
      simp
  have restRuns : Runs before pool (segment items (baseA + k) (na - k))
      (segment items (baseA + na) nb') :=
    ⟨runs.order, fun x member => runs.inA x (by rw [splitA]; exact List.mem_append_right _ member),
      fun y member => runs.inB y (by rw [splitB]; exact List.mem_append_left _ member),
      runs.sortedA.sublist (by rw [splitA]; exact List.sublist_append_right _ _),
      runs.sortedB.sublist (by rw [splitB]; exact List.sublist_append_left _ _)⟩
  have firstB : ∀ x ∈ (segment items (baseA + k) (na - k)).toList,
      before ((segment items (baseA + na) nb').getD 0 default) x = true := by
    rw [segment_getD (by omega) (by omega)]
    exact restAfterFirst
  have lastA : ∀ y ∈ (segment items (baseA + na) nb').toList,
      before y ((segment items (baseA + k) (na - k)).getD
        ((segment items (baseA + k) (na - k)).size - 1) default) = true := by
    rw [size_segment, segment_getD (by omega) (by omega),
      show baseA + k + (min (na - k) (items.size - (baseA + k)) - 1) = baseA + (na - 1) by omega]
    exact restBeforeLast
  have sizeA : 1 ≤ (segment items (baseA + k) (na - k)).size := by rw [size_segment]; omega
  have sizeB : 1 ≤ (segment items (baseA + na) nb').size := by rw [size_segment]; omega
  have middle : ∃ mergedRun, merged = writeAt items (baseA + k) mergedRun ∧
      mergedRun.Perm ((segment items (baseA + k) (na - k)).toList ++
        (segment items (baseA + na) nb').toList) ∧
      Sorted before mergedRun ∧ KeepsTies before pool mergedRun
        ((segment items (baseA + k) (na - k)).toList ++ (segment items (baseA + na) nb').toList) := by
    split at run
    · obtain ⟨⟨mergedRun, _⟩, merging, run⟩ := bind_eq_ok.mp run
      exact ⟨mergedRun, merged_of_pure run, mergeLo_perm lt sizeA sizeB merging,
        mergeLo_stable restRuns decides firstB lastA sizeA sizeB merging⟩
    · obtain ⟨⟨mergedRun, _⟩, merging, run⟩ := bind_eq_ok.mp run
      exact ⟨mergedRun, merged_of_pure run, mergeHi_perm lt sizeA sizeB merging,
        mergeHi_stable restRuns decides firstB lastA sizeA sizeB merging⟩
  obtain ⟨mergedRun, written, rearranged, sorted, keeps⟩ := middle
  subst written
  have regrouped : (segment items baseA k).toList ++ (segment items (baseA + k) (na - k)).toList ++
        ((segment items (baseA + na) nb').toList ++
          (segment items (baseA + na + nb') (nb - nb')).toList) =
      (segment items baseA k).toList ++ ((segment items (baseA + k) (na - k)).toList ++
        (segment items (baseA + na) nb').toList) ++
          (segment items (baseA + na + nb') (nb - nb')).toList := by
    simp only [List.append_assoc]
  refine ⟨(segment items baseA k).toList ++ mergedRun ++
    (segment items (baseA + na + nb') (nb - nb')).toList, ?_, ?_, ?_, ?_⟩
  · have length : mergedRun.length = na - k + nb' := by
      rw [rearranged.length_eq, List.length_append, Array.length_toList, Array.length_toList,
        size_segment, size_segment]
      omega
    rw [writeAt_toList _ _ _ (by omega), take_add_segment, length,
      show baseA + k + (na - k + nb') = baseA + na + nb' by omega,
      drop_eq_segment_append (baseA + na + nb') (nb - nb'),
      show baseA + na + nb' + (nb - nb') = baseA + na + nb by omega]
    simp only [List.append_assoc]
  · rw [splitA, splitB, regrouped]
    exact (rearranged.append_left _).append_right _
  · refine sorted_around_merge runs.order (by rw [← splitA]; exact runs.inA)
      (by rw [← splitB]; exact runs.inB) (inFirst (by omega)) (inLast (by omega))
      (runs.sortedA.sublist (by rw [splitA]; exact List.sublist_append_left _ _)) sorted
      (runs.sortedB.sublist (by rw [splitB]; exact List.sublist_append_right _ _)) rearranged
      keptBeforeFirst restAfterFirst
      (fun y member => firstBefore y (by rw [splitB]; exact List.mem_append_left _ member))
      (by rw [← splitA]; exact lastAfter) restBeforeLast keptNotBeforeLast
  · rw [splitA, splitB, regrouped]
    exact ((KeepsTies.refl _).append keeps).append (KeepsTies.refl _)

end MergeAt

end CorridorRank.NaturalMerge
