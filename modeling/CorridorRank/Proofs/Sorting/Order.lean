import Mathlib.Data.List.Perm.Basic

/-!
# Sorted and stable, for a comparison that may fail

The sort compares by `lt : α → α → Except ε Bool`, which may fail. On the items it is given
it is taken to answer as a Boolean order `before` does (`Decides`), and `before` is a strict
weak order on those items (`WeakOrderOn`): no item comes before itself, coming before is
transitive, and if `x` comes before `z` then any `y` comes after `x` or before `z`. Items
of which neither comes before the other are tied (`tiedWith`).

A list is judged by two properties: it is `Sorted` (no item comes before an earlier one),
and it `KeepsTies` of another list when the items tied with any given item come in the same
order in both. The two fix a list among the rearrangements of another
(`eq_of_sorted_of_keepsTies`): there is one stable sort.
-/

namespace CorridorRank.NaturalMerge

variable {α ε : Type}

/-- `lt` answers as `before` does on any two items of `pool`. -/
def Decides
    (lt : α → α → Except ε Bool)
    (before : α → α → Bool)
    (pool : α → Prop) :
    Prop :=
  ∀ x y, pool x → pool y → lt x y = .ok (before x y)

/-- `before` is a strict weak order on the items of `pool`. -/
structure WeakOrderOn (before : α → α → Bool) (pool : α → Prop) : Prop where
  irrefl : ∀ {x}, pool x → before x x = false
  trans : ∀ {x y z}, pool x → pool y → pool z →
    before x y = true → before y z = true → before x z = true
  split : ∀ {x y z}, pool x → pool y → pool z →
    before x z = true → before x y = true ∨ before y z = true

section Judgements

variable (before : α → α → Bool)

/-- No item comes before an earlier one. -/
def Sorted
    (xs : List α) :
    Prop :=
  xs.Pairwise fun x y => before y x = false

/-- Neither of `x` and `y` comes before the other. -/
def tiedWith
    (x y : α) :
    Bool :=
  !before x y && !before y x

/-- The items of `xs` tied with any item of `pool` come in the order they have in `ys`. -/
def KeepsTies
    (pool : α → Prop)
    (xs ys : List α) :
    Prop :=
  ∀ x, pool x → xs.filter (tiedWith before x) = ys.filter (tiedWith before x)

end Judgements

variable {before : α → α → Bool} {pool : α → Prop}

/-! ## Sorted lists -/

@[simp]
theorem sorted_nil : Sorted before ([] : List α) := List.Pairwise.nil

theorem sorted_cons
    {x : α}
    {xs : List α} :
    Sorted before (x :: xs) ↔ (∀ y ∈ xs, before y x = false) ∧ Sorted before xs :=
  List.pairwise_cons

theorem sorted_append
    {xs ys : List α} :
    Sorted before (xs ++ ys) ↔
      Sorted before xs ∧ Sorted before ys ∧ ∀ x ∈ xs, ∀ y ∈ ys, before y x = false :=
  List.pairwise_append

theorem sorted_singleton
    (x : α) :
    Sorted before [x] := List.pairwise_singleton _ x

theorem Sorted.sublist
    {xs ys : List α}
    (sorted : Sorted before ys)
    (within : xs.Sublist ys) :
    Sorted before xs :=
  List.Pairwise.sublist within sorted

/-! ## Strict weak orders -/

namespace WeakOrderOn

variable (order : WeakOrderOn before pool)
include order

theorem asymm
    {x y : α}
    (inX : pool x)
    (inY : pool y)
    (ahead : before x y = true) :
    before y x = false := by
  by_contra back
  have loop := order.trans inX inY inX ahead (Bool.not_eq_false _ ▸ back)
  rw [order.irrefl inX] at loop
  exact Bool.false_ne_true loop

/-- Not coming before is transitive. -/
theorem not_before_trans
    {x y z : α}
    (inX : pool x)
    (inY : pool y)
    (inZ : pool z)
    (first : before y x = false)
    (second : before z y = false) :
    before z x = false := by
  cases ahead : before z x
  · rfl
  · rcases order.split inZ inY inX ahead with zy | yx
    · exact absurd zy (by simp [second])
    · exact absurd yx (by simp [first])

theorem before_of_before_of_not
    {x y z : α}
    (inX : pool x)
    (inY : pool y)
    (inZ : pool z)
    (ahead : before x y = true)
    (after : before z y = false) :
    before x z = true := by
  rcases order.split inX inZ inY ahead with xz | zy
  · exact xz
  · exact absurd zy (by simp [after])

theorem before_of_not_of_before
    {x y z : α}
    (inX : pool x)
    (inY : pool y)
    (inZ : pool z)
    (after : before y x = false)
    (ahead : before y z = true) :
    before x z = true := by
  rcases order.split inY inX inZ ahead with yx | xz
  · exact absurd yx (by simp [after])
  · exact xz

theorem tiedWith_self
    {x : α}
    (inX : pool x) :
    tiedWith before x x = true := by
  simp [tiedWith, order.irrefl inX]

/-- Two items tied with a third are tied with each other. -/
theorem tiedWith_trans
    {x y z : α}
    (inX : pool x)
    (inY : pool y)
    (inZ : pool z)
    (first : tiedWith before z x = true)
    (second : tiedWith before z y = true) :
    tiedWith before x y = true := by
  simp only [tiedWith, Bool.and_eq_true, Bool.not_eq_true'] at first second ⊢
  exact ⟨order.not_before_trans inY inZ inX second.1 first.2,
    order.not_before_trans inX inZ inY first.1 second.2⟩

end WeakOrderOn

/-- Two sorted lists in a row are sorted when some item comes after none of the first and
before none of the second. -/
theorem sorted_append_of_pivot
    (order : WeakOrderOn before pool)
    {xs ys : List α}
    {pivot : α}
    (inXs : ∀ x ∈ xs, pool x)
    (inYs : ∀ y ∈ ys, pool y)
    (inPivot : pool pivot)
    (sortedX : Sorted before xs)
    (sortedY : Sorted before ys)
    (left : ∀ x ∈ xs, before pivot x = false)
    (right : ∀ y ∈ ys, before y pivot = false) :
    Sorted before (xs ++ ys) :=
  sorted_append.mpr ⟨sortedX, sortedY, fun x inX y inY =>
    order.not_before_trans (inXs x inX) inPivot (inYs y inY) (left x inX) (right y inY)⟩

theorem tiedWith_comm
    (x y : α) :
    tiedWith before x y = tiedWith before y x :=
  Bool.and_comm _ _

theorem tiedWith_of_before
    {x y : α}
    (ahead : before x y = true) :
    tiedWith before x y = false := by
  simp [tiedWith, ahead]

/-! ## Keeping ties -/

theorem KeepsTies.refl
    (xs : List α) :
    KeepsTies before pool xs xs := fun _ _ => rfl

theorem KeepsTies.symm
    {xs ys : List α}
    (keeps : KeepsTies before pool xs ys) :
    KeepsTies before pool ys xs := fun x inX => (keeps x inX).symm

theorem KeepsTies.trans
    {xs ys zs : List α}
    (first : KeepsTies before pool xs ys)
    (second : KeepsTies before pool ys zs) :
    KeepsTies before pool xs zs :=
  fun x inX => (first x inX).trans (second x inX)

theorem KeepsTies.append
    {xs xs' ys ys' : List α}
    (front : KeepsTies before pool xs xs')
    (back : KeepsTies before pool ys ys') :
    KeepsTies before pool (xs ++ ys) (xs' ++ ys') := by
  intro x inX
  rw [List.filter_append, List.filter_append, front x inX, back x inX]

theorem KeepsTies.mem
    {xs ys : List α}
    (order : WeakOrderOn before pool)
    (keeps : KeepsTies before pool xs ys)
    {x : α}
    (inX : pool x)
    (member : x ∈ xs) :
    x ∈ ys := by
  have kept : x ∈ xs.filter (tiedWith before x) :=
    List.mem_filter.mpr ⟨member, order.tiedWith_self inX⟩
  rw [keeps x inX] at kept
  exact (List.mem_filter.mp kept).1

/-- Two stretches of which no item of one is tied with an item of the other may change
places. An item tied with an item of one stretch is tied with no item of the other. -/
theorem keepsTies_swap
    {xs ys : List α}
    (order : WeakOrderOn before pool)
    (inXs : ∀ x ∈ xs, pool x)
    (inYs : ∀ y ∈ ys, pool y)
    (apart : ∀ x ∈ xs, ∀ y ∈ ys, tiedWith before x y = false) :
    KeepsTies before pool (xs ++ ys) (ys ++ xs) := by
  intro z inZ
  rw [List.filter_append, List.filter_append]
  by_cases none : xs.filter (tiedWith before z) = []
  · simp [none]
  · obtain ⟨x, member⟩ := List.exists_mem_of_ne_nil _ none
    obtain ⟨inList, tiedX⟩ := List.mem_filter.mp member
    have noneY : ys.filter (tiedWith before z) = [] := by
      refine List.filter_eq_nil_iff.mpr fun y inList' tiedY => ?_
      have tied := order.tiedWith_trans (inXs x inList) (inYs y inList') inZ tiedX tiedY
      rw [apart x inList y inList'] at tied
      exact Bool.false_ne_true tied
    simp [noneY]

/-- Any rearrangement of a list with no two tied items keeps its ties: each item is tied
with at most one of them. The items tied with one item are tied with each other, so there is at most
one. -/
theorem keepsTies_of_perm
    {xs ys : List α}
    (order : WeakOrderOn before pool)
    (inYs : ∀ y ∈ ys, pool y)
    (apart : ys.Pairwise fun x y => tiedWith before x y = false)
    (rearranged : xs.Perm ys) :
    KeepsTies before pool xs ys := by
  intro z inZ
  have single : (ys.filter (tiedWith before z)).Pairwise fun _ _ => False := by
    refine (List.Pairwise.filter _ apart).imp_of_mem fun {x y} inX inY untied => ?_
    obtain ⟨inX, tiedX⟩ := List.mem_filter.mp inX
    obtain ⟨inY, tiedY⟩ := List.mem_filter.mp inY
    have tied := order.tiedWith_trans (inYs x inX) (inYs y inY) inZ tiedX tiedY
    rw [untied] at tied
    exact Bool.false_ne_true tied
  have filtered := rearranged.filter (tiedWith before z)
  exact filtered.eq_of_pairwise (fun _ _ _ _ never => never.elim)
    ((filtered.pairwise_iff fun never => never).mpr single) single

/-- A stretch with no two tied items may be reversed. -/
theorem keepsTies_reverse
    {xs : List α}
    (order : WeakOrderOn before pool)
    (inXs : ∀ x ∈ xs, pool x)
    (apart : xs.Pairwise fun x y => tiedWith before x y = false) :
    KeepsTies before pool xs.reverse xs :=
  keepsTies_of_perm order inXs apart (List.reverse_perm xs)

/-! ## One stable sort -/

/-- Two sorted lists that keep the ties of each other are equal. Each head is the other list's least
item, so the two heads are tied, and the items tied with them start with one head in one list and
the other in the other. -/
theorem eq_of_sorted_of_keepsTies
    (order : WeakOrderOn before pool)
    {xs ys : List α}
    (inXs : ∀ x ∈ xs, pool x)
    (inYs : ∀ y ∈ ys, pool y)
    (sortedX : Sorted before xs)
    (sortedY : Sorted before ys)
    (keeps : KeepsTies before pool xs ys) :
    xs = ys := by
  induction xs generalizing ys with
  | nil =>
      cases ys with
      | nil => rfl
      | cons y ys =>
          have kept := keeps.symm.mem order (inYs y (List.mem_cons_self ..)) List.mem_cons_self
          simp at kept
  | cons x xs ih =>
      cases ys with
      | nil =>
          have kept := keeps.mem order (inXs x (List.mem_cons_self ..)) List.mem_cons_self
          simp at kept
      | cons y ys =>
          have inX := inXs x List.mem_cons_self
          have inY := inYs y List.mem_cons_self
          have yAfter : before y x = false := by
            rcases List.mem_cons.mp (keeps.symm.mem order inY List.mem_cons_self) with same | later
            · rw [same, order.irrefl inX]
            · exact (sorted_cons.mp sortedX).1 y later
          have xAfter : before x y = false := by
            rcases List.mem_cons.mp (keeps.mem order inX List.mem_cons_self) with same | later
            · rw [same, order.irrefl inY]
            · exact (sorted_cons.mp sortedY).1 x later
          have tied : tiedWith before x y = true := by simp [tiedWith, yAfter, xAfter]
          have heads := keeps x inX
          rw [List.filter_cons_of_pos (order.tiedWith_self inX),
            List.filter_cons_of_pos tied] at heads
          obtain ⟨same, -⟩ := List.cons.inj heads
          subst same
          have rest : KeepsTies before pool xs ys := by
            intro z inZ
            have both := keeps z inZ
            simp only [List.filter_cons] at both
            split at both
            · exact List.cons.inj both |>.2
            · exact both
          rw [ih (fun z member => inXs z (List.mem_cons_of_mem _ member))
            (fun z member => inYs z (List.mem_cons_of_mem _ member))
            (sorted_cons.mp sortedX).2 (sorted_cons.mp sortedY).2 rest]

end CorridorRank.NaturalMerge
