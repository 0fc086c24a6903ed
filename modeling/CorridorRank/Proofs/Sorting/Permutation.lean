import CorridorRank.Sorting.NaturalMerge
import CorridorRank.Proofs.Traversal
import CorridorRank.Proofs.Sorting.Moves
import Mathlib.Data.List.Perm.Basic

/-!
# The natural merge sort permutes its input

Whatever the comparison does, even when it is no order at all, a sort that finishes returns
its items rearranged: nothing lost, nothing repeated (`sortBy_perm`). Every step of the sort
that moves items replaces one stretch of the array by a rearrangement of that stretch
(`writeAt_perm`): reversing a descending run, inserting an item into the sorted stretch
before it, and merging two adjacent runs, whose merge holds exactly the items of both.

A merge walks its two runs with a state whose view (what is merged so far, then what is left
of each run) stays a rearrangement of the two runs: each step moves one item, or a stretch
found by galloping, from what is left to what is merged. The runs on the stack tile a prefix
of the array (`Tiles`), so the two runs a merge reads always lie inside it.
-/

namespace CorridorRank.NaturalMerge

open Traversal

variable {α ε : Type}

/-! ## Stretches of an array -/

theorem segment_toList
    (items : Array α)
    (start len : Nat) :
    (segment items start len).toList = (items.toList.drop start).take len := by
  simp [segment, List.extract_eq_take_drop]

theorem size_writeAt
    (items : Array α)
    (start : Nat)
    (written : List α) :
    (writeAt items start written).size = items.size := by
  unfold writeAt
  generalize written.zipIdx = pairs
  induction pairs generalizing items with
  | nil => rfl
  | cons pair rest ih =>
      rw [List.foldl_cons, ih]
      simp

/-- Writing from an offset: the items from position `start + offset` on are replaced. The first item
lands at `start + offset`, and the rest goes after it. -/
private theorem writeAt_offset_toList
    (items : Array α)
    (start offset : Nat)
    (written : List α)
    (fits : start + offset + written.length ≤ items.size) :
    ((written.zipIdx offset).foldl (fun acc (y, i) => acc.set! (start + i) y) items).toList =
      items.toList.take (start + offset) ++ written ++
        items.toList.drop (start + offset + written.length) := by
  induction written generalizing items offset with
  | nil =>
      simp
  | cons first rest ih =>
      rw [List.length_cons] at fits
      rw [List.zipIdx_cons, List.foldl_cons]
      dsimp only
      rw [ih (items.set! (start + offset) first) (offset + 1) (by simp; omega)]
      have inside : start + offset < items.toList.length := by simp; omega
      have front : (items.set! (start + offset) first).toList.take (start + (offset + 1)) =
          items.toList.take (start + offset) ++ [first] := by
        rw [Array.set!_eq_setIfInBounds, Array.toList_setIfInBounds, ← Nat.add_assoc,
          List.take_add_one, List.take_set_of_le (Nat.le_refl _), List.getElem?_set_self inside]
        rfl
      have back : (items.set! (start + offset) first).toList.drop
            (start + (offset + 1) + rest.length) =
          items.toList.drop (start + offset + (first :: rest).length) := by
        rw [Array.set!_eq_setIfInBounds, Array.toList_setIfInBounds,
          List.drop_set_of_lt (by omega), List.length_cons]
        congr 1
        omega
      rw [front, back]
      simp

theorem writeAt_toList
    (items : Array α)
    (start : Nat)
    (written : List α)
    (fits : start + written.length ≤ items.size) :
    (writeAt items start written).toList =
      items.toList.take start ++ written ++ items.toList.drop (start + written.length) := by
  have placed := writeAt_offset_toList items start 0 written (by simpa using fits)
  simp only [Nat.add_zero] at placed
  exact placed

theorem size_segment
    (items : Array α)
    (start len : Nat) :
    (segment items start len).size = min len (items.size - start) := by
  simp [segment]
  omega

@[simp]
theorem writeAt_nil
    (items : Array α)
    (start : Nat) :
    writeAt items start [] = items := rfl

/-- Two stretches side by side are the stretch that spans them. -/
theorem segment_append
    (items : Array α)
    (start first second : Nat) :
    (segment items start first).toList ++ (segment items (start + first) second).toList =
      (segment items start (first + second)).toList := by
  simp only [segment_toList, List.take_add, List.drop_drop, Nat.add_comm start first]

theorem segment_one
    [Inhabited α]
    {items : Array α}
    {start : Nat}
    (inside : start < items.size) :
    (segment items start 1).toList = [items.getD start default] := by
  rw [segment_toList, Array.getD_eq_getD_getElem?, Array.getElem?_eq_getElem inside]
  simp [List.take_one, List.head?_drop, inside]

@[simp]
theorem segment_whole
    (items : Array α) :
    (segment items 0 items.size).toList = items.toList := by
  simp [segment_toList, ← Array.length_toList]

/-- Writing a rearrangement of a stretch over that stretch rearranges the array. The array is its
part before the stretch, the stretch, and its part after; a stretch that starts past the end is
empty, and nothing is written. -/
theorem writeAt_perm
    {items : Array α}
    {start len : Nat}
    {written : List α}
    (rearranged : written.Perm (segment items start len).toList) :
    (writeAt items start written).toList.Perm items.toList := by
  have lengths : written.length = min len (items.size - start) := by
    rw [rearranged.length_eq, Array.length_toList, size_segment]
  by_cases inside : start ≤ items.size
  · rw [writeAt_toList items start written (by omega)]
    have whole : items.toList =
        items.toList.take start ++ (segment items start len).toList ++
          items.toList.drop (start + written.length) := by
      have stretch : (segment items start len).toList =
          (items.toList.drop start).take written.length := by
        rw [segment_toList, lengths]
        simp
      rw [stretch, List.append_assoc, ← List.drop_drop, List.take_append_drop,
        List.take_append_drop]
    conv => rhs; rw [whole]
    exact (rearranged.append_left _).append_right _
  · have empty : written = [] := List.eq_nil_of_length_eq_zero (by omega)
    subst empty
    exact List.Perm.refl _

/-- A stretch with the item after it put first holds the same items as the stretch that
includes that item. -/
theorem insert_perm_segment
    {items : Array α}
    [Inhabited α]
    {first start : Nat}
    (before : first ≤ start)
    (inside : start < items.size) :
    (items.getD start default :: (segment items first (start - first)).toList).Perm
      (segment items first (start - first + 1)).toList := by
  have inBounds : start < items.toList.length := by simpa using inside
  have pivot : items.getD start default = items.toList[start] := by
    simp [Array.getD_eq_getD_getElem?, inside]
  rw [segment_toList, segment_toList, List.take_add_one, List.getElem?_drop,
    Nat.add_sub_cancel' before, List.getElem?_eq_getElem inBounds, pivot]
  exact (List.perm_append_singleton _ _).symm

/-- Reversing a run in place rearranges the array. -/
theorem reverseRun_perm
    (items : Array α)
    (lo len : Nat) :
    (reverseRun items lo len).toList.Perm items.toList :=
  writeAt_perm (List.reverse_perm _)

theorem drop_toList_eq_getD_cons
    [Inhabited α]
    {items : Array α}
    {i : Nat}
    (inside : i < items.size) :
    items.toList.drop i = items.getD i default :: items.toList.drop (i + 1) := by
  rw [List.drop_eq_getElem_cons (by simpa using inside)]
  simp [Array.getD_eq_getD_getElem?, inside]

/-! ## Where the searches stop -/

section Bounds

variable (lt : α → α → Except ε Bool)

theorem runEnd_bounds
    [Inhabited α]
    {items : Array α}
    {descending : Bool}
    {hi position stop : Nat}
    (found : runEnd lt items descending hi position = .ok stop) :
    position ≤ stop ∧ stop ≤ max hi position := by
  fun_induction runEnd lt items descending hi position generalizing stop with
  | case1 position below ih =>
      obtain ⟨continues, _, found⟩ := bind_eq_ok.mp found
      split at found
      · have := ih found
        omega
      · rw [pure_eq_ok] at found
        omega
  | case2 position above =>
      rw [pure_eq_ok] at found
      omega

/-- A run found from `lo` ends by `hi`. -/
theorem countRun_length
    [Inhabited α]
    {items : Array α}
    {lo hi len : Nat}
    {descending : Bool}
    (below : lo < hi)
    (found : countRun lt items lo hi = .ok (len, descending)) :
    len ≤ hi - lo := by
  unfold countRun at found
  split at found
  · simp only [pure_eq_ok, Prod.mk.injEq] at found
    omega
  · obtain ⟨_, _, found⟩ := bind_eq_ok.mp found
    obtain ⟨stop, ended, found⟩ := bind_eq_ok.mp found
    simp only [pure_eq_ok, Prod.mk.injEq] at found
    have := runEnd_bounds lt ended
    omega

/-- Binary insertion places the pivot inside the stretch it searches. -/
theorem insertionPoint_bounds
    [Inhabited α]
    {items : Array α}
    {pivot : α}
    {l r point : Nat}
    (ordered : l ≤ r)
    (found : insertionPoint lt items pivot l r = .ok point) :
    l ≤ point ∧ point ≤ r := by
  fun_induction insertionPoint lt items pivot l r generalizing point with
  | case1 l r below middle ihBefore =>
      rename_i ihAfter
      obtain ⟨goesBefore, _, found⟩ := bind_eq_ok.mp found
      split at found
      · have := ihBefore (by omega) found
        omega
      · have := ihAfter (by omega) found
        omega
  | case2 l r above =>
      rw [pure_eq_ok] at found
      omega

theorem expand_le
    {further : Nat → Except ε Bool}
    {maxofs lastofs ofs last next : Nat}
    (found : expand further maxofs lastofs ofs = .ok (last, next)) :
    next ≤ maxofs := by
  fun_induction expand further maxofs lastofs ofs with
  | case1 lastofs ofs below ih =>
      obtain ⟨goesOn, _, found⟩ := bind_eq_ok.mp found
      split at found
      · exact ih found
      · simp only [pure_eq_ok, Prod.mk.injEq] at found
        omega
  | case2 lastofs ofs above =>
      simp only [pure_eq_ok, Prod.mk.injEq] at found
      omega

theorem bisect_le
    {goRight : Nat → Except ε Bool}
    {lo hi point : Nat}
    (found : bisect goRight lo hi = .ok point) :
    point ≤ hi := by
  fun_induction bisect goRight lo hi with
  | case1 lo hi below middle ihRight ihLeft =>
      obtain ⟨right, _, found⟩ := bind_eq_ok.mp found
      split at found
      · exact ihRight found
      · have := ihLeft found
        omega
  | case2 lo hi above =>
      rw [pure_eq_ok] at found
      omega

theorem gallopLeft_le
    {key : α}
    {read : Nat → α}
    {n hint point : Nat}
    (hintInside : hint ≤ n)
    (found : gallopLeft lt key read n hint = .ok point) :
    point ≤ n := by
  unfold gallopLeft at found
  obtain ⟨right, _, found⟩ := bind_eq_ok.mp found
  split at found
  · obtain ⟨⟨last, next⟩, expanded, found⟩ := bind_eq_ok.mp found
    have := expand_le expanded
    have := bisect_le found
    omega
  · obtain ⟨⟨last, next⟩, expanded, found⟩ := bind_eq_ok.mp found
    have := bisect_le found
    omega

theorem gallopRight_le
    {key : α}
    {read : Nat → α}
    {n hint point : Nat}
    (hintInside : hint ≤ n)
    (found : gallopRight lt key read n hint = .ok point) :
    point ≤ n := by
  unfold gallopRight at found
  obtain ⟨left, _, found⟩ := bind_eq_ok.mp found
  split at found
  · obtain ⟨⟨last, next⟩, expanded, found⟩ := bind_eq_ok.mp found
    have := bisect_le found
    omega
  · obtain ⟨⟨last, next⟩, expanded, found⟩ := bind_eq_ok.mp found
    have := expand_le expanded
    have := bisect_le found
    omega

end Bounds

/-! ## Merging from the low end -/

namespace Low

/-- What a merge from the low end has merged and has left of each run is a rearrangement of
the two runs. -/
structure Holds (a b : Array α) (s : Low α) : Prop where
  restA : s.ia + s.na = a.size
  restB : s.ib + s.nb = b.size
  perm : (s.done a b).Perm (a.toList ++ b.toList)

variable {a b : Array α}

theorem holds_start
    (minGallop : Nat) :
    (⟨0, a.size, 0, b.size, [], minGallop⟩ : Low α).Holds a b :=
  ⟨by simp, by simp, by simp [done]⟩

theorem Holds.gallopThreshold
    {s : Low α}
    (holds : s.Holds a b)
    (minGallop : Nat) :
    ({ s with minGallop := minGallop } : Low α).Holds a b :=
  ⟨holds.restA, holds.restB, holds.perm⟩

/-- Moving the next `k` items of `a` to the merged part leaves the view as it was. -/
theorem Holds.runA
    {s : Low α}
    (holds : s.Holds a b)
    {k : Nat}
    (fits : k ≤ s.na) :
    ({ s with
        out := (segment a s.ia k).toList.reverse ++ s.out, ia := s.ia + k, na := s.na - k } :
      Low α).Holds a b := by
  refine ⟨by have := holds.restA; dsimp only; omega, holds.restB, ?_⟩
  have same : ({ s with
          out := (segment a s.ia k).toList.reverse ++ s.out, ia := s.ia + k, na := s.na - k } :
        Low α).done a b = s.done a b := by
    simp only [done, List.reverse_append, List.reverse_reverse, List.append_assoc]
    rw [← List.append_assoc (segment a s.ia k).toList, segment_append,
      Nat.add_sub_cancel' fits]
  rw [same]
  exact holds.perm

/-- Moving the next `k` items of `b` to the merged part moves them past what is left of
`a`. -/
theorem Holds.runB
    {s : Low α}
    (holds : s.Holds a b)
    {k : Nat}
    (fits : k ≤ s.nb) :
    ({ s with
        out := (segment b s.ib k).toList.reverse ++ s.out, ib := s.ib + k, nb := s.nb - k } :
      Low α).Holds a b := by
  refine ⟨holds.restA, by have := holds.restB; dsimp only; omega, ?_⟩
  have moved : (({ s with
          out := (segment b s.ib k).toList.reverse ++ s.out, ib := s.ib + k, nb := s.nb - k } :
        Low α).done a b).Perm (s.done a b) := by
    have split : (segment b s.ib s.nb).toList =
        (segment b s.ib k).toList ++ (segment b (s.ib + k) (s.nb - k)).toList := by
      rw [segment_append, Nat.add_sub_cancel' fits]
    simp only [done, List.reverse_append, List.reverse_reverse, List.append_assoc, split]
    refine List.Perm.append_left _ ?_
    simp only [← List.append_assoc]
    exact List.perm_append_comm.append_right _
  exact moved.trans holds.perm

theorem Holds.takeA
    [Inhabited α]
    {s : Low α}
    (holds : s.Holds a b)
    (left : 1 ≤ s.na) :
    ({ s with out := a.getD s.ia default :: s.out, ia := s.ia + 1, na := s.na - 1 } : Low α).Holds
      a b := by
  have inside : s.ia < a.size := by have := holds.restA; omega
  simpa [segment_one inside] using holds.runA left

theorem Holds.takeB
    [Inhabited α]
    {s : Low α}
    (holds : s.Holds a b)
    (left : 1 ≤ s.nb) :
    ({ s with out := b.getD s.ib default :: s.out, ib := s.ib + 1, nb := s.nb - 1 } : Low α).Holds
      a b := by
  have inside : s.ib < b.size := by have := holds.restB; omega
  simpa [segment_one inside] using holds.runB left

/-- With one item of `a` left, putting it after what is left of `b` rearranges the view. -/
theorem Holds.lastOfA_perm
    [Inhabited α]
    {s : Low α}
    (holds : s.Holds a b)
    (one : s.na = 1) :
    (s.lastOfA a b).Perm (a.toList ++ b.toList) := by
  have inside : s.ia < a.size := by have := holds.restA; omega
  refine List.Perm.trans ?_ holds.perm
  rw [lastOfA, done, one, segment_one inside, List.append_assoc, List.append_assoc]
  exact List.Perm.append_left _ List.perm_append_comm

end Low

/-- A merge that stops returns the run it had merged when it stopped. -/
theorem merged_of_pure
    {β : Type}
    {finished merged : β}
    {threshold minGallop : Nat}
    (run : (pure (finished, threshold) : Except ε (β × Nat)) = .ok (merged, minGallop)) :
    merged = finished := by
  simp only [pure_eq_ok, Prod.mk.injEq] at run
  exact run.1.symm

/-! ## Merging from the high end -/

namespace High

/-- What a merge from the high end has left of each run, then what it has merged, is a
rearrangement of the two runs. -/
structure Holds (a b : Array α) (s : High α) : Prop where
  restA : s.na ≤ a.size
  restB : s.nb ≤ b.size
  perm : (s.done a b).Perm (a.toList ++ b.toList)

variable {a b : Array α}

theorem holds_start
    (minGallop : Nat) :
    (⟨a.size, b.size, [], minGallop⟩ : High α).Holds a b :=
  ⟨Nat.le_refl _, Nat.le_refl _, by simp [done]⟩

theorem Holds.gallopThreshold
    {s : High α}
    (holds : s.Holds a b)
    (minGallop : Nat) :
    ({ s with minGallop := minGallop } : High α).Holds a b :=
  ⟨holds.restA, holds.restB, holds.perm⟩

/-- Moving the items of `a` from position `p` on to the merged part moves them past what is
left of `b`. -/
theorem Holds.runA
    {s : High α}
    (holds : s.Holds a b)
    {p : Nat}
    (fits : p ≤ s.na) :
    ({ s with out := (segment a p (s.na - p)).toList ++ s.out, na := s.na - (s.na - p) } :
      High α).Holds a b := by
  refine ⟨by have := holds.restA; dsimp only; omega, holds.restB, ?_⟩
  have split := segment_append a 0 p (s.na - p)
  rw [Nat.zero_add, Nat.add_sub_cancel' fits] at split
  refine List.Perm.trans ?_ holds.perm
  simp only [done, ← split, Nat.sub_sub_self fits, List.append_assoc]
  refine List.Perm.append_left _ ?_
  simp only [← List.append_assoc]
  exact List.perm_append_comm.append_right _

/-- Moving the items of `b` from position `p` on to the merged part leaves the view as it
was. -/
theorem Holds.runB
    {s : High α}
    (holds : s.Holds a b)
    {p : Nat}
    (fits : p ≤ s.nb) :
    ({ s with out := (segment b p (s.nb - p)).toList ++ s.out, nb := s.nb - (s.nb - p) } :
      High α).Holds a b := by
  refine ⟨holds.restA, by have := holds.restB; dsimp only; omega, ?_⟩
  have split := segment_append b 0 p (s.nb - p)
  rw [Nat.zero_add, Nat.add_sub_cancel' fits] at split
  refine List.Perm.trans ?_ holds.perm
  simp only [done, ← split, Nat.sub_sub_self fits, List.append_assoc]
  exact List.Perm.refl _

theorem Holds.takeA
    [Inhabited α]
    {s : High α}
    (holds : s.Holds a b)
    (left : 1 ≤ s.na) :
    ({ s with out := a.getD (s.na - 1) default :: s.out, na := s.na - 1 } : High α).Holds a b := by
  have inside : s.na - 1 < a.size := by have := holds.restA; omega
  have one : s.na - (s.na - 1) = 1 := by omega
  simpa [one, segment_one inside] using holds.runA (Nat.sub_le s.na 1)

theorem Holds.takeB
    [Inhabited α]
    {s : High α}
    (holds : s.Holds a b)
    (left : 1 ≤ s.nb) :
    ({ s with out := b.getD (s.nb - 1) default :: s.out, nb := s.nb - 1 } : High α).Holds a b := by
  have inside : s.nb - 1 < b.size := by have := holds.restB; omega
  have one : s.nb - (s.nb - 1) = 1 := by omega
  simpa [one, segment_one inside] using holds.runB (Nat.sub_le s.nb 1)

/-- With one item of `b` left, putting it before what is left of `a` rearranges the view. -/
theorem Holds.firstOfB_perm
    [Inhabited α]
    {s : High α}
    (holds : s.Holds a b)
    (one : s.nb = 1) :
    (s.firstOfB a b).Perm (a.toList ++ b.toList) := by
  have inside : 0 < b.size := by have := holds.restB; omega
  refine List.Perm.trans ?_ holds.perm
  rw [firstOfB, done, one, segment_one inside]
  exact (List.perm_append_singleton _ _).symm.append_right _

end High

/-! ## The run stack -/

/-- The runs, bottom first, lie side by side from `start` to `stop`. -/
def Tiles : List Run → Nat → Nat → Prop
  | [], start, stop => start = stop
  | run :: runs, start, stop => run.base = start ∧ Tiles runs (start + run.len) stop

theorem tiles_append
    {below above : List Run}
    {start stop : Nat} :
    Tiles (below ++ above) start stop ↔ ∃ middle, Tiles below start middle ∧ Tiles above middle stop := by
  induction below generalizing start with
  | nil =>
      simp [Tiles]
  | cons run below ih =>
      simp only [List.cons_append, Tiles, ih]
      constructor
      · rintro ⟨based, middle, lower, upper⟩
        exact ⟨middle, ⟨based, lower⟩, upper⟩
      · rintro ⟨middle, ⟨based, lower⟩, upper⟩
        exact ⟨based, middle, lower, upper⟩

theorem Tiles.le
    {runs : List Run}
    {start stop : Nat}
    (tiles : Tiles runs start stop) :
    start ≤ stop := by
  induction runs generalizing start with
  | nil =>
      exact Nat.le_of_eq tiles
  | cons run runs ih =>
      have := ih tiles.2
      omega

/-- Each run of a tiling lies inside the tiled stretch. -/
theorem Tiles.bounds
    {runs : List Run}
    {start stop : Nat}
    (tiles : Tiles runs start stop) :
    ∀ run ∈ runs, start ≤ run.base ∧ run.base + run.len ≤ stop := by
  induction runs generalizing start with
  | nil =>
      simp
  | cons first runs ih =>
      obtain ⟨based, rest⟩ := tiles
      have := rest.le
      intro run member
      rcases List.mem_cons.mp member with same | later
      · subst same
        omega
      · have := ih rest run later
        omega

/-- The stack around the runs at positions `i` and `i + 1`: the runs below them tile up to
where the first starts, the second starts where the first ends, and the runs above tile
from where the second ends. -/
theorem Tiles.around
    {runs : Array Run}
    {start stop i : Nat}
    (tiles : Tiles runs.toList start stop)
    (pair : i + 1 < runs.size) :
    ∃ middle, Tiles (runs.toList.take i) start middle ∧ (runs.getD i default).base = middle ∧
      (runs.getD (i + 1) default).base = middle + (runs.getD i default).len ∧
      Tiles (runs.toList.drop (i + 2))
        (middle + (runs.getD i default).len + (runs.getD (i + 1) default).len) stop := by
  rw [← List.take_append_drop i runs.toList, drop_toList_eq_getD_cons (by omega),
    drop_toList_eq_getD_cons pair] at tiles
  obtain ⟨middle, below, based, secondBased, above⟩ := tiles_append.mp tiles
  exact ⟨middle, below, based, secondBased, above⟩

/-- Setting the power of a run leaves the tiling as it was. -/
theorem Tiles.setPower
    {runs : List Run}
    {start stop : Nat}
    (tiles : Tiles runs start stop)
    (position power : Nat) :
    Tiles (runs.set position { runs.getD position default with power := power }) start stop := by
  induction runs generalizing start position with
  | nil =>
      exact tiles
  | cons run runs ih =>
      cases position with
      | zero =>
          exact tiles
      | succ position =>
          exact ⟨tiles.1, ih tiles.2 position⟩

/-- What the sort keeps true between its steps: the array is a rearrangement of the input,
and the runs on the stack tile its first `stop` positions. -/
structure Sorter.Holds (input : Array α) (stop : Nat) (s : Sorter α) : Prop where
  perm : s.items.toList.Perm input.toList
  tiles : Tiles s.runs.toList 0 stop
  within : stop ≤ input.size

/-- A run pushed right after the tiled stretch extends it. -/
theorem Sorter.Holds.push
    {input : Array α}
    {lo len : Nat}
    {s : Sorter α}
    (holds : s.Holds input lo)
    (within : lo + len ≤ input.size) :
    ({ s with runs := s.runs.push ⟨lo, len, 0⟩ } : Sorter α).Holds input (lo + len) := by
  refine ⟨holds.perm, ?_, within⟩
  rw [Array.toList_push]
  exact tiles_append.mpr ⟨lo, holds.tiles, rfl, rfl⟩

theorem Sorter.Holds.size_eq
    {input : Array α}
    {stop : Nat}
    {s : Sorter α}
    (holds : s.Holds input stop) :
    s.items.size = input.size := by
  simpa using holds.perm.length_eq

section Merge

variable [Inhabited α] (lt : α → α → Except ε Bool) {a b : Array α}

/-- Every move of a merge from the low end keeps its view a rearrangement of the runs. -/
theorem Low.Holds.move
    {s t : Low α}
    (holds : s.Holds a b)
    (moved : Low.Move lt a b s t) :
    t.Holds a b := by
  cases moved with
  | takeA _ someA _ => exact holds.takeA someA
  | takeB _ _ someB => exact holds.takeB someB
  | gallopA k galloped _ _ => exact holds.runA (gallopRight_le lt (Nat.zero_le _) galloped)
  | gallopAB k galloped _ someB =>
      exact (holds.runA (gallopRight_le lt (Nat.zero_le _) galloped)).takeB someB
  | gallopB k galloped _ _ => exact holds.runB (gallopLeft_le lt (Nat.zero_le _) galloped)
  | gallopBA k galloped someA _ =>
      exact (holds.runB (gallopLeft_le lt (Nat.zero_le _) galloped)).takeA someA
  | threshold minGallop => exact holds.gallopThreshold minGallop

theorem Low.Holds.reaches
    {s t : Low α}
    (holds : s.Holds a b)
    (reaches : Relation.ReflTransGen (Low.Move lt a b) s t) :
    t.Holds a b := by
  induction reaches with
  | refl => exact holds
  | tail _ moved reached => exact reached.move lt moved

/-- A merge from the low end returns a rearrangement of the two runs, from any state whose
view is one and that has at least two items of `a` and one of `b` left. -/
theorem mergeLow_perm
    (fuel : Nat)
    (s : Low α)
    (phase : Phase)
    {merged : List α}
    {minGallop : Nat}
    (holds : s.Holds a b)
    (manyA : 2 ≤ s.na)
    (someB : 1 ≤ s.nb)
    (run : mergeLow lt a b fuel s phase = .ok (merged, minGallop)) :
    merged.Perm (a.toList ++ b.toList) := by
  obtain ⟨t, reaches, ends⟩ := mergeLow_reaches lt a b fuel s phase manyA someB run
  have reached := holds.reaches lt reaches
  rcases ends with ⟨finished, _⟩ | ⟨finished, one⟩
  · rw [finished]
    exact reached.perm
  · rw [finished]
    exact reached.lastOfA_perm one

/-- Every move of a merge from the high end keeps its view a rearrangement of the runs. -/
theorem High.Holds.move
    {s t : High α}
    (holds : s.Holds a b)
    (moved : High.Move lt a b s t) :
    t.Holds a b := by
  cases moved with
  | takeA _ someA _ => exact holds.takeA someA
  | takeB _ _ someB => exact holds.takeB someB
  | gallopA p galloped _ _ =>
      exact holds.runA (gallopRight_le lt (Nat.sub_le _ _) galloped)
  | gallopAB p galloped _ someB =>
      exact (holds.runA (gallopRight_le lt (Nat.sub_le _ _) galloped)).takeB someB
  | gallopB p galloped _ _ =>
      exact holds.runB (gallopLeft_le lt (Nat.sub_le _ _) galloped)
  | gallopBA p galloped someA _ =>
      exact (holds.runB (gallopLeft_le lt (Nat.sub_le _ _) galloped)).takeA someA
  | threshold minGallop => exact holds.gallopThreshold minGallop

theorem High.Holds.reaches
    {s t : High α}
    (holds : s.Holds a b)
    (reaches : Relation.ReflTransGen (High.Move lt a b) s t) :
    t.Holds a b := by
  induction reaches with
  | refl => exact holds
  | tail _ moved reached => exact reached.move lt moved

/-- A merge from the high end returns a rearrangement of the two runs, from any state whose
view is one and that has at least one item of `a` and two of `b` left. -/
theorem mergeHigh_perm
    (fuel : Nat)
    (s : High α)
    (phase : Phase)
    {merged : List α}
    {minGallop : Nat}
    (holds : s.Holds a b)
    (someA : 1 ≤ s.na)
    (manyB : 2 ≤ s.nb)
    (run : mergeHigh lt a b fuel s phase = .ok (merged, minGallop)) :
    merged.Perm (a.toList ++ b.toList) := by
  obtain ⟨t, reaches, ends⟩ := mergeHigh_reaches lt a b fuel s phase someA manyB run
  have reached := holds.reaches lt reaches
  rcases ends with ⟨finished, _⟩ | ⟨finished, one⟩
  · rw [finished]
    exact reached.perm
  · rw [finished]
    exact reached.firstOfB_perm one

/-- Merging two nonempty runs from the low end rearranges them. The merge starts with `b`'s first
item already moved. -/
theorem mergeLo_perm
    {minGallop : Nat}
    {merged : List α}
    {threshold : Nat}
    (someA : 1 ≤ a.size)
    (someB : 1 ≤ b.size)
    (run : mergeLo lt a b minGallop = .ok (merged, threshold)) :
    merged.Perm (a.toList ++ b.toList) := by
  have start := (Low.holds_start (a := a) (b := b) minGallop).takeB someB
  simp only [mergeLo] at run
  split at run
  next => rw [merged_of_pure run]; exact start.perm
  next remaining =>
  simp only [beq_iff_eq] at remaining
  split at run
  next one =>
    rw [merged_of_pure run]
    exact start.lastOfA_perm (by simpa using one)
  next several =>
  simp only [beq_iff_eq] at several
  exact mergeLow_perm lt _ _ _ start (by dsimp only; omega) (by dsimp only; omega) run

/-- Merging two nonempty runs from the high end rearranges them. The merge starts with `a`'s last
item already moved. -/
theorem mergeHi_perm
    {minGallop : Nat}
    {merged : List α}
    {threshold : Nat}
    (someA : 1 ≤ a.size)
    (someB : 1 ≤ b.size)
    (run : mergeHi lt a b minGallop = .ok (merged, threshold)) :
    merged.Perm (a.toList ++ b.toList) := by
  have start := (High.holds_start (a := a) (b := b) minGallop).takeA someA
  simp only [mergeHi] at run
  split at run
  next => rw [merged_of_pure run]; exact start.perm
  next remaining =>
  simp only [beq_iff_eq] at remaining
  split at run
  next one =>
    rw [merged_of_pure run]
    exact start.firstOfB_perm (by simpa using one)
  next several =>
  simp only [beq_iff_eq] at several
  exact mergeHigh_perm lt _ _ _ start (by dsimp only; omega) (by dsimp only; omega) run

/-- Merging two adjacent runs that lie inside the array rearranges the array. What of each run is
already in place is skipped, and from whichever end it merges, the merged run rearranges the two
runs. -/
theorem mergeAt_perm
    {items merged : Array α}
    {baseA na nb minGallop threshold : Nat}
    (fits : baseA + na + nb ≤ items.size)
    (run : mergeAt lt items baseA na nb minGallop = .ok (merged, threshold)) :
    merged.toList.Perm items.toList := by
  simp only [mergeAt] at run
  obtain ⟨k, skipped, run⟩ := bind_eq_ok.mp run
  have kFits := gallopRight_le lt (Nat.zero_le na) skipped
  split at run
  next => rw [merged_of_pure run]
  next someA =>
  simp only [beq_iff_eq] at someA
  obtain ⟨nb', trimmed, run⟩ := bind_eq_ok.mp run
  have nbFits := gallopLeft_le lt (Nat.sub_le nb 1) trimmed
  split at run
  next => rw [merged_of_pure run]
  next someB =>
  simp only [beq_iff_eq] at someB
  have sizeA : (segment items (baseA + k) (na - k)).size = na - k := by
    rw [size_segment]
    omega
  have sizeB : (segment items (baseA + na) nb').size = nb' := by
    rw [size_segment]
    omega
  have written : ∃ mergedRun, mergedRun.Perm ((segment items (baseA + k) (na - k)).toList ++
      (segment items (baseA + na) nb').toList) ∧ merged = writeAt items (baseA + k) mergedRun := by
    split at run
    · obtain ⟨⟨mergedRun, _⟩, merging, run⟩ := bind_eq_ok.mp run
      exact ⟨mergedRun, mergeLo_perm lt (by omega) (by omega) merging, merged_of_pure run⟩
    · obtain ⟨⟨mergedRun, _⟩, merging, run⟩ := bind_eq_ok.mp run
      exact ⟨mergedRun, mergeHi_perm lt (by omega) (by omega) merging, merged_of_pure run⟩
  obtain ⟨mergedRun, rearranged, rfl⟩ := written
  have adjacent : baseA + k + (na - k) = baseA + na := by omega
  rw [← adjacent, segment_append] at rearranged
  exact writeAt_perm rearranged

/-- Inserting the items from `start` to `hi` into the stretch before them rearranges the
array and keeps its size. The pivot goes in at `l`, and the stretch from `l` up to it moves one
place on. -/
theorem binaryInsert_perm
    {items sorted : Array α}
    {lo hi start : Nat}
    (within : hi ≤ items.size)
    (ordered : lo ≤ start)
    (run : binaryInsert lt items lo hi start = .ok sorted) :
    sorted.toList.Perm items.toList := by
  fun_induction binaryInsert lt items lo hi start with
  | case1 items start below pivot ih =>
      obtain ⟨l, found, run⟩ := bind_eq_ok.mp run
      have bounds := insertionPoint_bounds lt ordered found
      have inserted := writeAt_perm (insert_perm_segment bounds.2 (by omega : start < items.size))
      have sized : hi ≤ (writeAt items l (pivot :: (segment items l (start - l)).toList)).size := by
        rw [size_writeAt]
        exact within
      exact (ih l sized (by omega) run).trans inserted
  | case2 items start above =>
      rw [pure_eq_ok] at run
      rw [run]

/-- What merging the runs at stack positions `i` and `i + 1` does: it merges their items in
the array, and puts one run in place of the two, starting where the first did. -/
theorem mergeRuns_eq
    {s merged : Sorter α}
    {i : Nat}
    (run : mergeRuns lt s i = .ok merged) :
    ∃ minGallop, mergeAt lt s.items (s.runs.getD i default).base (s.runs.getD i default).len
        (s.runs.getD (i + 1) default).len s.minGallop = .ok (merged.items, minGallop) ∧
      merged.runs.toList = s.runs.toList.take i ++ { s.runs.getD i default with
        len := (s.runs.getD i default).len + (s.runs.getD (i + 1) default).len } ::
        s.runs.toList.drop (i + 2) := by
  simp only [mergeRuns] at run
  obtain ⟨⟨items, minGallop⟩, merging, run⟩ := bind_eq_ok.mp run
  rw [pure_eq_ok] at run
  subst run
  exact ⟨minGallop, merging, by simp [List.take_of_length_le]⟩

/-- Merging two runs takes one run off the stack. -/
theorem mergeRuns_size
    {s merged : Sorter α}
    {i : Nat}
    (pair : i + 1 < s.runs.size)
    (run : mergeRuns lt s i = .ok merged) :
    merged.runs.size = s.runs.size - 1 := by
  obtain ⟨-, -, runs⟩ := mergeRuns_eq lt run
  have sizes := congrArg List.length runs
  simp only [Array.length_toList, List.length_append, List.length_take, List.length_cons,
    List.length_drop] at sizes
  omega

/-- Merging the runs at stack positions `i` and `i + 1` keeps what the sort keeps true. The merged
run tiles what the pair did. -/
theorem mergeRuns_holds
    {input : Array α}
    {stop i : Nat}
    {s merged : Sorter α}
    (holds : s.Holds input stop)
    (pair : i + 1 < s.runs.size)
    (run : mergeRuns lt s i = .ok merged) :
    merged.Holds input stop := by
  obtain ⟨minGallop, merging, runs⟩ := mergeRuns_eq lt run
  obtain ⟨middle, below, based, secondBased, above⟩ := holds.tiles.around pair
  have within := holds.within
  have fits := above.le
  refine ⟨?_, ?_, within⟩
  · exact (mergeAt_perm lt (by rw [holds.size_eq]; omega) merging).trans holds.perm
  · rw [runs]
    exact tiles_append.mpr ⟨middle, below, based, by rw [← Nat.add_assoc]; exact above⟩

theorem mergeAbove_holds
    {input : Array α}
    {stop p : Nat}
    (fuel : Nat)
    {s merged : Sorter α}
    (holds : s.Holds input stop)
    (run : mergeAbove lt p fuel s = .ok merged) :
    merged.Holds input stop := by
  induction fuel generalizing s with
  | zero =>
      simp only [mergeAbove, pure_eq_ok] at run
      rw [← run]
      exact holds
  | succ fuel ih =>
      simp only [mergeAbove] at run
      split at run
      next pairs =>
        simp only [Bool.and_eq_true, decide_eq_true_eq] at pairs
        obtain ⟨once, merging, run⟩ := bind_eq_ok.mp run
        exact ih (mergeRuns_holds lt holds (by omega) merging) run
      next =>
        rw [pure_eq_ok] at run
        rw [← run]
        exact holds

/-- Settling the top run keeps what the sort keeps true: only the power of the top run changes. -/
theorem settle_holds
    {input : Array α}
    {stop n len : Nat}
    {s settled : Sorter α}
    (holds : s.Holds input stop)
    (run : settle lt n len s = .ok settled) :
    settled.Holds input stop := by
  simp only [settle] at run
  split at run
  · rw [pure_eq_ok] at run
    rw [← run]
    exact holds
  · obtain ⟨lowered, merging, run⟩ := bind_eq_ok.mp run
    rw [pure_eq_ok] at run
    rw [← run]
    have loweredHolds := mergeAbove_holds lt _ holds merging
    refine ⟨loweredHolds.perm, ?_, loweredHolds.within⟩
    have top : lowered.runs.getD (lowered.runs.size - 1) default =
        lowered.runs.toList.getD (lowered.runs.size - 1) default := by
      simp [Array.getD_eq_getD_getElem?, List.getD_eq_getElem?_getD]
    simp only [Array.set!_eq_setIfInBounds, Array.toList_setIfInBounds, top]
    exact loweredHolds.tiles.setPower _ _

/-- Pushing runs keeps what the sort keeps true: a run found, reversed if it descends and extended
by binary insertion if short, is settled and pushed. -/
theorem pushRuns_holds
    {input : Array α}
    {minrun : Nat}
    (fuel : Nat)
    {s pushed : Sorter α}
    {lo : Nat}
    (holds : s.Holds input lo)
    (run : pushRuns lt input.size minrun fuel s lo = .ok pushed) :
    ∃ stop, pushed.Holds input stop := by
  induction fuel generalizing s lo with
  | zero =>
      simp only [pushRuns, pure_eq_ok] at run
      rw [← run]
      exact ⟨lo, holds⟩
  | succ fuel ih =>
      simp only [pushRuns] at run
      split at run
      next =>
        rw [pure_eq_ok] at run
        rw [← run]
        exact ⟨lo, holds⟩
      next inside =>
      obtain ⟨⟨len, descending⟩, counted, run⟩ := bind_eq_ok.mp run
      have found := countRun_length lt (by omega) counted
      have step : ∀ (items : Array α) (len : Nat), items.toList.Perm input.toList →
          lo + len ≤ input.size → ∀ settled : Sorter α,
          settle lt input.size len { items := items, runs := s.runs, minGallop := s.minGallop } =
            .ok settled →
          pushRuns lt input.size minrun fuel
            { settled with runs := settled.runs.push ⟨lo, len, 0⟩ } (lo + len) = .ok pushed →
          ∃ stop, pushed.Holds input stop := by
        intro items len rearranged within settled settling run
        have placed : ({ items := items, runs := s.runs, minGallop := s.minGallop } : Sorter α).Holds
            input lo := ⟨rearranged, holds.tiles, holds.within⟩
        exact ih ((settle_holds lt placed settling).push within) run
      have oriented : (if descending = true then reverseRun s.items lo len else s.items).toList.Perm
          input.toList := by
        split
        · exact (reverseRun_perm _ _ _).trans holds.perm
        · exact holds.perm
      have orientedSize := oriented.length_eq
      simp only [Array.length_toList] at orientedSize
      dsimp only at run
      split at run
      · obtain ⟨sorted, inserted, run⟩ := bind_eq_ok.mp run
        obtain ⟨_, extended, run⟩ := bind_eq_ok.mp run
        rw [pure_eq_ok] at extended
        subst extended
        obtain ⟨settled, settling, run⟩ := bind_eq_ok.mp run
        exact step sorted (min (input.size - lo) minrun)
          ((binaryInsert_perm lt (by omega) (by omega) inserted).trans oriented) (by omega)
          settled settling run
      · obtain ⟨_, kept, run⟩ := bind_eq_ok.mp run
        rw [pure_eq_ok] at kept
        subst kept
        obtain ⟨settled, settling, run⟩ := bind_eq_ok.mp run
        exact step _ len oriented (by omega) settled settling run

/-- Collapsing the stack keeps what the sort keeps true: whichever pair it merges lies below the top
of the stack. -/
theorem collapse_holds
    {input : Array α}
    {stop : Nat}
    (fuel : Nat)
    {s collapsed : Sorter α}
    (holds : s.Holds input stop)
    (run : collapse lt fuel s = .ok collapsed) :
    collapsed.Holds input stop := by
  induction fuel generalizing s with
  | zero =>
      simp only [collapse, pure_eq_ok] at run
      rw [← run]
      exact holds
  | succ fuel ih =>
      simp only [collapse] at run
      split at run
      next =>
        rw [pure_eq_ok] at run
        rw [← run]
        exact holds
      next several =>
      obtain ⟨merged, merging, run⟩ := bind_eq_ok.mp run
      refine ih (mergeRuns_holds lt holds ?_ merging) run
      split <;> omega

/-- A sort that finishes returns its input rearranged, whatever the comparison. Before any run is
pushed, the empty stack tiles the empty stretch. -/
theorem sortBy_perm
    {input sorted : Array α}
    (run : sortBy lt input = .ok sorted) :
    sorted.toList.Perm input.toList := by
  simp only [sortBy] at run
  split at run
  · rw [pure_eq_ok] at run
    rw [← run]
  · obtain ⟨pushed, pushing, run⟩ := bind_eq_ok.mp run
    have start : (⟨input, #[], gallopWins⟩ : Sorter α).Holds input 0 :=
      ⟨List.Perm.refl _, rfl, Nat.zero_le _⟩
    obtain ⟨stop, pushedHolds⟩ := pushRuns_holds lt _ start pushing
    obtain ⟨collapsed, collapsing, run⟩ := bind_eq_ok.mp run
    rw [pure_eq_ok] at run
    rw [← run]
    exact (collapse_holds lt _ pushedHolds collapsing).perm

end Merge

end CorridorRank.NaturalMerge
