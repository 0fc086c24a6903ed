import CorridorRank.Proofs.Sorting.StableSort

/-!
# The sort fails only where a comparison does

`NaturalMerge.sortBy` stops with a fault only when a comparison it asks fails: when `lt`
answers on any two items of a pool that holds the input (`Answers`), the sort returns.

Every step of the sort asks `lt` only of items it reads at positions inside the array, and
the array stays a rearrangement of the input (`Permutation`), so each of its items is in
the pool. Each search returns when its questions are answered; each merge step, with at
least one item of either run left, asks only of those items; and the stack steps merge
runs that lie inside the array, which the tiling of the stack guarantees.
-/

namespace CorridorRank.NaturalMerge

open Traversal

variable {α ε : Type}

/-- `lt` answers, without a fault, on any two items of `pool`. -/
def Answers
    (lt : α → α → Except ε Bool)
    (pool : α → Prop) :
    Prop :=
  ∀ x y, pool x → pool y → ∃ answer, lt x y = .ok answer

/-! ## Searches -/

section Searches

theorem expand_returns
    (further : Nat → Except ε Bool)
    (maxofs : Nat)
    (answered : ∀ o < maxofs, ∃ answer, further o = .ok answer)
    (lastofs ofs : Nat) :
    ∃ found, expand further maxofs lastofs ofs = .ok found := by
  fun_induction expand further maxofs lastofs ofs with
  | case1 lastofs ofs below ih =>
      obtain ⟨goesOn, asked⟩ := answered ofs below
      refine returns_bind asked ?_
      split
      · exact ih
      · exact ⟨_, rfl⟩
  | case2 lastofs ofs above =>
      exact ⟨_, rfl⟩

theorem bisect_returns
    {goRight : Nat → Except ε Bool}
    {lo hi : Nat}
    (answered : ∀ m, lo ≤ m → m < hi → ∃ answer, goRight m = .ok answer) :
    ∃ point, bisect goRight lo hi = .ok point := by
  fun_induction bisect goRight lo hi with
  | case1 lo hi below middle ihRight ihLeft =>
      obtain ⟨right, asked⟩ := answered middle (by omega) (by omega)
      refine returns_bind asked ?_
      split
      · exact ihRight fun m low high => answered m (by omega) high
      · exact ihLeft fun m low high => answered m low (by omega)
  | case2 lo hi above =>
      exact ⟨_, rfl⟩

variable {lt : α → α → Except ε Bool} {key : α} {read : Nat → α} {n hint : Nat}

/-- Galloping left from a hint inside the stretch returns when each comparison it may ask answers:
galloping right from the hint stays below the end, and galloping left stays at or below the hint. -/
theorem gallopLeft_returns
    (hintInside : hint < n)
    (answered : ∀ m < n, ∃ answer, lt (read m) key = .ok answer) :
    ∃ point, gallopLeft lt key read n hint = .ok point := by
  unfold gallopLeft
  obtain ⟨right, asked⟩ := answered hint hintInside
  refine returns_bind asked ?_
  split
  · obtain ⟨⟨last, next⟩, expanded⟩ := expand_returns (fun o => lt (read (hint + o)) key)
      (n - hint) (fun o inside => answered (hint + o) (by omega)) 0 1
    have fits := expand_le expanded
    exact returns_bind expanded (bisect_returns fun m low high => answered m (by omega))
  · obtain ⟨⟨last, next⟩, expanded⟩ := expand_returns
      (fun o => do return !(← lt (read (hint - o)) key)) (hint + 1)
      (fun o inside => ⟨_, not_answer (answered (hint - o) (by omega)).choose_spec⟩) 0 1
    exact returns_bind expanded (bisect_returns fun m low high => answered m (by omega))

/-- Galloping right from a hint inside the stretch returns when each comparison it may ask answers:
galloping left from the hint stays at or below it, and galloping right stays below the end. -/
theorem gallopRight_returns
    (hintInside : hint < n)
    (answered : ∀ m < n, ∃ answer, lt key (read m) = .ok answer) :
    ∃ point, gallopRight lt key read n hint = .ok point := by
  have notAnswered : ∀ m < n, ∃ answer,
      (do return !(← lt key (read m)) : Except ε Bool) = .ok answer := fun m inside =>
    ⟨_, not_answer (answered m inside).choose_spec⟩
  unfold gallopRight
  obtain ⟨left, asked⟩ := answered hint hintInside
  refine returns_bind asked ?_
  split
  · obtain ⟨⟨last, next⟩, expanded⟩ := expand_returns (fun o => lt key (read (hint - o)))
      (hint + 1) (fun o inside => answered (hint - o) (by omega)) 0 1
    exact returns_bind expanded (bisect_returns fun m low high => notAnswered m (by omega))
  · obtain ⟨⟨last, next⟩, expanded⟩ := expand_returns
      (fun o => do return !(← lt key (read (hint + o)))) (n - hint)
      (fun o inside => notAnswered (hint + o) (by omega)) 0 1
    have fits := expand_le expanded
    exact returns_bind expanded (bisect_returns fun m low high => notAnswered m (by omega))

end Searches

/-! ## Reading the array -/

section Items

variable [Inhabited α] {lt : α → α → Except ε Bool} {pool : α → Prop}

/-- Comparing items read inside two arrays whose items are all in the pool gets an
answer. -/
theorem Answers.getD
    (answers : Answers lt pool)
    {xs ys : Array α}
    (inX : ∀ x ∈ xs.toList, pool x)
    (inY : ∀ y ∈ ys.toList, pool y)
    (i j : Nat)
    (insideX : i < xs.size)
    (insideY : j < ys.size) :
    ∃ answer, lt (xs.getD i default) (ys.getD j default) = .ok answer :=
  answers _ _ (inX _ (getD_mem insideX)) (inY _ (getD_mem insideY))

theorem runEnd_returns
    (answers : Answers lt pool)
    {items : Array α}
    (inPool : ∀ x ∈ items.toList, pool x)
    (descending : Bool)
    {hi : Nat}
    (fits : hi ≤ items.size)
    {position : Nat}
    (after : 1 ≤ position) :
    ∃ stop, runEnd lt items descending hi position = .ok stop := by
  fun_induction runEnd lt items descending hi position with
  | case1 position below ih =>
      obtain ⟨continues, asked⟩ :=
        answers.getD inPool inPool position (position - 1) (by omega) (by omega)
      refine returns_bind asked ?_
      split
      · exact ih (by omega)
      · exact ⟨_, rfl⟩
  | case2 position above =>
      exact ⟨_, rfl⟩

theorem countRun_returns
    (answers : Answers lt pool)
    {items : Array α}
    (inPool : ∀ x ∈ items.toList, pool x)
    (lo : Nat)
    {hi : Nat}
    (fits : hi ≤ items.size) :
    ∃ found, countRun lt items lo hi = .ok found := by
  unfold countRun
  split
  · exact ⟨_, rfl⟩
  · obtain ⟨descending, asked⟩ := answers.getD inPool inPool (lo + 1) lo (by omega) (by omega)
    refine returns_bind asked ?_
    obtain ⟨stop, ended⟩ :=
      runEnd_returns answers inPool descending fits (by omega : 1 ≤ lo + 2)
    exact returns_bind ended ⟨_, rfl⟩

/-- A run holds at least one item. -/
theorem countRun_pos
    {items : Array α}
    {lo hi len : Nat}
    {descending : Bool}
    (found : countRun lt items lo hi = .ok (len, descending)) :
    1 ≤ len := by
  unfold countRun at found
  split at found
  · simp only [pure_eq_ok, Prod.mk.injEq] at found
    omega
  · obtain ⟨_, _, found⟩ := bind_eq_ok.mp found
    obtain ⟨stop, ended, found⟩ := bind_eq_ok.mp found
    simp only [pure_eq_ok, Prod.mk.injEq] at found
    have := runEnd_bounds lt ended
    omega

/-- Binary insertion returns when the comparison answers on the pool that holds the pivot and the
items. -/
theorem insertionPoint_returns
    (answers : Answers lt pool)
    {items : Array α}
    (inPool : ∀ x ∈ items.toList, pool x)
    {pivot : α}
    (pivotIn : pool pivot)
    {l r : Nat}
    (fits : r ≤ items.size) :
    ∃ point, insertionPoint lt items pivot l r = .ok point := by
  fun_induction insertionPoint lt items pivot l r with
  | case1 l r below middle ihBefore =>
      rename_i ihAfter
      have inside : middle < items.size := by omega
      obtain ⟨goesBefore, asked⟩ := answers pivot _ pivotIn (inPool _ (getD_mem inside))
      refine returns_bind asked ?_
      split
      · exact ihBefore (by omega)
      · exact ihAfter fits
  | case2 l r above =>
      exact ⟨_, rfl⟩

/-- Binary insertion returns: each item it inserts, and each it compares with, is one of
the array's, which the insertions only rearrange. -/
theorem binaryInsert_returns
    (answers : Answers lt pool)
    {items : Array α}
    (inPool : ∀ x ∈ items.toList, pool x)
    {lo hi start : Nat}
    (within : hi ≤ items.size)
    (ordered : lo ≤ start) :
    ∃ sorted, binaryInsert lt items lo hi start = .ok sorted := by
  fun_induction binaryInsert lt items lo hi start with
  | case1 items start below pivot ih =>
      have inside : start < items.size := by omega
      obtain ⟨l, found⟩ := insertionPoint_returns answers inPool (inPool _ (getD_mem inside))
        (Nat.le_of_lt inside)
      refine returns_bind found ?_
      have bounds := insertionPoint_bounds lt ordered found
      have inserted := writeAt_perm (insert_perm_segment bounds.2 inside)
      exact ih l (fun x member => inPool x (inserted.subset member))
        (by rw [size_writeAt]; exact within) (by omega)
  | case2 items start above =>
      exact ⟨_, rfl⟩

end Items

/-! ## Merges -/

section Merges

variable [Inhabited α] {lt : α → α → Except ε Bool} {pool : α → Prop} {a b : Array α}

/-- A merge from the low end returns from any state whose view is a rearrangement of the
runs and that has at least two items of `a` and one of `b` left: every step reads the next
item of each run, and those lie inside the runs. The cases follow the merge: an item of `b` or of
`a` comes first; or the items of `a` not after `b`'s next item move, then that item, then the items
of `b` before `a`'s next item, and then that item. -/
theorem mergeLow_returns
    (answers : Answers lt pool)
    (inA : ∀ x ∈ a.toList, pool x)
    (inB : ∀ y ∈ b.toList, pool y)
    (fuel : Nat)
    (s : Low α)
    (phase : Phase)
    (holds : s.Holds a b)
    (manyA : 2 ≤ s.na)
    (someB : 1 ≤ s.nb) :
    ∃ merged, mergeLow lt a b fuel s phase = .ok merged := by
  induction fuel generalizing s phase with
  | zero =>
      exact ⟨_, rfl⟩
  | succ fuel ih =>
      have restA := holds.restA
      have restB := holds.restB
      cases phase with
      | single awins bwins =>
          obtain ⟨less, asked⟩ := answers.getD inB inA s.ib s.ia (by omega) (by omega)
          simp only [mergeLow]
          refine returns_bind asked ?_
          cases less with
          | true =>
              have moved := holds.takeB someB
              simp only [↓reduceIte]
              split
              · exact ⟨_, rfl⟩
              next remaining =>
                simp only [beq_iff_eq] at remaining
                split
                · exact ih _ _ (moved.gallopThreshold _) (by dsimp only; omega)
                    (by dsimp only; omega)
                · exact ih _ _ moved (by dsimp only; omega) (by dsimp only; omega)
          | false =>
              have moved := holds.takeA (by omega)
              simp only [Bool.false_eq_true, ↓reduceIte]
              split
              · exact ⟨_, rfl⟩
              next remaining =>
                simp only [beq_iff_eq] at remaining
                split
                · exact ih _ _ (moved.gallopThreshold _) (by dsimp only; omega)
                    (by dsimp only; omega)
                · exact ih _ _ moved (by dsimp only; omega) (by dsimp only; omega)
      | gallop =>
          simp only [mergeLow]
          generalize (if s.minGallop > 1 then s.minGallop - 1 else s.minGallop) = eased
          have eased_holds := holds.gallopThreshold eased
          obtain ⟨k, gallopedA⟩ : ∃ k, gallopRight lt (b.getD s.ib default)
              (fun i => a.getD (s.ia + i) default) s.na 0 = .ok k :=
            gallopRight_returns (by omega) fun m inside =>
              answers.getD inB inA s.ib (s.ia + m) (by omega) (by omega)
          have kFits := gallopRight_le lt (Nat.zero_le _) gallopedA
          refine returns_bind gallopedA ?_
          split
          · exact ⟨_, rfl⟩
          split
          · exact ⟨_, rfl⟩
          next notOne notNone =>
          simp only [Bool.and_eq_true, decide_eq_true_eq, beq_iff_eq, not_and_or] at notOne notNone
          split
          · exact ⟨_, rfl⟩
          next remaining =>
          simp only [beq_iff_eq] at remaining
          obtain ⟨k', gallopedB⟩ : ∃ k', gallopLeft lt (a.getD (s.ia + k) default)
              (fun i => b.getD (s.ib + 1 + i) default) (s.nb - 1) 0 = .ok k' :=
            gallopLeft_returns (by omega) fun m inside =>
              answers.getD inB inA (s.ib + 1 + m) (s.ia + k) (by omega) (by omega)
          have kFits' := gallopLeft_le lt (Nat.zero_le _) gallopedB
          refine returns_bind gallopedB ?_
          split
          · exact ⟨_, rfl⟩
          next notNoneB =>
          simp only [Bool.and_eq_true, decide_eq_true_eq, beq_iff_eq, not_and_or] at notNoneB
          have round := (((eased_holds.runA kFits).takeB (by dsimp only; omega)).runB
            (by dsimp only; omega)).takeA (by dsimp only; omega)
          split
          · exact ⟨_, rfl⟩
          next remainingA =>
          simp only [beq_iff_eq] at remainingA
          split
          · exact ih _ _ round (by dsimp only; omega) (by dsimp only; omega)
          · exact ih _ _ (round.gallopThreshold _) (by dsimp only; omega) (by dsimp only; omega)

/-- A merge from the high end returns from any state whose view is a rearrangement of the
runs and that has at least one item of `a` and two of `b` left. The cases follow the merge: the last
item of `a` or of `b` comes last; or the items of `a` after `b`'s last item move, then that item,
then the items of `b` not before `a`'s last item, and then that item. -/
theorem mergeHigh_returns
    (answers : Answers lt pool)
    (inA : ∀ x ∈ a.toList, pool x)
    (inB : ∀ y ∈ b.toList, pool y)
    (fuel : Nat)
    (s : High α)
    (phase : Phase)
    (holds : s.Holds a b)
    (someA : 1 ≤ s.na)
    (manyB : 2 ≤ s.nb) :
    ∃ merged, mergeHigh lt a b fuel s phase = .ok merged := by
  induction fuel generalizing s phase with
  | zero =>
      exact ⟨_, rfl⟩
  | succ fuel ih =>
      have restA := holds.restA
      have restB := holds.restB
      cases phase with
      | single awins bwins =>
          obtain ⟨less, asked⟩ :=
            answers.getD inB inA (s.nb - 1) (s.na - 1) (by omega) (by omega)
          simp only [mergeHigh]
          refine returns_bind asked ?_
          cases less with
          | true =>
              have moved := holds.takeA someA
              simp only [↓reduceIte]
              split
              · exact ⟨_, rfl⟩
              next remaining =>
                simp only [beq_iff_eq] at remaining
                split
                · exact ih _ _ (moved.gallopThreshold _) (by dsimp only; omega)
                    (by dsimp only; omega)
                · exact ih _ _ moved (by dsimp only; omega) (by dsimp only; omega)
          | false =>
              have moved := holds.takeB (by omega)
              simp only [Bool.false_eq_true, ↓reduceIte]
              split
              · exact ⟨_, rfl⟩
              next remaining =>
                simp only [beq_iff_eq] at remaining
                split
                · exact ih _ _ (moved.gallopThreshold _) (by dsimp only; omega)
                    (by dsimp only; omega)
                · exact ih _ _ moved (by dsimp only; omega) (by dsimp only; omega)
      | gallop =>
          simp only [mergeHigh]
          generalize (if s.minGallop > 1 then s.minGallop - 1 else s.minGallop) = eased
          have eased_holds := holds.gallopThreshold eased
          obtain ⟨p, gallopedA⟩ : ∃ p, gallopRight lt (b.getD (s.nb - 1) default)
              (fun i => a.getD i default) s.na (s.na - 1) = .ok p :=
            gallopRight_returns (by omega) fun m inside =>
              answers.getD inB inA (s.nb - 1) m (by omega) (by omega)
          have pFits := gallopRight_le lt (Nat.sub_le _ _) gallopedA
          refine returns_bind gallopedA ?_
          split
          · exact ⟨_, rfl⟩
          next notNone =>
          simp only [Bool.and_eq_true, decide_eq_true_eq, beq_iff_eq, not_and_or] at notNone
          split
          · exact ⟨_, rfl⟩
          next remaining =>
          simp only [beq_iff_eq] at remaining
          obtain ⟨p', gallopedB⟩ : ∃ p',
              gallopLeft lt (a.getD (s.na - (s.na - p) - 1) default) (fun i => b.getD i default)
                (s.nb - 1) (s.nb - 1 - 1) = .ok p' :=
            gallopLeft_returns (by omega) fun m inside =>
              answers.getD inB inA m (s.na - (s.na - p) - 1) (by omega) (by omega)
          have pFits' := gallopLeft_le lt (Nat.sub_le _ _) gallopedB
          refine returns_bind gallopedB ?_
          split
          · exact ⟨_, rfl⟩
          split
          · exact ⟨_, rfl⟩
          next notOneB notNoneB =>
          simp only [Bool.and_eq_true, decide_eq_true_eq, beq_iff_eq, not_and_or]
            at notOneB notNoneB
          have round := (((eased_holds.runA pFits).takeB (by dsimp only; omega)).runB
            (by dsimp only; omega)).takeA (by dsimp only; omega)
          split
          · exact ⟨_, rfl⟩
          next remainingA =>
          simp only [beq_iff_eq] at remainingA
          split
          · exact ih _ _ round (by dsimp only; omega) (by dsimp only; omega)
          · exact ih _ _ (round.gallopThreshold _) (by dsimp only; omega) (by dsimp only; omega)

/-- Merging two nonempty runs from the low end returns when the comparison answers on a pool that
holds both: the merge starts with `b`'s first item already moved. -/
theorem mergeLo_returns
    (answers : Answers lt pool)
    (inA : ∀ x ∈ a.toList, pool x)
    (inB : ∀ y ∈ b.toList, pool y)
    (minGallop : Nat)
    (someA : 1 ≤ a.size)
    (someB : 1 ≤ b.size) :
    ∃ merged, mergeLo lt a b minGallop = .ok merged := by
  have start := (Low.holds_start (a := a) (b := b) minGallop).takeB someB
  simp only [mergeLo]
  split
  · exact ⟨_, rfl⟩
  next remaining =>
  simp only [beq_iff_eq] at remaining
  split
  · exact ⟨_, rfl⟩
  next several =>
  simp only [beq_iff_eq] at several
  exact mergeLow_returns answers inA inB _ _ _ start (by dsimp only; omega) (by dsimp only; omega)

/-- Merging two nonempty runs from the high end returns when the comparison answers on a pool that
holds both: the merge starts with `a`'s last item already moved. -/
theorem mergeHi_returns
    (answers : Answers lt pool)
    (inA : ∀ x ∈ a.toList, pool x)
    (inB : ∀ y ∈ b.toList, pool y)
    (minGallop : Nat)
    (someA : 1 ≤ a.size)
    (someB : 1 ≤ b.size) :
    ∃ merged, mergeHi lt a b minGallop = .ok merged := by
  have start := (High.holds_start (a := a) (b := b) minGallop).takeA someA
  simp only [mergeHi]
  split
  · exact ⟨_, rfl⟩
  next remaining =>
  simp only [beq_iff_eq] at remaining
  split
  · exact ⟨_, rfl⟩
  next several =>
  simp only [beq_iff_eq] at several
  exact mergeHigh_returns answers inA inB _ _ _ start (by dsimp only; omega) (by dsimp only; omega)

/-- Merging two adjacent nonempty runs inside the array returns: the gallops that trim them
read inside them, and what is left of each is a nonempty stretch of the array. What of each run is
already in place is skipped, and from whichever end it merges, the merge returns. -/
theorem mergeAt_returns
    (answers : Answers lt pool)
    {items : Array α}
    (inPool : ∀ x ∈ items.toList, pool x)
    {na nb : Nat}
    (baseA minGallop : Nat)
    (fits : baseA + na + nb ≤ items.size)
    (someA : 1 ≤ na)
    (someB : 1 ≤ nb) :
    ∃ merged, mergeAt lt items baseA na nb minGallop = .ok merged := by
  simp only [mergeAt]
  obtain ⟨k, skipped⟩ : ∃ k, gallopRight lt (items.getD (baseA + na) default)
      (fun i => items.getD (baseA + i) default) na 0 = .ok k :=
    gallopRight_returns (by omega) fun m inside =>
      answers.getD inPool inPool (baseA + na) (baseA + m) (by omega) (by omega)
  have kFits := gallopRight_le lt (Nat.zero_le na) skipped
  refine returns_bind skipped ?_
  split
  · exact ⟨_, rfl⟩
  next remainingA =>
  simp only [beq_iff_eq] at remainingA
  obtain ⟨nb', trimmed⟩ : ∃ nb', gallopLeft lt (items.getD (baseA + k + (na - k) - 1) default)
      (fun i => items.getD (baseA + na + i) default) nb (nb - 1) = .ok nb' :=
    gallopLeft_returns (by omega) fun m inside =>
      answers.getD inPool inPool (baseA + na + m) (baseA + k + (na - k) - 1) (by omega) (by omega)
  have nbFits := gallopLeft_le lt (Nat.sub_le nb 1) trimmed
  refine returns_bind trimmed ?_
  split
  · exact ⟨_, rfl⟩
  next remainingB =>
  simp only [beq_iff_eq] at remainingB
  have inA : ∀ x ∈ (segment items (baseA + k) (na - k)).toList, pool x :=
    fun x member => inPool x (mem_of_mem_segment member)
  have inB : ∀ y ∈ (segment items (baseA + na) nb').toList, pool y :=
    fun y member => inPool y (mem_of_mem_segment member)
  have sizeA : (segment items (baseA + k) (na - k)).size = na - k := by
    rw [size_segment]
    omega
  have sizeB : (segment items (baseA + na) nb').size = nb' := by
    rw [size_segment]
    omega
  split
  · obtain ⟨merged, merging⟩ :=
      mergeLo_returns answers inA inB minGallop (by omega) (by omega)
    exact returns_bind merging ⟨_, rfl⟩
  · obtain ⟨merged, merging⟩ :=
      mergeHi_returns answers inA inB minGallop (by omega) (by omega)
    exact returns_bind merging ⟨_, rfl⟩

end Merges

/-! ## The run stack -/

section Stack

variable {lt : α → α → Except ε Bool} {pool : α → Prop} {input : Array α}

/-- Every run on the stack holds at least one item, so that a merge of two of them reads
inside each. -/
def Sorter.Filled
    (s : Sorter α) :
    Prop :=
  ∀ run ∈ s.runs.toList, 1 ≤ run.len

theorem Sorter.Filled.push
    {s : Sorter α}
    (filled : s.Filled)
    {lo len : Nat}
    (positive : 1 ≤ len) :
    ({ s with runs := s.runs.push ⟨lo, len, 0⟩ } : Sorter α).Filled := by
  intro run member
  simp only [Array.toList_push, List.mem_append, List.mem_singleton] at member
  rcases member with kept | pushed
  · exact filled run kept
  · rw [pushed]
    exact positive

variable [Inhabited α]

theorem mergeRuns_filled
    {s merged : Sorter α}
    {i : Nat}
    (filled : s.Filled)
    (pair : i + 1 < s.runs.size)
    (run : mergeRuns lt s i = .ok merged) :
    merged.Filled := by
  obtain ⟨-, -, runs⟩ := mergeRuns_eq lt run
  have firstFilled := filled _ (getD_mem (by omega : i < s.runs.size))
  intro r member
  rw [runs] at member
  simp only [List.mem_append, List.mem_cons] at member
  rcases member with kept | joined | kept
  · exact filled r (List.mem_of_mem_take kept)
  · rw [joined]
    dsimp only
    omega
  · exact filled r (List.mem_of_mem_drop kept)

/-- Two neighbouring runs on the stack merge: they are nonempty and lie inside the array,
whose items are the input's. -/
theorem mergeRuns_returns
    (answers : Answers lt pool)
    (inPool : ∀ x ∈ input.toList, pool x)
    {stop i : Nat}
    {s : Sorter α}
    (holds : s.Holds input stop)
    (filled : s.Filled)
    (pair : i + 1 < s.runs.size) :
    ∃ merged, mergeRuns lt s i = .ok merged := by
  obtain ⟨middle, below, based, secondBased, above⟩ := holds.tiles.around pair
  have fits := above.le
  have within := holds.within
  obtain ⟨merged, merging⟩ := mergeAt_returns answers (holds.inPool inPool)
    (s.runs.getD i default).base s.minGallop (by rw [holds.size_eq]; omega)
    (filled _ (getD_mem (by omega : i < s.runs.size))) (filled _ (getD_mem pair))
  simp only [mergeRuns]
  exact returns_bind merging ⟨_, rfl⟩

theorem mergeAbove_filled
    {p : Nat}
    (fuel : Nat)
    {s merged : Sorter α}
    (filled : s.Filled)
    (run : mergeAbove lt p fuel s = .ok merged) :
    merged.Filled := by
  induction fuel generalizing s with
  | zero =>
      simp only [mergeAbove, pure_eq_ok] at run
      rw [← run]
      exact filled
  | succ fuel ih =>
      simp only [mergeAbove] at run
      split at run
      next pairs =>
        simp only [Bool.and_eq_true, decide_eq_true_eq] at pairs
        obtain ⟨once, merging, run⟩ := bind_eq_ok.mp run
        exact ih (mergeRuns_filled filled (by omega) merging) run
      next =>
        rw [pure_eq_ok] at run
        rw [← run]
        exact filled

theorem mergeAbove_returns
    (answers : Answers lt pool)
    (inPool : ∀ x ∈ input.toList, pool x)
    {stop : Nat}
    (p fuel : Nat)
    {s : Sorter α}
    (holds : s.Holds input stop)
    (filled : s.Filled) :
    ∃ merged, mergeAbove lt p fuel s = .ok merged := by
  induction fuel generalizing s with
  | zero =>
      exact ⟨s, rfl⟩
  | succ fuel ih =>
      simp only [mergeAbove]
      split
      next pairs =>
        simp only [Bool.and_eq_true, decide_eq_true_eq] at pairs
        have pair : s.runs.size - 2 + 1 < s.runs.size := by omega
        obtain ⟨once, merging⟩ := mergeRuns_returns answers inPool holds filled pair
        exact returns_bind merging
          (ih (mergeRuns_holds lt holds pair merging) (mergeRuns_filled filled pair merging))
      next =>
        exact ⟨s, rfl⟩

/-- Settling the top run leaves no empty run on the stack: only the power of the top run changes. -/
theorem settle_filled
    {n len : Nat}
    {s settled : Sorter α}
    (filled : s.Filled)
    (run : settle lt n len s = .ok settled) :
    settled.Filled := by
  simp only [settle] at run
  split at run
  · rw [pure_eq_ok] at run
    rw [← run]
    exact filled
  · obtain ⟨lowered, merging, run⟩ := bind_eq_ok.mp run
    rw [pure_eq_ok] at run
    rw [← run]
    have loweredFilled := mergeAbove_filled _ filled merging
    intro r member
    simp only [Array.set!_eq_setIfInBounds, Array.toList_setIfInBounds] at member
    by_cases inside : lowered.runs.size - 1 < lowered.runs.size
    · rcases List.mem_or_eq_of_mem_set member with kept | top
      · exact loweredFilled r kept
      · rw [top]
        exact loweredFilled (lowered.runs.getD (lowered.runs.size - 1) default) (getD_mem inside)
    · rw [List.set_eq_of_length_le (by simp; omega)] at member
      exact loweredFilled r member

theorem settle_returns
    (answers : Answers lt pool)
    (inPool : ∀ x ∈ input.toList, pool x)
    {stop n len : Nat}
    {s : Sorter α}
    (holds : s.Holds input stop)
    (filled : s.Filled) :
    ∃ settled, settle lt n len s = .ok settled := by
  simp only [settle]
  split
  · exact ⟨_, rfl⟩
  · obtain ⟨lowered, merging⟩ := mergeAbove_returns answers inPool _ _ holds filled
    exact returns_bind merging ⟨_, rfl⟩

/-- Finding, extending and pushing the runs from `lo` on returns, and leaves no empty run
on the stack. A nonempty run that the array holds, extended by binary insertion if short, is settled
and pushed, and the loop goes on with the rest. -/
theorem pushRuns_returns
    (answers : Answers lt pool)
    (inPool : ∀ x ∈ input.toList, pool x)
    {minrun : Nat}
    (fuel : Nat)
    {s : Sorter α}
    {lo : Nat}
    (holds : s.Holds input lo)
    (filled : s.Filled) :
    ∃ pushed, pushRuns lt input.size minrun fuel s lo = .ok pushed ∧ pushed.Filled := by
  induction fuel generalizing s lo with
  | zero =>
      exact ⟨s, rfl, filled⟩
  | succ fuel ih =>
      simp only [pushRuns]
      split
      · exact ⟨s, rfl, filled⟩
      next inside =>
      have sized := holds.size_eq
      obtain ⟨⟨len, descending⟩, counted⟩ :=
        countRun_returns answers (holds.inPool inPool) lo (Nat.le_of_eq sized.symm)
      have found := countRun_length lt (by omega) counted
      have positive := countRun_pos counted
      have step : ∀ (items : Array α) (len : Nat), items.toList.Perm input.toList →
          1 ≤ len → lo + len ≤ input.size → ∃ pushed,
            (settle lt input.size len { s with items := items } >>= fun settled =>
              pushRuns lt input.size minrun fuel
                { settled with runs := settled.runs.push ⟨lo, len, 0⟩ } (lo + len)) =
              .ok pushed ∧ pushed.Filled := by
        intro items len rearranged positive within
        have placed : ({ s with items := items } : Sorter α).Holds input lo :=
          ⟨rearranged, holds.tiles, holds.within⟩
        have placedFilled : ({ s with items := items } : Sorter α).Filled := filled
        obtain ⟨settled, settling⟩ := settle_returns answers inPool placed placedFilled
        exact returns_bind_and settling (ih ((settle_holds lt placed settling).push within)
          ((settle_filled placedFilled settling).push positive))
      have oriented : (if descending = true then reverseRun s.items lo len else s.items).toList.Perm
          input.toList := by
        split
        · exact (reverseRun_perm _ _ _).trans holds.perm
        · exact holds.perm
      have orientedSize := oriented.length_eq
      simp only [Array.length_toList] at orientedSize
      refine returns_bind_and counted ?_
      dsimp only
      split
      · have extended : lo + min (input.size - lo) minrun ≤
            (if descending = true then reverseRun s.items lo len else s.items).size := by
          omega
        obtain ⟨sorted, inserted⟩ := binaryInsert_returns answers
          (fun x member => inPool x (oriented.subset member)) extended (by omega : lo ≤ lo + len)
        refine returns_bind_and inserted ?_
        exact step sorted _ ((binaryInsert_perm lt (by omega) (by omega) inserted).trans oriented)
          (by omega) (by omega)
      · exact returns_bind_and rfl (step _ len oriented positive (by omega))

/-- Collapsing the stack returns when the comparison answers on the pool: whichever pair it merges
lies below the top of the stack. -/
theorem collapse_returns
    (answers : Answers lt pool)
    (inPool : ∀ x ∈ input.toList, pool x)
    {stop : Nat}
    (fuel : Nat)
    {s : Sorter α}
    (holds : s.Holds input stop)
    (filled : s.Filled) :
    ∃ collapsed, collapse lt fuel s = .ok collapsed := by
  induction fuel generalizing s with
  | zero =>
      exact ⟨s, rfl⟩
  | succ fuel ih =>
      simp only [collapse]
      split
      · exact ⟨s, rfl⟩
      next several =>
      have mergesBelow : ∀ i, i + 1 < s.runs.size →
          ∃ collapsed, (mergeRuns lt s i >>= collapse lt fuel) = .ok collapsed := by
        intro i pair
        obtain ⟨merged, merging⟩ := mergeRuns_returns answers inPool holds filled pair
        exact returns_bind merging
          (ih (mergeRuns_holds lt holds pair merging) (mergeRuns_filled filled pair merging))
      apply mergesBelow
      split <;> omega

/-- The sort returns when `lt` answers on any two items of a pool that holds every item of
the input. -/
theorem sortBy_returns
    (answers : Answers lt pool)
    (inPool : ∀ x ∈ input.toList, pool x) :
    ∃ sorted, sortBy lt input = .ok sorted := by
  simp only [sortBy]
  split
  · exact ⟨_, rfl⟩
  · have start : (⟨input, #[], gallopWins⟩ : Sorter α).Holds input 0 :=
      ⟨List.Perm.refl _, rfl, Nat.zero_le _⟩
    have startFilled : (⟨input, #[], gallopWins⟩ : Sorter α).Filled := by
      simp [Sorter.Filled]
    obtain ⟨pushed, pushing, pushedFilled⟩ :=
      pushRuns_returns answers inPool input.size start startFilled
    obtain ⟨stop, pushedHolds⟩ := pushRuns_holds lt _ start pushing
    obtain ⟨collapsed, collapsing⟩ := collapse_returns answers inPool _ pushedHolds pushedFilled
    exact returns_bind pushing (returns_bind collapsing ⟨_, rfl⟩)

end Stack

end CorridorRank.NaturalMerge
