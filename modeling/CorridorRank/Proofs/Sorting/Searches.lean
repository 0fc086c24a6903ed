import CorridorRank.Sorting.NaturalMerge
import CorridorRank.Proofs.Traversal

/-!
# Where the searches of the merge sort land

The sort searches a sorted stretch for the place of an item three ways: by halving
(`bisect`, and `insertionPoint` for binary insertion), and by galloping from a hint, first
doubling an offset (`expand`) and then halving between the last two offsets
(`gallopLeft`, `gallopRight`). Each asks a yes/no question of positions, and on a sorted
stretch the answers switch once, at a threshold: the searches return exactly that
threshold.

The facts here are stated for answers given by a threshold (`m < k` or `k ≤ m`), so they
say nothing about items or orders; `threshold_of_monotone` finds the threshold of any
question whose answers switch once.
-/

namespace CorridorRank.NaturalMerge

open Traversal

variable {α ε : Type}

/-- A question whose answer, once yes, stays yes has a threshold. -/
theorem threshold_of_monotone
    (question : Nat → Bool)
    (n : Nat)
    (monotone : ∀ i j, i ≤ j → j < n → question i = true → question j = true) :
    ∃ k ≤ n, ∀ m < n, question m = decide (k ≤ m) := by
  induction n with
  | zero =>
      exact ⟨0, Nat.le_refl 0, fun m below => absurd below (Nat.not_lt_zero m)⟩
  | succ n ih =>
      obtain ⟨k, within, answers⟩ := ih fun i j ordered below => monotone i j ordered (by omega)
      by_cases reached : k < n
      · refine ⟨k, by omega, fun m below => ?_⟩
        by_cases last : m = n
        · subst last
          have atThreshold : question k = true := by
            rw [answers k reached]
            simp
          rw [monotone k m (by omega) (by omega) atThreshold]
          simp
          omega
        · exact answers m (by omega)
      · cases atLast : question n with
        | true =>
            refine ⟨n, by omega, fun m below => ?_⟩
            by_cases last : m = n
            · subst last
              simp [atLast]
            · rw [answers m (by omega)]
              simp only [decide_eq_decide]
              omega
        | false =>
            refine ⟨n + 1, Nat.le_refl _, fun m below => ?_⟩
            by_cases last : m = n
            · subst last
              simp [atLast]
            · rw [answers m (by omega)]
              simp only [decide_eq_decide]
              omega

/-! ## Halving -/

/-- Halving over `[lo, hi)` returns the first position whose answer is no. -/
theorem bisect_eq
    {goRight : Nat → Except ε Bool}
    {lo hi k : Nat}
    (from_lo : lo ≤ k)
    (to_hi : k ≤ hi)
    (answers : ∀ m, lo ≤ m → m < hi → goRight m = .ok (decide (m < k))) :
    bisect goRight lo hi = .ok k := by
  fun_induction bisect goRight lo hi with
  | case1 lo hi below middle ihRight ihLeft =>
      rw [bind_eq_ok]
      refine ⟨decide (middle < k), answers middle (by omega) (by omega), ?_⟩
      by_cases goesRight : middle < k
      · simp only [goesRight, decide_true, ↓reduceIte]
        exact ihRight (by omega) to_hi fun m low high => answers m (by omega) high
      · simp only [goesRight, decide_false, Bool.false_eq_true, ↓reduceIte]
        exact ihLeft from_lo (by omega) fun m low high => answers m low (by omega)
  | case2 lo hi above =>
      rw [pure_eq_ok]
      omega

/-- Binary insertion places the pivot at the first position in `[l, r)` that it comes
before. -/
theorem insertionPoint_eq
    [Inhabited α]
    {lt : α → α → Except ε Bool}
    {items : Array α}
    {pivot : α}
    {l r k : Nat}
    (from_l : l ≤ k)
    (to_r : k ≤ r)
    (answers : ∀ m, l ≤ m → m < r → lt pivot (items.getD m default) = .ok (decide (k ≤ m))) :
    insertionPoint lt items pivot l r = .ok k := by
  fun_induction insertionPoint lt items pivot l r with
  | case1 l r below middle ihBefore =>
      rename_i ihAfter
      rw [bind_eq_ok]
      refine ⟨decide (k ≤ middle), answers middle (by omega) (by omega), ?_⟩
      by_cases before : k ≤ middle
      · simp only [before, decide_true, ↓reduceIte]
        exact ihBefore from_l before fun m low high => answers m low (by omega)
      · simp only [before, decide_false, Bool.false_eq_true, ↓reduceIte]
        exact ihAfter (by omega) to_r fun m low high => answers m (by omega) high
  | case2 l r above =>
      rw [pure_eq_ok]
      omega

/-! ## Galloping -/

/-- Doubling an offset while the answer is yes stops with the threshold between the last
offset that said yes and the first that did not, or the end. -/
theorem expand_spec
    (further : Nat → Except ε Bool)
    (maxofs lastofs ofs bound : Nat)
    (lastBelow : lastofs < bound)
    (fits : bound ≤ maxofs)
    (answers : ∀ o < maxofs, further o = .ok (decide (o < bound))) :
    ∃ last next, expand further maxofs lastofs ofs = .ok (last, next) ∧
      last < bound ∧ bound ≤ next ∧ next ≤ maxofs := by
  fun_induction expand further maxofs lastofs ofs with
  | case1 lastofs ofs below ih =>
      by_cases yes : ofs < bound
      · obtain ⟨last, next, expanded, facts⟩ := ih yes
        refine ⟨last, next, ?_, facts⟩
        rw [bind_eq_ok]
        exact ⟨true, by rw [answers ofs below]; simp [yes], expanded⟩
      · refine ⟨lastofs, ofs, ?_, lastBelow, by omega, by omega⟩
        rw [bind_eq_ok]
        exact ⟨false, by rw [answers ofs below]; simp [yes], rfl⟩
  | case2 lastofs ofs above =>
      exact ⟨lastofs, maxofs, rfl, lastBelow, fits, Nat.le_refl _⟩

/-- A question asked through `!` answers the opposite. -/
theorem not_answer
    {question : Except ε Bool}
    {answer : Bool}
    (answered : question = .ok answer) :
    (do return !(← question) : Except ε Bool) = .ok (!answer) := by
  rw [answered]
  rfl

/-- Galloping left from a hint finds the number of leading items that come before the key. It
gallops right from the hint when the threshold lies after it, and left otherwise. -/
theorem gallopLeft_eq
    {lt : α → α → Except ε Bool}
    {key : α}
    {read : Nat → α}
    {n hint k : Nat}
    (hintInside : hint < n)
    (within : k ≤ n)
    (answers : ∀ m < n, lt (read m) key = .ok (decide (m < k))) :
    gallopLeft lt key read n hint = .ok k := by
  unfold gallopLeft
  rw [bind_eq_ok]
  refine ⟨decide (hint < k), answers hint hintInside, ?_⟩
  by_cases after : hint < k
  · simp only [after, decide_true, ↓reduceIte]
    obtain ⟨last, next, expanded, lastBelow, nextAbove, nextFits⟩ :=
      expand_spec (fun o => lt (read (hint + o)) key) (n - hint) 0 1 (k - hint) (by omega)
        (by omega) fun o inside => by
          rw [answers (hint + o) (by omega)]
          simp only [Except.ok.injEq, decide_eq_decide]
          omega
    rw [bind_eq_ok]
    refine ⟨(last, next), expanded, ?_⟩
    exact bisect_eq (by omega) (by omega) fun m low high => answers m (by omega)
  · simp only [after, decide_false, Bool.false_eq_true, ↓reduceIte]
    obtain ⟨last, next, expanded, lastBelow, nextAbove, nextFits⟩ :=
      expand_spec (fun o => do return !(← lt (read (hint - o)) key)) (hint + 1) 0 1
        (hint + 1 - k) (by omega) (by omega) fun o inside => by
          rw [not_answer (answers (hint - o) (by omega))]
          simp only [Except.ok.injEq, ← decide_not, decide_eq_decide]
          omega
    rw [bind_eq_ok]
    refine ⟨(last, next), expanded, ?_⟩
    exact bisect_eq (by omega) (by omega) fun m low high => answers m (by omega)

/-- Galloping right from a hint finds the number of leading items that the key does not
come before. It gallops left from the hint when the threshold lies at or before it, and right
otherwise. -/
theorem gallopRight_eq
    {lt : α → α → Except ε Bool}
    {key : α}
    {read : Nat → α}
    {n hint k : Nat}
    (hintInside : hint < n)
    (within : k ≤ n)
    (answers : ∀ m < n, lt key (read m) = .ok (decide (k ≤ m))) :
    gallopRight lt key read n hint = .ok k := by
  have notAnswers : ∀ m < n, (do return !(← lt key (read m)) : Except ε Bool) =
      .ok (decide (m < k)) := fun m inside => by
    rw [not_answer (answers m inside)]
    simp only [Except.ok.injEq, ← decide_not, decide_eq_decide]
    omega
  unfold gallopRight
  rw [bind_eq_ok]
  refine ⟨decide (k ≤ hint), answers hint hintInside, ?_⟩
  by_cases before : k ≤ hint
  · simp only [before, decide_true, ↓reduceIte]
    obtain ⟨last, next, expanded, lastBelow, nextAbove, nextFits⟩ :=
      expand_spec (fun o => lt key (read (hint - o))) (hint + 1) 0 1 (hint + 1 - k) (by omega)
        (by omega) fun o inside => by
          rw [answers (hint - o) (by omega)]
          simp only [Except.ok.injEq, decide_eq_decide]
          omega
    rw [bind_eq_ok]
    refine ⟨(last, next), expanded, ?_⟩
    exact bisect_eq (by omega) (by omega) fun m low high => notAnswers m (by omega)
  · simp only [before, decide_false, Bool.false_eq_true, ↓reduceIte]
    obtain ⟨last, next, expanded, lastBelow, nextAbove, nextFits⟩ :=
      expand_spec (fun o => do return !(← lt key (read (hint + o)))) (n - hint) 0 1 (k - hint)
        (by omega) (by omega) fun o inside => by
          rw [notAnswers (hint + o) (by omega)]
          simp only [Except.ok.injEq, decide_eq_decide]
          omega
    rw [bind_eq_ok]
    refine ⟨(last, next), expanded, ?_⟩
    exact bisect_eq (by omega) (by omega) fun m low high => notAnswers m (by omega)

end CorridorRank.NaturalMerge
