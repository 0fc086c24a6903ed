import Mathlib
import CorridorRank.Proofs.Sorting.StableSort
import CorridorRank.Scoring.Rank

/-!
# The order routes are ranked in

Ranking compares rank keys (score, interchanges, start) as tuples, the first unequal
component deciding, and doubles as IEEE 754 orders them. On the keys whose score is a
number and whose other two components are integers (`RankKey.Comparable`) that comparison
is a strict weak order: each such key has a rank in a lexicographic order
(`RankKey.rank`), and one key comes before another exactly when its rank is smaller
(`RankKey.lt_eq_rank`). Ranking such keys is the stable sort by rank (`rankBy_sorted`).

Doubles are read through Lean's logical model of floats (`Float.Model`). A double that is a
number is negative infinity, a negative finite, a zero of either sign, a positive finite or
positive infinity, and two finite ones of one sign compare by exponent and then
significand; so each has a rank of three integers (`doubleRank`). Not-a-number is unordered
and has no rank: a key holding it is not comparable.
-/

namespace CorridorRank

open Float.Model (UnpackedFloat)

/-! ## Doubles -/

/-- Where a double that is a number stands among the others: its class (negative infinity,
negative finite, zero, positive finite, positive infinity), then exponent and significand,
both reversed for a negative double. Not-a-number is put with negative infinity. -/
def unpackedRank : UnpackedFloat → Int ×ₗ Int ×ₗ Int
  | .infinity .negative => toLex (0, toLex (0, 0))
  | .finite .negative significand exponent _ => toLex (1, toLex (-exponent, -(significand : Int)))
  | .zero _ => toLex (2, toLex (0, 0))
  | .finite .positive significand exponent _ => toLex (3, toLex (exponent, (significand : Int)))
  | .infinity .positive => toLex (4, toLex (0, 0))
  | .notANumber => toLex (0, toLex (0, 0))

/-- The rank of a double among doubles. -/
def doubleRank
    (x : Float) :
    Int ×ₗ Int ×ₗ Int := unpackedRank x.toModel.unpack

section Lexicographic

variable {β γ : Type} [LinearOrder β] [LinearOrder γ]

theorem compare_beq_eq
    (a b : β) :
    (compare a b == .eq) = decide (a = b) := by
  rcases lt_trichotomy a b with less | same | greater
  · simp [compare_lt_iff_lt.mpr less, ne_of_lt less]
  · simp [same]
  · simp [compare_gt_iff_gt.mpr greater, ne_of_gt greater]

theorem compare_beq_lt
    (a b : β) :
    (compare a b == .lt) = decide (a < b) := by
  rcases lt_trichotomy a b with less | same | greater
  · simp [compare_lt_iff_lt.mpr less, less]
  · simp [same]
  · simp [compare_gt_iff_gt.mpr greater, not_lt.mpr greater.le]

/-- Comparing two pairs component by component is comparing them lexicographically. -/
theorem then_beq_lt
    (a c : β)
    (b d : γ) :
    ((compare a c).then (compare b d) == .lt) = decide (a < c ∨ a = c ∧ b < d) := by
  rcases lt_trichotomy a c with less | same | greater
  · simp [compare_lt_iff_lt.mpr less, less]
  · subst same
    simp [compare_beq_lt]
  · simp [compare_gt_iff_gt.mpr greater, not_lt.mpr greater.le, ne_of_gt greater]

theorem then_beq_gt
    (a c : β)
    (b d : γ) :
    ((compare a c).then (compare b d) == .gt) = decide (c < a ∨ a = c ∧ d < b) := by
  rcases lt_trichotomy a c with less | same | greater
  · simp [compare_lt_iff_lt.mpr less, not_lt.mpr less.le, ne_of_lt less]
  · subst same
    rcases lt_trichotomy b d with less | same | greater
    · simp [compare_lt_iff_lt.mpr less, not_lt.mpr less.le]
    · simp [same]
    · simp [compare_gt_iff_gt.mpr greater, greater]
  · simp [compare_gt_iff_gt.mpr greater, greater]

theorem then_beq_eq
    (a c : β)
    (b d : γ) :
    ((compare a c).then (compare b d) == .eq) = decide (toLex (a, b) = toLex (c, d)) := by
  rcases lt_trichotomy a c with less | same | greater
  · simp [compare_lt_iff_lt.mpr less, ne_of_lt less]
  · subst same
    simp [compare_beq_eq]
  · simp [compare_gt_iff_gt.mpr greater, ne_of_gt greater]

end Lexicographic

theorem swap_beq_lt
    (o : Ordering) :
    (o.swap == .lt) = (o == .gt) := by
  cases o <;> rfl

theorem swap_beq_eq
    (o : Ordering) :
    (o.swap == .eq) = (o == .eq) := by
  cases o <;> rfl

/-- Of two doubles that are numbers, one is below the other exactly when its rank is. Within one
sign the exponents decide first and then the significands, the other way round when negative. -/
theorem unpacked_lt_eq
    {a b : UnpackedFloat}
    (numberA : a.isNaN = false)
    (numberB : b.isNaN = false) :
    a.lt b = decide (unpackedRank a < unpackedRank b) := by
  cases a with
  | notANumber => simp [UnpackedFloat.isNaN] at numberA
  | infinity s =>
      cases b with
      | notANumber => simp [UnpackedFloat.isNaN] at numberB
      | infinity t => cases s <;> cases t <;> decide
      | zero t => cases s <;> cases t <;> decide
      | finite t significand exponent _ =>
          cases s <;> cases t <;>
            simp [UnpackedFloat.lt, UnpackedFloat.compare, unpackedRank, Prod.Lex.toLex_lt_toLex]
  | zero s =>
      cases b with
      | notANumber => simp [UnpackedFloat.isNaN] at numberB
      | infinity t => cases s <;> cases t <;> decide
      | zero t => cases s <;> cases t <;> decide
      | finite t significand exponent _ =>
          cases s <;> cases t <;>
            simp [UnpackedFloat.lt, UnpackedFloat.compare, unpackedRank, Prod.Lex.toLex_lt_toLex]
  | finite s significand exponent _ =>
      cases b with
      | notANumber => simp [UnpackedFloat.isNaN] at numberB
      | infinity t =>
          cases s <;> cases t <;>
            simp [UnpackedFloat.lt, UnpackedFloat.compare, unpackedRank, Prod.Lex.toLex_lt_toLex]
      | zero t =>
          cases s <;> cases t <;>
            simp [UnpackedFloat.lt, UnpackedFloat.compare, unpackedRank, Prod.Lex.toLex_lt_toLex]
      | finite t significand' exponent' _ =>
          cases s <;> cases t <;>
            simp [UnpackedFloat.lt, UnpackedFloat.compare, unpackedRank, Prod.Lex.toLex_lt_toLex,
              then_beq_lt, then_beq_gt, swap_beq_lt, eq_comm]

/-- Two doubles that are numbers are equal exactly when their ranks are. -/
theorem unpacked_beq_eq
    {a b : UnpackedFloat}
    (numberA : a.isNaN = false)
    (numberB : b.isNaN = false) :
    a.beq b = decide (unpackedRank a = unpackedRank b) := by
  cases a with
  | notANumber => simp [UnpackedFloat.isNaN] at numberA
  | infinity s =>
      cases b with
      | notANumber => simp [UnpackedFloat.isNaN] at numberB
      | infinity t => cases s <;> cases t <;> decide
      | zero t => cases s <;> cases t <;> decide
      | finite t significand exponent _ =>
          cases s <;> cases t <;> simp [UnpackedFloat.beq, UnpackedFloat.compare, unpackedRank]
  | zero s =>
      cases b with
      | notANumber => simp [UnpackedFloat.isNaN] at numberB
      | infinity t => cases s <;> cases t <;> decide
      | zero t => cases s <;> cases t <;> decide
      | finite t significand exponent _ =>
          cases s <;> cases t <;> simp [UnpackedFloat.beq, UnpackedFloat.compare, unpackedRank]
  | finite s significand exponent _ =>
      cases b with
      | notANumber => simp [UnpackedFloat.isNaN] at numberB
      | infinity t =>
          cases s <;> cases t <;> simp [UnpackedFloat.beq, UnpackedFloat.compare, unpackedRank]
      | zero t =>
          cases s <;> cases t <;> simp [UnpackedFloat.beq, UnpackedFloat.compare, unpackedRank]
      | finite t significand' exponent' _ =>
          cases s <;> cases t <;>
            simp [UnpackedFloat.beq, UnpackedFloat.compare, unpackedRank, then_beq_eq,
              swap_beq_eq]

theorem doubleRank_lt_iff
    {x y : Float}
    (numberX : x.isNaN = false)
    (numberY : y.isNaN = false) :
    x < y ↔ doubleRank x < doubleRank y := by
  have unfolded : x < y ↔ x.toModel.unpack.lt y.toModel.unpack = true := by
    show Float.lt x y = true ↔ _
    simp only [Float.lt, decide_eq_true_eq]
    rfl
  rw [unfolded, unpacked_lt_eq numberX numberY, decide_eq_true_eq]
  rfl

theorem doubleRank_beq
    {x y : Float}
    (numberX : x.isNaN = false)
    (numberY : y.isNaN = false) :
    (x == y) = decide (doubleRank x = doubleRank y) :=
  unpacked_beq_eq numberX numberY

/-- Two doubles that are numbers are ordered as their ranks are. -/
theorem Num.order?_float
    {x y : Float}
    (numberX : x.isNaN = false)
    (numberY : y.isNaN = false) :
    Num.order? (.float x) (.float y) = some (compare (doubleRank x) (doubleRank y)) := by
  unfold Num.order?
  rcases lt_trichotomy (doubleRank x) (doubleRank y) with less | same | greater
  · simp [(doubleRank_lt_iff numberX numberY).mpr less, compare_lt_iff_lt.mpr less]
  · simp [(doubleRank_lt_iff numberX numberY).not.mpr (not_lt.mpr same.ge),
      doubleRank_beq numberX numberY, same]
  · simp [(doubleRank_lt_iff numberX numberY).not.mpr (not_lt.mpr greater.le),
      (doubleRank_lt_iff numberY numberX).mpr greater, doubleRank_beq numberX numberY,
      ne_of_gt greater, compare_gt_iff_gt.mpr greater]

/-! ## Rank keys -/

/-- A rank key that ranking compares consistently: its score is a number, and its
interchanges and start are integers. -/
structure RankKey.Comparable (k : RankKey) : Prop where
  score : ∃ x, k.score = .float x ∧ x.isNaN = false
  transfers : ∃ n, k.transfers = .int n
  start : ∃ t, k.start = .int t

/-- The rank of a value as a score: a double's own rank, and the bottom for any other. -/
def Value.scoreRank : Value → Int ×ₗ Int ×ₗ Int
  | .float x => doubleRank x
  | _ => toLex (0, toLex (0, 0))

/-- The integer a value holds, and 0 for any other. -/
def Value.intRank : Value → Int
  | .int n => n
  | _ => 0

/-- Where a key stands among keys: score, then interchanges, then start. -/
def RankKey.rank
    (k : RankKey) :
    (Int ×ₗ Int ×ₗ Int) ×ₗ Int ×ₗ Int :=
  toLex (k.score.scoreRank, toLex (k.transfers.intRank, k.start.intRank))

/-- Whether one key ranks strictly before another. -/
def RankKey.before
    (a b : RankKey) :
    Bool := decide (a.rank < b.rank)

theorem Value.equal_float
    {x y : Float}
    (numberX : x.isNaN = false)
    (numberY : y.isNaN = false) :
    Value.equal (.float x) (.float y) = decide (doubleRank x = doubleRank y) := by
  simp [Value.equal, Value.num?, Num.order?_float numberX numberY, compare_beq_eq]

theorem Value.compareWith_float
    {x y : Float}
    (numberX : x.isNaN = false)
    (numberY : y.isNaN = false) :
    Value.compareWith .lt (.float x) (.float y) = .ok (decide (doubleRank x < doubleRank y)) := by
  simp [Value.compareWith, Value.num?, Num.order?_float numberX numberY, Value.Comparison.holds,
    compare_beq_lt]

theorem Value.equal_int
    (a b : Int) :
    Value.equal (.int a) (.int b) = decide (a = b) := by
  simp [Value.equal, Value.num?, Num.order?, compare_beq_eq]

theorem Value.compareWith_int
    (a b : Int) :
    Value.compareWith .lt (.int a) (.int b) = .ok (decide (a < b)) := by
  simp [Value.compareWith, Value.num?, Num.order?, Value.Comparison.holds, compare_beq_lt]

theorem Value.compareWith_tuple
    (op : Value.Comparison)
    (xs ys : List Value) :
    Value.compareWith op (.tuple xs) (.tuple ys) = Value.compareItems op xs ys := by
  simp [Value.compareWith]

theorem Value.compareItems_cons
    (op : Value.Comparison)
    (x y : Value)
    (xs ys : List Value) :
    Value.compareItems op (x :: xs) (y :: ys) =
      if Value.equal x y then Value.compareItems op xs ys else Value.compareWith op x y := by
  simp [Value.compareItems]

theorem Value.compareItems_nil
    (op : Value.Comparison) :
    Value.compareItems op [] [] = .ok (op.holds .eq) := by
  simp [Value.compareItems]

/-- Two comparable keys compare as their ranks do. The first unequal component decides, as in the
lexicographic order of the ranks. -/
theorem RankKey.lt_eq_rank
    {a b : RankKey}
    (comparableA : a.Comparable)
    (comparableB : b.Comparable) :
    RankKey.lt a b = .ok (a.before b) := by
  obtain ⟨⟨x, scoreA, numberX⟩, ⟨n, transfersA⟩, ⟨t, startA⟩⟩ := comparableA
  obtain ⟨⟨y, scoreB, numberY⟩, ⟨m, transfersB⟩, ⟨u, startB⟩⟩ := comparableB
  obtain ⟨_, _, _⟩ := a
  obtain ⟨_, _, _⟩ := b
  simp only at scoreA transfersA startA scoreB transfersB startB
  subst scoreA transfersA startA scoreB transfersB startB
  simp only [RankKey.lt, Value.compareWith_tuple, Value.compareItems_cons, Value.compareItems_nil,
    Value.equal_float numberX numberY, Value.equal_int, Value.compareWith_float numberX numberY,
    Value.compareWith_int, RankKey.before, RankKey.rank, Value.scoreRank, Value.intRank,
    Prod.Lex.toLex_lt_toLex]
  by_cases sameScore : doubleRank x = doubleRank y <;> by_cases sameTransfers : n = m <;>
    by_cases sameStart : t = u <;>
    simp [sameScore, sameTransfers, sameStart, Value.Comparison.holds]

/-- A comparable key does not compare as strictly less than one it ranks at least as. -/
theorem RankKey.lt_eq_false
    {a b : RankKey}
    (comparableA : a.Comparable)
    (comparableB : b.Comparable)
    (atMost : b.rank ≤ a.rank) :
    RankKey.lt a b = .ok false := by
  rw [RankKey.lt_eq_rank comparableA comparableB, RankKey.before, decide_eq_false (not_lt.mpr atMost)]

/-! ## Ranking -/

/-- Comparing by a rank in a linear order is a strict weak order. An item that does not rank below
one below a third ranks below the third. -/
theorem NaturalMerge.WeakOrderOn.of_rank
    {α β : Type}
    [LinearOrder β]
    {before : α → α → Bool}
    {pool : α → Prop}
    (rank : α → β)
    (ranks : ∀ x y, pool x → pool y → (before x y = true ↔ rank x < rank y)) :
    NaturalMerge.WeakOrderOn before pool where
  irrefl {x} inX := by
    cases ahead : before x x
    · rfl
    · exact absurd ((ranks x x inX inX).mp ahead) (lt_irrefl _)
  trans {x y z} inX inY inZ first second :=
    (ranks x z inX inZ).mpr
      (lt_trans ((ranks x y inX inY).mp first) ((ranks y z inY inZ).mp second))
  split {x y z} inX inY inZ ahead := by
    have below := (ranks x z inX inZ).mp ahead
    rcases lt_or_ge (rank x) (rank y) with above | atMost
    · exact Or.inl ((ranks x y inX inY).mpr above)
    · exact Or.inr ((ranks y z inY inZ).mpr (lt_of_le_of_lt atMost below))

section Ranking

variable {α : Type} [Inhabited α] {key : α → RankKey}

omit [Inhabited α] in
/-- Keys compared by rank are a strict weak order. -/
theorem RankKey.weakOrder :
    NaturalMerge.WeakOrderOn (fun x y => (key x).before (key y)) fun x => (key x).Comparable :=
  NaturalMerge.WeakOrderOn.of_rank (fun x => (key x).rank) fun _ _ _ _ => decide_eq_true_iff

/-- Ranking items whose keys are comparable sorts them by rank, stably: items of equal rank
keep their input order. -/
theorem rankBy_sorted
    {items ranked : List α}
    (comparable : ∀ x ∈ items, (key x).Comparable)
    (run : rankBy key items = .ok ranked) :
    NaturalMerge.Sorted (fun x y => (key x).before (key y)) ranked ∧
      NaturalMerge.KeepsTies (fun x y => (key x).before (key y)) (fun x => (key x).Comparable)
        ranked items ∧
      ranked.Perm items := by
  unfold rankBy at run
  cases sorted : NaturalMerge.sortBy (fun a b => RankKey.lt (key a) (key b)) items.toArray with
  | error fault =>
      rw [sorted] at run
      cases run
  | ok arranged =>
      rw [sorted] at run
      cases run
      have order : NaturalMerge.WeakOrderOn (fun x y => (key x).before (key y))
          fun x => (key x).Comparable := RankKey.weakOrder
      have decides : NaturalMerge.Decides (fun a b => RankKey.lt (key a) (key b))
          (fun x y => (key x).before (key y)) fun x => (key x).Comparable :=
        fun x y comparableX comparableY => RankKey.lt_eq_rank comparableX comparableY
      have stable := NaturalMerge.sortBy_stable order decides
        (fun x member => comparable x (by simpa using member)) sorted
      exact ⟨stable.1, stable.2, by simpa using NaturalMerge.sortBy_perm _ sorted⟩

end Ranking

end CorridorRank
