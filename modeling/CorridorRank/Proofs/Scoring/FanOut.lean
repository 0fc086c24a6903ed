import CorridorRank.Scoring.Batch
import CorridorRank.Proofs.Traversal

/-!
# Pooled runs return what inline runs return

The tasks of a batch read nothing but their own item. So whatever order a pool's workers
finish them in, every slot the pool has filled holds the result of the task submitted at
that position: `Pool.Faithful` holds before any task finishes, and each task that finishes
keeps it. The caller takes the slots in submission order, waiting for the tasks still
running, and so gets the inline traversal (`Pool.map_eq_mapM`); in particular the fault it
meets is that of the first failing task in submission order, even when a later task failed
first in time (`Pool.map_eq_error_iff`).

A batch therefore scores the same whichever path its fan-out takes and whatever order its
pooled tasks finish in (`scoreBatchOn_eq_scoreBatch`). The worker count only chooses the
path and is checked by validation, so any positive integer count gives the result of the
inline run (`scoreBatch_workers`).
-/

namespace CorridorRank

namespace Pool

variable {α β ε : Type}

/-- Every filled slot holds the result of the task submitted at its position. -/
def Faithful
    (task : α → Except ε β)
    (items : List α)
    (slots : List (Option (Except ε β))) :
    Prop :=
  List.Forall₂ (fun item slot => ∀ result ∈ slot, result = task item) items slots

/-- Before any task finishes, every slot is empty. -/
theorem faithful_unfinished
    (task : α → Except ε β)
    (items : List α) :
    Faithful task items (items.map fun _ => none) := by
  unfold Faithful
  rw [List.forall₂_map_right_iff]
  exact List.forall₂_same.mpr fun _ _ _ stored => by simp at stored

/-- A task that finishes stores its own result in its own slot. -/
theorem Faithful.finish
    {task : α → Except ε β}
    {items : List α}
    {slots : List (Option (Except ε β))}
    (faithful : Faithful task items slots)
    (position : Nat) :
    Faithful task items (slots.set position ((items[position]?).map task)) := by
  induction faithful generalizing position with
  | nil =>
      exact List.Forall₂.nil
  | @cons item slot items slots holds rest ih =>
      cases position with
      | zero =>
          refine List.Forall₂.cons ?_ rest
          intro result stored
          simpa using stored.symm
      | succ position =>
          exact List.Forall₂.cons holds (ih position)

/-- However the tasks finish, the slots stay faithful. The tasks finish one at a time, in the order
they finished. -/
theorem faithful_slots
    (task : α → Except ε β)
    (items : List α)
    (order : List Nat) :
    Faithful task items (slots task items order) := by
  unfold slots
  suffices keeps : ∀ start, Faithful task items start →
      Faithful task items
        (order.foldl (fun slots i => slots.set i ((items[i]?).map task)) start) from
    keeps _ (faithful_unfinished task items)
  induction order with
  | nil =>
      exact fun _ faithful => faithful
  | cons position rest ih =>
      exact fun start faithful => ih _ (faithful.finish position)

/-- Taking faithful slots in submission order, waiting for the empty ones, is the inline
run. -/
theorem take_faithful
    {task : α → Except ε β}
    {items : List α}
    {slots : List (Option (Except ε β))}
    (faithful : Faithful task items slots) :
    (items.zip slots).mapM (fun (item, slot) => slot.getD (task item)) =
      items.mapM task := by
  induction faithful with
  | nil => rfl
  | @cons item slot items slots holds rest ih =>
      have taken : slot.getD (task item) = task item := by
        cases slot with
        | none => rfl
        | some result => exact holds result rfl
      simp only [List.zip_cons_cons, List.mapM_cons, taken, ih]

/-- A pool hands back what the inline run returns, whatever order its tasks finished in. -/
theorem map_eq_mapM
    (task : α → Except ε β)
    (items : List α)
    (order : List Nat) :
    map task items order = items.mapM task :=
  take_faithful (faithful_slots task items order)

/-- The fault a pool raises is that of the first failing task in submission order, every
earlier task having succeeded, whatever order the tasks finished in. -/
theorem map_eq_error_iff
    (task : α → Except ε β)
    (items : List α)
    (order : List Nat)
    (fault : ε) :
    map task items order = .error fault ↔
      ∃ before item after, items = before ++ item :: after ∧
        (∀ earlier ∈ before, ∃ result, task earlier = .ok result) ∧
        task item = .error fault := by
  rw [map_eq_mapM]
  exact Traversal.mapM_eq_error_iff task items fault

end Pool

/-! ## The worker count -/

namespace Policy

/-- One floor check passes exactly when its field compares with the floor and is not below
it. -/
theorem atLeast_eq_ok_iff
    (name : String)
    (v floor : Value)
    (floorText : String) :
    atLeast name v floor floorText = .ok () ↔ Value.lt v floor = .ok false := by
  unfold atLeast
  cases compared : Value.lt v floor with
  | error fault => simp [bind, Except.bind]
  | ok below => cases below <;> simp [bind, Except.bind, pure, Except.pure, throw, throwThe,
      MonadExceptOf.throw]

/-- Validation accepts a policy exactly when none of its four numeric fields is below its
floor: the detour weight 0, the threshold 1.0, the penalty per interchange 0 and the number of
workers 1. -/
theorem validate_eq_ok_iff
    (p : Policy) :
    p.validate = .ok () ↔
      Value.lt p.detourWeight (.int 0) = .ok false ∧
      Value.lt p.detourThreshold (.float 1.0) = .ok false ∧
      Value.lt p.perTransferPenalty (.int 0) = .ok false ∧
      Value.lt p.maxWorkers (.int 1) = .ok false := by
  unfold validate
  simp only [Traversal.bind_eq_ok]
  constructor
  · rintro ⟨⟨⟩, weight, ⟨⟩, threshold, ⟨⟩, penalty, workers⟩
    exact ⟨(atLeast_eq_ok_iff ..).mp weight, (atLeast_eq_ok_iff ..).mp threshold,
      (atLeast_eq_ok_iff ..).mp penalty, (atLeast_eq_ok_iff ..).mp workers⟩
  · rintro ⟨weight, threshold, penalty, workers⟩
    exact ⟨(), (atLeast_eq_ok_iff ..).mpr weight, (), (atLeast_eq_ok_iff ..).mpr threshold, (),
      (atLeast_eq_ok_iff ..).mpr penalty, (atLeast_eq_ok_iff ..).mpr workers⟩

end Policy

/-- The denominator of a double's magnitude is positive. -/
theorem Binary64.magnitude_den_pos
    (sig : Nat)
    (exp : Int) :
    0 < (Binary64.magnitude sig exp).2 := by
  unfold Binary64.magnitude
  split
  · exact Nat.one_pos
  · exact Nat.two_pow_pos _

/-- A value that compares as not below one is a number. -/
theorem Value.num?_of_not_lt_one
    {v : Value}
    (notBelow : Value.lt v (.int 1) = .ok false) :
    ∃ x, v.num? = some x := by
  cases v <;> simp_all [Value.lt, Value.compareWith, Value.num?]

/-- A value that compares as not below one compares as not at most zero: a double that is
not a number compares with nothing, an infinity below one is the negative one, and a finite
double at least one is positive. At least one means the signed numerator reaches the denominator. -/
theorem Value.compareWith_le_zero_of_not_lt_one
    {v : Value}
    (notBelow : Value.lt v (.int 1) = .ok false) :
    Value.compareWith .le v (.int 0) = .ok false := by
  cases v with
  | bool b =>
      cases b with
      | false =>
          simp +decide [Value.lt, Value.compareWith, Value.num?, Num.order?,
            Value.Comparison.holds] at notBelow
      | true => rfl
  | int n =>
      simp only [Value.lt, Value.compareWith, Value.num?, Num.order?, Option.map_some,
        Option.getD_some, Except.ok.injEq, Value.Comparison.holds, beq_eq_false_iff_ne,
        ne_eq, Int.compare_eq_lt] at notBelow ⊢
      have positive : compare n 0 = .gt := Int.compare_eq_gt.mpr (by omega)
      simp [positive]
  | float x =>
      simp only [Value.lt, Value.compareWith, Value.num?, Num.order?] at notBelow ⊢
      unfold Binary64.compareInt at notBelow ⊢
      generalize Binary64.shape x = shaped at notBelow ⊢
      cases shaped with
      | nan => rfl
      | infinite neg => cases neg <;> simp_all [Value.Comparison.holds]
      | finite neg sig exp =>
          have denPositive := Binary64.magnitude_den_pos sig exp
          dsimp only at notBelow ⊢
          generalize (if neg then -((Binary64.magnitude sig exp).1 : Int)
            else (Binary64.magnitude sig exp).1) = signed at notBelow ⊢
          generalize (Binary64.magnitude sig exp).2 = den at notBelow denPositive ⊢
          simp only [Int.one_mul, Int.zero_mul] at notBelow ⊢
          have reaches : (den : Int) ≤ signed := by
            cases compared : compare (den : Int) signed with
            | lt => have := Int.compare_eq_lt.mp compared; omega
            | eq => have := Int.compare_eq_eq.mp compared; omega
            | gt => simp [compared, Value.Comparison.holds] at notBelow
          have positive : compare 0 signed = .lt := Int.compare_eq_lt.mpr (by omega)
          simp [positive, Value.Comparison.holds]
  | _ => simp [Value.lt, Value.compareWith, Value.num?] at notBelow

/-- Under a validated policy, a pool for one task or more is started with the smaller of the
policy's worker count and the number of tasks, and accepts it. -/
theorem Pool.size_of_validate
    {p : Policy}
    (accepted : p.validate = .ok ())
    {tasks : Nat}
    (some : 0 < tasks) :
    ∃ fewer : Bool, Value.lt (.int tasks) p.maxWorkers = .ok fewer ∧
      Pool.size p tasks = .ok (if fewer then .int tasks else p.maxWorkers) ∧
      Pool.start (if fewer then .int tasks else p.maxWorkers) = .ok () := by
  obtain ⟨-, -, -, notBelow⟩ := p.validate_eq_ok_iff.mp accepted
  obtain ⟨x, numeric⟩ := Value.num?_of_not_lt_one notBelow
  have compared : ∃ fewer, Value.lt (.int tasks) p.maxWorkers = .ok fewer := by
    cases workers : p.maxWorkers <;> simp_all [Value.lt, Value.compareWith, Value.num?]
  obtain ⟨fewer, compares⟩ := compared
  refine ⟨fewer, compares, ?sized, ?started⟩
  case sized =>
    simp only [Pool.size, Value.min2, bind, Except.bind]
    rw [show Value.compareWith .lt (.int tasks) p.maxWorkers = .ok fewer from compares]
    cases fewer <;> rfl
  case started =>
    have notAtMost : Value.compareWith .le (if fewer then .int tasks else p.maxWorkers)
        (.int 0) = .ok false := by
      cases fewer with
      | true =>
          simp [Value.compareWith, Value.num?, Num.order?, Value.Comparison.holds,
            Int.compare_eq_gt.mpr (Int.natCast_pos.mpr some)]
      | false => exact Value.compareWith_le_zero_of_not_lt_one notBelow
    simp only [Pool.start, bind, Except.bind, notAtMost]
    rfl

/-- Under a validated policy either path of the fan-out over some tasks is the inline
traversal. -/
theorem fanOut_eq_mapM
    {α β : Type}
    {p : Policy}
    (accepted : p.validate = .ok ())
    (order : List Nat)
    (task : α → Except Fault β)
    {items : List α}
    (some : items ≠ []) :
    fanOut p order task items = items.mapM task := by
  unfold fanOut
  split
  · rfl
  · obtain ⟨fewer, -, sized, started⟩ :=
      Pool.size_of_validate accepted (List.length_pos_iff.mpr some)
    simp only [bind, Except.bind, sized, started]
    exact Pool.map_eq_mapM task items order

/-- A batch is its inline run, whatever order its pooled tasks finish in: policy, endpoints,
each item in order, then the ranking. -/
theorem scoreBatchOn_eq_inline
    (order : List Nat)
    (items : List BatchItem)
    (origin destination : Value)
    (p : Policy)
    (corridor : Option Value) :
    scoreBatchOn order items origin destination p corridor = (do
      p.validate
      let o ← Coordinates.ofValue origin
      let d ← Coordinates.ofValue destination
      let outcomes ← items.zipIdx.mapM fun (item, i) =>
        scoreOne o.toValue d.toValue corridor p i item
      let ranked ← rankRoutes (Outcome.routes outcomes)
      pure ⟨ranked, Outcome.failures outcomes⟩) := by
  unfold scoreBatchOn
  cases accepted : p.validate with
  | error fault => rfl
  | ok u =>
      simp only [bind, Except.bind]
      cases Coordinates.ofValue origin with
      | error fault => rfl
      | ok o =>
          cases Coordinates.ofValue destination with
          | error fault => rfl
          | ok d =>
              cases items with
              | nil => rfl
              | cons item rest =>
                  simp only [List.isEmpty_cons, Bool.false_eq_true, if_false]
                  rw [fanOut_eq_mapM accepted order _ (by simp)]

/-- The order in which pooled tasks finish never changes a batch's result. -/
theorem scoreBatchOn_eq_scoreBatch
    (order : List Nat)
    (items : List BatchItem)
    (origin destination : Value)
    (p : Policy)
    (corridor : Option Value) :
    scoreBatchOn order items origin destination p corridor =
      scoreBatch items origin destination p corridor := by
  rw [scoreBatch, scoreBatchOn_eq_inline, scoreBatchOn_eq_inline]

/-- A batch is the inline run: policy, endpoints, each item in order, then the ranking. -/
theorem scoreBatch_eq_inline
    (items : List BatchItem)
    (origin destination : Value)
    (p : Policy)
    (corridor : Option Value) :
    scoreBatch items origin destination p corridor = (do
      p.validate
      let o ← Coordinates.ofValue origin
      let d ← Coordinates.ofValue destination
      let outcomes ← items.zipIdx.mapM fun (item, i) =>
        scoreOne o.toValue d.toValue corridor p i item
      let ranked ← rankRoutes (Outcome.routes outcomes)
      pure ⟨ranked, Outcome.failures outcomes⟩) :=
  scoreBatchOn_eq_inline _ items origin destination p corridor

/-- Integers are ordered by their values. -/
theorem Value.lt_int
    (a b : Int) :
    Value.lt (.int a) (.int b) = .ok (decide (a < b)) := by
  have holds : (compare a b == Ordering.lt) = decide (a < b) := by
    rw [Bool.eq_iff_iff, beq_iff_eq, decide_eq_true_iff, Int.compare_eq_lt]
  simp [Value.lt, Value.compareWith, Value.num?, Num.order?, Value.Comparison.holds, holds]

/-- A positive integer worker count passes its check, so validation does not see it. -/
theorem Policy.validate_workers
    (p : Policy)
    (workers : Nat)
    (positive : 0 < workers) :
    ({ p with maxWorkers := .int workers } : Policy).validate =
      ({ p with maxWorkers := .int 1 } : Policy).validate := by
  have passes : Value.lt (.int workers) (.int 1) = .ok false := by
    rw [Value.lt_int]
    simp only [Except.ok.injEq, decide_eq_false_iff_not]
    omega
  simp only [Policy.validate, Policy.atLeast, passes, Value.lt_int]
  rfl

/-- Scoring reads every field of the policy but the worker count. -/
theorem scoreOne_workers
    (origin destination : Value)
    (corridor : Option Value)
    (p : Policy)
    (workers : Value)
    (index : Nat)
    (item : BatchItem) :
    scoreOne origin destination corridor { p with maxWorkers := workers } index item =
      scoreOne origin destination corridor p index item := rfl

/-- With a positive integer worker count a batch returns what the one-worker run returns. -/
theorem scoreBatch_workers
    (items : List BatchItem)
    (origin destination : Value)
    (p : Policy)
    (corridor : Option Value)
    (workers : Nat)
    (positive : 0 < workers) :
    scoreBatch items origin destination { p with maxWorkers := .int workers } corridor =
      scoreBatch items origin destination { p with maxWorkers := .int 1 } corridor := by
  rw [scoreBatch_eq_inline, scoreBatch_eq_inline, Policy.validate_workers p workers positive]
  simp only [scoreOne_workers]

end CorridorRank
