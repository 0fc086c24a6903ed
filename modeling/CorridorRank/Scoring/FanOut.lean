import CorridorRank.Scoring.Policy

/-!
# Fanning out the tasks of a batch

A batch scores its items independently, one task per item. With one worker allowed, or
with one task, the tasks run inline, one after another, and the first fault that escapes a
task stops the run there. Otherwise they run on a pool: the pool is started with the smaller
of the policy's worker count and the number of tasks (`Pool.size`), which must be positive
(`Pool.start`); every task is submitted at once, the workers finish them in some order, and
the caller takes the results back in submission order, waiting for a task that is still
running; the first failed result it takes raises its fault.

A pool run is described by the positions of the tasks that had finished, in the order they
finished, when the caller began to take results. `Pool.slots` is what those tasks left
behind and `Pool.map` what the caller takes.

The pool's threads themselves are not modelled, and so neither is a pool that starts none:
a worker count that is not a number is no smaller than any number of tasks and passes the
start check, but a pool given it starts no thread and its caller waits for ever, where
`fanOut` returns the results the tasks would have given.
-/

namespace CorridorRank

namespace Pool

variable {α β ε : Type}

/-- The result slots once the tasks at the positions in `order` have finished, in that
order: a finished task's result at its submission position, `none` where a task is still
running. -/
def slots
    (task : α → Except ε β)
    (xs : List α)
    (order : List Nat) :
    List (Option (Except ε β)) :=
  order.foldl (fun slots i => slots.set i ((xs[i]?).map task)) (xs.map fun _ => none)

/-- The results as the caller takes them, in submission order: the stored result of a
finished task, or the result a running task finishes with; the first failed result raises
its fault. -/
def map
    (task : α → Except ε β)
    (xs : List α)
    (order : List Nat) :
    Except ε (List β) :=
  (xs.zip (slots task xs order)).mapM fun (x, slot) => slot.getD (task x)

/-- The worker count a pool for `tasks` tasks is started with: the policy's count, unless the
number of tasks is smaller. -/
def size
    (p : Policy)
    (tasks : Nat) :
    Except Fault Value :=
  Value.min2 p.maxWorkers (.int tasks)

/-- Starting a pool refuses a worker count of zero or less. -/
def start
    (workers : Value) :
    Except Fault Unit := do
  if ← Value.compareWith .le workers (.int 0) then
    throw (.valueError "max_workers must be greater than 0")

end Pool

/-- Runs the tasks of a batch: inline when the policy allows one worker or there is one
task, otherwise on a pool whose tasks finished in `order`. -/
def fanOut
    {α β : Type}
    (p : Policy)
    (order : List Nat)
    (task : α → Except Fault β)
    (xs : List α) :
    Except Fault (List β) :=
  if Value.equal p.maxWorkers (.int 1) || xs.length == 1 then xs.mapM task
  else do
    Pool.start (← Pool.size p xs.length)
    Pool.map task xs order

end CorridorRank
