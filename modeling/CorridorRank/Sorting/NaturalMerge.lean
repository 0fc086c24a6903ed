/-!
# Sorting by merging natural runs

`NaturalMerge.sortBy` sorts an array by a strict comparison `lt` that may fail, as an
adaptive merge sort does:

* the array is cut, left to right, into runs: a run is the longest stretch that does not
  descend, or that strictly descends (it is then reversed in place); a run shorter than
  `minRun` of the array's size is extended to that length, or to the end, by binary
  insertion;
* the runs are kept on a stack; before a new run is pushed, the run on top is given a power,
  the depth of the boundary between the two runs in the halving tree over the array
  positions, and the runs below of greater power are merged into it first;
* two adjacent runs merge by first skipping what is already in place at either end (found by
  galloping), then moving one item at a time from the run whose item comes first, switching
  to galloping once one run wins `minGallop` times in a row; the threshold adapts to how
  well galloping pays, and is kept from one merge to the next;
* at the end the stack is merged down to one run, the smaller neighbour of the next-to-top
  run first.

Every comparison happens at a fixed point of this procedure. So a comparison that is not a
strict weak order (one involving not-a-number, say) still gives one definite arrangement,
and a failing comparison stops the sort at one definite point. For a strict weak order the
result is the stable sort.

Each loop is written with fuel: the number of items it may still move or the stack height,
which bounds its steps, so the fuel never runs out first.
-/

namespace CorridorRank.NaturalMerge

variable {α ε : Type}

/-- The least length of a run: `n` halved until it is below 64, plus one if any halving
dropped a set bit (`dropped` says whether one already did). -/
def minRunFrom
    (n : Nat)
    (dropped : Bool) :
    Nat :=
  if n ≥ 64 then minRunFrom (n / 2) (dropped || n % 2 == 1)
  else n + (if dropped then 1 else 0)
termination_by n
decreasing_by omega

/-- The least length of a run in an array of `n` items. -/
def minRun
    (n : Nat) :
    Nat := minRunFrom n false

/-- The `len` items from position `start`. -/
def segment
    (xs : Array α)
    (start len : Nat) :
    Array α :=
  xs.extract start (start + len)

/-- Writes `ys` over the items from position `start` on. -/
def writeAt
    (xs : Array α)
    (start : Nat)
    (ys : List α) :
    Array α :=
  ys.zipIdx.foldl (fun acc (y, i) => acc.set! (start + i) y) xs

/-- Follows a run from position `i` up to `hi`: while `descending`, each item must come
before the one preceding it; otherwise none may. Returns where the run ends. -/
def runEnd
    [Inhabited α]
    (lt : α → α → Except ε Bool)
    (xs : Array α)
    (descending : Bool)
    (hi i : Nat) :
    Except ε Nat :=
  if i < hi then do
    if (← lt (xs.getD i default) (xs.getD (i - 1) default)) == descending then
      runEnd lt xs descending hi (i + 1)
    else pure i
  else pure i
termination_by hi - i

/-- The run that starts at `lo` and ends at `hi` at the latest: its length, and whether it
strictly descends. -/
def countRun
    [Inhabited α]
    (lt : α → α → Except ε Bool)
    (xs : Array α)
    (lo hi : Nat) :
    Except ε (Nat × Bool) :=
  if lo + 1 ≥ hi then pure (1, false)
  else do
    let descending ← lt (xs.getD (lo + 1) default) (xs.getD lo default)
    let e ← runEnd lt xs descending hi (lo + 2)
    pure (e - lo, descending)

/-- The run of `len` items at `lo`, reversed in place. -/
def reverseRun
    (xs : Array α)
    (lo len : Nat) :
    Array α :=
  writeAt xs lo (segment xs lo len).toList.reverse

/-- Where `pivot` goes among the sorted positions `[l, r)`: after every item it does not
come before, found by halving. -/
def insertionPoint
    [Inhabited α]
    (lt : α → α → Except ε Bool)
    (xs : Array α)
    (pivot : α)
    (l r : Nat) :
    Except ε Nat :=
  if l < r then do
    let p := l + (r - l) / 2
    if ← lt pivot (xs.getD p default) then insertionPoint lt xs pivot l p
    else insertionPoint lt xs pivot (p + 1) r
  else pure l
termination_by r - l

/-- Inserts the items at positions `start, …, hi - 1`, one by one, into the sorted stretch
that begins at `lo` and ends before `start`. -/
def binaryInsert
    [Inhabited α]
    (lt : α → α → Except ε Bool)
    (xs : Array α)
    (lo hi start : Nat) :
    Except ε (Array α) :=
  if start < hi then do
    let pivot := xs.getD start default
    let l ← insertionPoint lt xs pivot lo start
    binaryInsert lt (writeAt xs l (pivot :: (segment xs l (start - l)).toList)) lo hi (start + 1)
  else pure xs
termination_by hi - start

/-- Moves an offset from `ofs` to `2 ofs + 1` while it is below `maxofs` and `further`
holds of it; returns the last offset that held and the first that did not, cut at
`maxofs`. -/
def expand
    (further : Nat → Except ε Bool)
    (maxofs lastofs ofs : Nat) :
    Except ε (Nat × Nat) :=
  if ofs < maxofs then do
    if ← further ofs then expand further maxofs ofs (2 * ofs + 1)
    else pure (lastofs, ofs)
  else pure (lastofs, maxofs)
termination_by maxofs - ofs

/-- The first position in `[lo, hi)` for which `goRight` fails, found by halving; `hi` when
it holds throughout. -/
def bisect
    (goRight : Nat → Except ε Bool)
    (lo hi : Nat) :
    Except ε Nat :=
  if lo < hi then do
    let m := lo + (hi - lo) / 2
    if ← goRight m then bisect goRight (m + 1) hi else bisect goRight lo m
  else pure hi
termination_by hi - lo

/-- In the sorted run `read 0, …, read (n - 1)`, the position before which every item comes
before `key`: galloping from `hint`, then halving. -/
def gallopLeft
    (lt : α → α → Except ε Bool)
    (key : α)
    (read : Nat → α)
    (n hint : Nat) :
    Except ε Nat := do
  if ← lt (read hint) key then
    let (lastofs, ofs) ← expand (fun o => lt (read (hint + o)) key) (n - hint) 0 1
    bisect (fun m => lt (read m) key) (hint + lastofs + 1) (hint + ofs)
  else
    let (lastofs, ofs) ← expand (fun o => do return !(← lt (read (hint - o)) key)) (hint + 1) 0 1
    bisect (fun m => lt (read m) key) (hint + 1 - ofs) (hint - lastofs)

/-- In the sorted run `read 0, …, read (n - 1)`, the position before which no item comes after
`key`: galloping from `hint`, then halving. -/
def gallopRight
    (lt : α → α → Except ε Bool)
    (key : α)
    (read : Nat → α)
    (n hint : Nat) :
    Except ε Nat := do
  if ← lt key (read hint) then
    let (lastofs, ofs) ← expand (fun o => lt key (read (hint - o))) (hint + 1) 0 1
    bisect (fun m => do return !(← lt key (read m))) (hint + 1 - ofs) (hint - lastofs)
  else
    let (lastofs, ofs) ← expand (fun o => do return !(← lt key (read (hint + o)))) (n - hint) 0 1
    bisect (fun m => do return !(← lt key (read m))) (hint + lastofs + 1) (hint + ofs)

/-- The number of wins in a row that keeps a merge galloping. -/
def gallopWins : Nat := 7

/-- How a merge moves items: one at a time, counting the wins in a row of each run, or by
galloping. -/
inductive Phase where
  | single (awins bwins : Nat)
  | gallop

/-- A merge from the low end: the runs `a` and `b` are read forward, `a` from `ia` (`na`
items left) and `b` from `ib` (`nb` left); `out` holds the merged items, latest first. -/
structure Low (α : Type) where
  ia : Nat
  na : Nat
  ib : Nat
  nb : Nat
  out : List α
  minGallop : Nat

/-- The merged run once one side is used up: what is left of `a`, then of `b`. -/
def Low.done
    (a b : Array α)
    (s : Low α) :
    List α :=
  s.out.reverse ++ (segment a s.ia s.na).toList ++ (segment b s.ib s.nb).toList

/-- The merged run when one item of `a` is left: it goes after the rest of `b`. -/
def Low.lastOfA
    [Inhabited α]
    (a b : Array α)
    (s : Low α) :
    List α :=
  s.out.reverse ++ (segment b s.ib s.nb).toList ++ [a.getD s.ia default]

/-- Merges from the low end; each step moves at least one item. -/
def mergeLow
    [Inhabited α]
    (lt : α → α → Except ε Bool)
    (a b : Array α) :
    Nat → Low α → Phase → Except ε (List α × Nat)
  | 0, s, _ => pure (s.done a b, s.minGallop)
  | fuel + 1, s, .single awins bwins => do
    let x := b.getD s.ib default
    let y := a.getD s.ia default
    if ← lt x y then
      let s := { s with out := x :: s.out, ib := s.ib + 1, nb := s.nb - 1 }
      if s.nb == 0 then pure (s.done a b, s.minGallop)
      else if bwins + 1 ≥ s.minGallop then
        mergeLow lt a b fuel { s with minGallop := s.minGallop + 1 } .gallop
      else mergeLow lt a b fuel s (.single 0 (bwins + 1))
    else
      let s := { s with out := y :: s.out, ia := s.ia + 1, na := s.na - 1 }
      if s.na == 1 then pure (s.lastOfA a b, s.minGallop)
      else if awins + 1 ≥ s.minGallop then
        mergeLow lt a b fuel { s with minGallop := s.minGallop + 1 } .gallop
      else mergeLow lt a b fuel s (.single (awins + 1) 0)
  | fuel + 1, s, .gallop => do
    let s := { s with minGallop := if s.minGallop > 1 then s.minGallop - 1 else s.minGallop }
    let k ← gallopRight lt (b.getD s.ib default) (fun i => a.getD (s.ia + i) default) s.na 0
    let awins := k
    let s := { s with out := (segment a s.ia k).toList.reverse ++ s.out, ia := s.ia + k,
                      na := s.na - k }
    if k > 0 && s.na == 1 then return (s.lastOfA a b, s.minGallop)
    if k > 0 && s.na == 0 then return (s.done a b, s.minGallop)
    let s := { s with out := b.getD s.ib default :: s.out, ib := s.ib + 1, nb := s.nb - 1 }
    if s.nb == 0 then return (s.done a b, s.minGallop)
    let k ← gallopLeft lt (a.getD s.ia default) (fun i => b.getD (s.ib + i) default) s.nb 0
    let bwins := k
    let s := { s with out := (segment b s.ib k).toList.reverse ++ s.out, ib := s.ib + k,
                      nb := s.nb - k }
    if k > 0 && s.nb == 0 then return (s.done a b, s.minGallop)
    let s := { s with out := a.getD s.ia default :: s.out, ia := s.ia + 1, na := s.na - 1 }
    if s.na == 1 then return (s.lastOfA a b, s.minGallop)
    if awins ≥ gallopWins || bwins ≥ gallopWins then mergeLow lt a b fuel s .gallop
    else mergeLow lt a b fuel { s with minGallop := s.minGallop + 1 } (.single 0 0)

/-- Merges the runs `a` and `b` (where `a` is the shorter) from the low end: the merged
run and the new gallop threshold. -/
def mergeLo
    [Inhabited α]
    (lt : α → α → Except ε Bool)
    (a b : Array α)
    (minGallop : Nat) :
    Except ε (List α × Nat) :=
  let s : Low α := ⟨0, a.size, 1, b.size - 1, [b.getD 0 default], minGallop⟩
  if s.nb == 0 then pure (s.done a b, minGallop)
  else if s.na == 1 then pure (s.lastOfA a b, minGallop)
  else mergeLow lt a b (a.size + b.size) s (.single 0 0)

/-- A merge from the high end: `a` keeps its first `na` items and `b` its first `nb`;
`out` holds the merged tail in order. -/
structure High (α : Type) where
  na : Nat
  nb : Nat
  out : List α
  minGallop : Nat

/-- The merged run once one side is used up: what is left of `a`, then of `b`. -/
def High.done
    (a b : Array α)
    (s : High α) :
    List α :=
  (segment a 0 s.na).toList ++ (segment b 0 s.nb).toList ++ s.out

/-- The merged run when one item of `b` is left: it goes before the rest of `a`. -/
def High.firstOfB
    [Inhabited α]
    (a b : Array α)
    (s : High α) :
    List α :=
  b.getD 0 default :: (segment a 0 s.na).toList ++ s.out

/-- Merges from the high end; each step moves at least one item. -/
def mergeHigh
    [Inhabited α]
    (lt : α → α → Except ε Bool)
    (a b : Array α) :
    Nat → High α → Phase → Except ε (List α × Nat)
  | 0, s, _ => pure (s.done a b, s.minGallop)
  | fuel + 1, s, .single awins bwins => do
    let x := b.getD (s.nb - 1) default
    let y := a.getD (s.na - 1) default
    if ← lt x y then
      let s := { s with out := y :: s.out, na := s.na - 1 }
      if s.na == 0 then pure (s.done a b, s.minGallop)
      else if awins + 1 ≥ s.minGallop then
        mergeHigh lt a b fuel { s with minGallop := s.minGallop + 1 } .gallop
      else mergeHigh lt a b fuel s (.single (awins + 1) 0)
    else
      let s := { s with out := x :: s.out, nb := s.nb - 1 }
      if s.nb == 1 then pure (s.firstOfB a b, s.minGallop)
      else if bwins + 1 ≥ s.minGallop then
        mergeHigh lt a b fuel { s with minGallop := s.minGallop + 1 } .gallop
      else mergeHigh lt a b fuel s (.single 0 (bwins + 1))
  | fuel + 1, s, .gallop => do
    let s := { s with minGallop := if s.minGallop > 1 then s.minGallop - 1 else s.minGallop }
    let p ← gallopRight lt (b.getD (s.nb - 1) default) (fun i => a.getD i default) s.na
      (s.na - 1)
    let k := s.na - p
    let awins := k
    let s := { s with out := (segment a p k).toList ++ s.out, na := s.na - k }
    if k > 0 && s.na == 0 then return (s.done a b, s.minGallop)
    let s := { s with out := b.getD (s.nb - 1) default :: s.out, nb := s.nb - 1 }
    if s.nb == 1 then return (s.firstOfB a b, s.minGallop)
    let p ← gallopLeft lt (a.getD (s.na - 1) default) (fun i => b.getD i default) s.nb
      (s.nb - 1)
    let k := s.nb - p
    let bwins := k
    let s := { s with out := (segment b p k).toList ++ s.out, nb := s.nb - k }
    if k > 0 && s.nb == 1 then return (s.firstOfB a b, s.minGallop)
    if k > 0 && s.nb == 0 then return (s.done a b, s.minGallop)
    let s := { s with out := a.getD (s.na - 1) default :: s.out, na := s.na - 1 }
    if s.na == 0 then return (s.done a b, s.minGallop)
    if awins ≥ gallopWins || bwins ≥ gallopWins then mergeHigh lt a b fuel s .gallop
    else mergeHigh lt a b fuel { s with minGallop := s.minGallop + 1 } (.single 0 0)

/-- Merges the runs `a` and `b` (where `b` is the shorter) from the high end: the merged
run and the new gallop threshold. -/
def mergeHi
    [Inhabited α]
    (lt : α → α → Except ε Bool)
    (a b : Array α)
    (minGallop : Nat) :
    Except ε (List α × Nat) :=
  let s : High α := ⟨a.size - 1, b.size, [a.getD (a.size - 1) default], minGallop⟩
  if s.na == 0 then pure (s.done a b, minGallop)
  else if s.nb == 1 then pure (s.firstOfB a b, minGallop)
  else mergeHigh lt a b (a.size + b.size) s (.single 0 0)

/-- Merges the adjacent runs of `na` items at `baseA` and `nb` items at `baseA + na`: the
items of the first that come before the second's first item, and those of the second
that come after the first's last item, stay where they are; the rest is merged from the
end of the shorter side. -/
def mergeAt
    [Inhabited α]
    (lt : α → α → Except ε Bool)
    (xs : Array α)
    (baseA na nb : Nat)
    (minGallop : Nat) :
    Except ε (Array α × Nat) := do
  let baseB := baseA + na
  let k ← gallopRight lt (xs.getD baseB default) (fun i => xs.getD (baseA + i) default) na 0
  let baseA := baseA + k
  let na := na - k
  if na == 0 then return (xs, minGallop)
  let nb ← gallopLeft lt (xs.getD (baseA + na - 1) default) (fun i => xs.getD (baseB + i) default)
    nb (nb - 1)
  if nb == 0 then return (xs, minGallop)
  let a := segment xs baseA na
  let b := segment xs baseB nb
  let (merged, minGallop) ← if na ≤ nb then mergeLo lt a b minGallop else mergeHi lt a b minGallop
  return (writeAt xs baseA merged, minGallop)

/-- A run waiting on the stack: where it starts, its length, and its power (set once the
run after it is known). -/
structure Run where
  base : Nat
  len : Nat
  power : Nat
  deriving Inhabited

/-- The power of the boundary between the run of `n1` items at `s1` and the `n2` items
after it, in an array of `n` items: the first binary digit at which the two runs'
midpoints, as fractions of `n`, differ. -/
def power
    (s1 n1 n2 n : Nat) :
    Nat :=
  go (2 * s1 + n1) (2 * s1 + 2 * n1 + n2) 1 (n + 1)
where
  /-- Compares the binary digits of `a / n` and `b / n` (twice the midpoints) one at a
  time; at most `fuel` digits, which the size of `n` bounds. -/
  go (a b result : Nat) : Nat → Nat
    | 0 => result
    | fuel + 1 =>
      if a ≥ n then go (2 * (a - n)) (2 * (b - n)) (result + 1) fuel
      else if b ≥ n then result
      else go (2 * a) (2 * b) (result + 1) fuel

/-- The array being sorted, the stack of runs (top last) and the gallop threshold. -/
structure Sorter (α : Type) where
  items : Array α
  runs : Array Run
  minGallop : Nat

/-- Merges the runs at stack positions `i` and `i + 1` into one at position `i`. -/
def mergeRuns
    [Inhabited α]
    (lt : α → α → Except ε Bool)
    (s : Sorter α)
    (i : Nat) :
    Except ε (Sorter α) := do
  let r1 := s.runs.getD i default
  let r2 := s.runs.getD (i + 1) default
  let (items, minGallop) ← mergeAt lt s.items r1.base r1.len r2.len s.minGallop
  let runs := (s.runs.extract 0 i).push { r1 with len := r1.len + r2.len } ++
    s.runs.extract (i + 2) s.runs.size
  pure ⟨items, runs, minGallop⟩

/-- Merges the top two runs while the run below the top has a power greater than `p`. -/
def mergeAbove
    [Inhabited α]
    (lt : α → α → Except ε Bool)
    (p : Nat) :
    Nat → Sorter α → Except ε (Sorter α)
  | 0, s => pure s
  | fuel + 1, s =>
    if s.runs.size > 1 && (s.runs.getD (s.runs.size - 2) default).power > p then do
      mergeAbove lt p fuel (← mergeRuns lt s (s.runs.size - 2))
    else pure s

/-- Before a run of `len` items is pushed: gives the top run its power, merging away the
runs below of greater power first. -/
def settle
    [Inhabited α]
    (lt : α → α → Except ε Bool)
    (n len : Nat)
    (s : Sorter α) :
    Except ε (Sorter α) :=
  match s.runs.back? with
  | none => pure s
  | some top => do
    let p := power top.base top.len len n
    let s ← mergeAbove lt p s.runs.size s
    let last := s.runs.size - 1
    pure { s with runs := s.runs.set! last { s.runs.getD last default with power := p } }

/-- Finds the runs from position `lo` on, extends the short ones, and pushes them, merging
as their powers say; `fuel` counts the items left. -/
def pushRuns
    [Inhabited α]
    (lt : α → α → Except ε Bool)
    (n minrun : Nat) :
    Nat → Sorter α → Nat → Except ε (Sorter α)
  | 0, s, _ => pure s
  | fuel + 1, s, lo =>
    if lo ≥ n then pure s
    else do
      let (len, descending) ← countRun lt s.items lo n
      let items := if descending then reverseRun s.items lo len else s.items
      let (items, len) ←
        if len < minrun then do
          let force := min (n - lo) minrun
          pure (← binaryInsert lt items lo (lo + force) (lo + len), force)
        else pure (items, len)
      let s ← settle lt n len { s with items := items }
      pushRuns lt n minrun fuel { s with runs := s.runs.push ⟨lo, len, 0⟩ } (lo + len)

/-- Merges the stack down to one run: the run below the top with the top, unless the run
below it is shorter than the top, in which case those two first. -/
def collapse
    [Inhabited α]
    (lt : α → α → Except ε Bool) :
    Nat → Sorter α → Except ε (Sorter α)
  | 0, s => pure s
  | fuel + 1, s =>
    if s.runs.size ≤ 1 then pure s
    else do
      let m := s.runs.size - 2
      let m := if m > 0 && (s.runs.getD (m - 1) default).len < (s.runs.getD (m + 1) default).len
        then m - 1 else m
      collapse lt fuel (← mergeRuns lt s m)

/-- Sorts by a strict comparison that may fail (see the module comment). -/
def sortBy
    [Inhabited α]
    (lt : α → α → Except ε Bool)
    (xs : Array α) :
    Except ε (Array α) :=
  let n := xs.size
  if n < 2 then pure xs
  else do
    let s ← pushRuns lt n (minRun n) n ⟨xs, #[], gallopWins⟩ 0
    let s ← collapse lt s.runs.size s
    pure s.items

theorem minRun_small
    (n : Nat)
    (h : n < 64) :
    minRun n = n := by
  unfold minRun
  rw [minRunFrom]
  simp [Nat.not_le.mpr h]

end CorridorRank.NaturalMerge
