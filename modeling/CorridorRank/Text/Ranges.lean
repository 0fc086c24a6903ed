/-!
# Searching increasing tables

Character tables are arrays sorted by code point. `Ranges.indexOfLastAtMost` finds, by
halving, the last entry not above a key; membership in a table of closed ranges and the
block a digit belongs to are read off that entry.
-/

namespace CorridorRank.Text.Ranges

/-- Index of the last entry `≤ n` within `[lo, hi)` of an increasing array, knowing that the
entries before `lo` are `≤ n` and those from `hi` on are above it. -/
def searchLast
    (xs : Array Nat)
    (n : Nat)
    (lo hi : Nat) :
    Option Nat :=
  if lo < hi then
    let mid := (lo + hi) / 2
    if xs[mid]?.getD 0 ≤ n then searchLast xs n (mid + 1) hi
    else searchLast xs n lo mid
  else if lo = 0 then none else some (lo - 1)
termination_by hi - lo
decreasing_by all_goals omega

/-- Index of the last entry not above `n` in an increasing array. -/
def indexOfLastAtMost
    (xs : Array Nat)
    (n : Nat) :
    Option Nat :=
  searchLast xs n 0 xs.size

/-- The last entry not above `n` in an increasing array. -/
def lastAtMost
    (xs : Array Nat)
    (n : Nat) :
    Option Nat :=
  (indexOfLastAtMost xs n).bind (xs[·]?)

/-- Whether `n` lies in one of the closed ranges of an increasing, disjoint table. -/
def contains
    (rs : Array (Nat × Nat))
    (n : Nat) :
    Bool :=
  match indexOfLastAtMost (rs.map (·.1)) n with
  | some i => match rs[i]? with
    | some (_, hi) => n ≤ hi
    | none => false
  | none => false

end CorridorRank.Text.Ranges
