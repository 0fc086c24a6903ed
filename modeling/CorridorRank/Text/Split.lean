import CorridorRank.Text.Basic

/-!
# Splitting text at a separator

`Text.splitAt sep t` cuts a text at every occurrence of one character and keeps the empty
pieces: `"a::b"` gives `["a", "", "b"]` and the empty text gives `[""]`. There is always one
piece more than there are separators, which is what makes "exactly two pieces" mean
"exactly one separator".
-/

namespace CorridorRank.Text

/-- The pieces of a code point list between separators; `acc` holds the points of the
current piece in reverse. -/
def piecesFrom
    (sep : Nat) :
    List Nat → List Nat → List (List Nat)
  | [], acc => [acc.reverse]
  | c :: cs, acc =>
    if c = sep then acc.reverse :: piecesFrom sep cs [] else piecesFrom sep cs (c :: acc)

/-- The pieces of a text between occurrences of `sep`, empty ones included. -/
def splitAt
    (sep : Char)
    (t : Text) :
    List Text :=
  (piecesFrom sep.toNat t.points []).map Text.mk

/-- Each separator closes one piece and the end of the text closes the last. -/
theorem length_piecesFrom
    (sep : Nat)
    (cs acc : List Nat) :
    (piecesFrom sep cs acc).length = cs.count sep + 1 := by
  induction cs generalizing acc with
  | nil => simp [piecesFrom]
  | cons c cs ih =>
    by_cases h : c = sep
    · subst h
      simp [piecesFrom, ih]
    · simp [piecesFrom, h, ih]

/-- A text with no separator is one piece: itself. -/
theorem piecesFrom_of_not_mem
    (sep : Nat)
    (cs acc : List Nat)
    (h : sep ∉ cs) :
    piecesFrom sep cs acc = [acc.reverse ++ cs] := by
  induction cs generalizing acc with
  | nil => simp [piecesFrom]
  | cons c cs ih =>
    have hc : c ≠ sep := fun e => h (e ▸ List.mem_cons_self)
    have hs : sep ∉ cs := fun m => h (List.mem_cons_of_mem c m)
    simp [piecesFrom, hc, ih _ hs]

/-- The pieces of a text are never none. -/
theorem splitAt_ne_nil
    (sep : Char)
    (t : Text) :
    splitAt sep t ≠ [] := by
  intro h
  have := congrArg List.length h
  simp [splitAt, length_piecesFrom] at this

end CorridorRank.Text
