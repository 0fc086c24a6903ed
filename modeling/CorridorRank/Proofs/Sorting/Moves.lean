import CorridorRank.Sorting.NaturalMerge
import CorridorRank.Proofs.Traversal
import Mathlib.Logic.Relation

/-!
# What a merge can do

A merge of two runs is a loop over a state (`Low` from the low end, `High` from the high
end) whose every turn moves items from what is left of the runs to what is merged. The
moves are few: one item after a comparison (`takeA`, `takeB`), a stretch found by galloping
(`gallopA`, `gallopB`), a stretch found by galloping followed by the item of the other run
that the gallop stopped at (`gallopAB`, `gallopBA`), and a change of the gallop threshold.
`Low.Move` and `High.Move` list them with the answers the merge saw.

`mergeLow_reaches` and `mergeHigh_reaches` unfold the merges once and for all: whatever a
merge returns is how a state reachable by moves ends, either with one run used up, or with
the one item that is left of a run put last (or first). Every fact about merges (that they
rearrange, that they keep order) is then a fact about each move.

A merge is given fuel enough to finish. The reachability statements keep the count: an
ending for lack of fuel comes after at least as many items moved as there was fuel.
-/

namespace CorridorRank.NaturalMerge

open Traversal

variable {α ε : Type} [Inhabited α] (lt : α → α → Except ε Bool) (a b : Array α)

/-! ## From the low end -/

/-- One move of a merge from the low end, with the answers that allow it. -/
inductive Low.Move : Low α → Low α → Prop
  /-- The next item of `a` is not after the next item of `b`: it moves. -/
  | takeA (s : Low α) (answered : lt (b.getD s.ib default) (a.getD s.ia default) = .ok false)
      (someA : 1 ≤ s.na) (someB : 1 ≤ s.nb) :
      Move s { s with out := a.getD s.ia default :: s.out, ia := s.ia + 1, na := s.na - 1 }
  /-- The next item of `b` comes before the next item of `a`: it moves. -/
  | takeB (s : Low α) (answered : lt (b.getD s.ib default) (a.getD s.ia default) = .ok true)
      (someA : 1 ≤ s.na) (someB : 1 ≤ s.nb) :
      Move s { s with out := b.getD s.ib default :: s.out, ib := s.ib + 1, nb := s.nb - 1 }
  /-- The items of `a` that are not after the next item of `b` move at once. -/
  | gallopA (s : Low α) (k : Nat)
      (galloped : gallopRight lt (b.getD s.ib default) (fun i => a.getD (s.ia + i) default)
        s.na 0 = .ok k)
      (someA : 1 ≤ s.na) (someB : 1 ≤ s.nb) :
      Move s { s with out := (segment a s.ia k).toList.reverse ++ s.out, ia := s.ia + k,
                      na := s.na - k }
  /-- As `gallopA`, and then the next item of `b`, which the gallop stopped before. -/
  | gallopAB (s : Low α) (k : Nat)
      (galloped : gallopRight lt (b.getD s.ib default) (fun i => a.getD (s.ia + i) default)
        s.na 0 = .ok k)
      (someA : 1 ≤ s.na) (someB : 1 ≤ s.nb) :
      Move s { s with out := b.getD s.ib default :: ((segment a s.ia k).toList.reverse ++ s.out),
                      ia := s.ia + k, na := s.na - k, ib := s.ib + 1, nb := s.nb - 1 }
  /-- The items of `b` that come before the next item of `a` move at once. -/
  | gallopB (s : Low α) (k : Nat)
      (galloped : gallopLeft lt (a.getD s.ia default) (fun i => b.getD (s.ib + i) default)
        s.nb 0 = .ok k)
      (someA : 1 ≤ s.na) (someB : 1 ≤ s.nb) :
      Move s { s with out := (segment b s.ib k).toList.reverse ++ s.out, ib := s.ib + k,
                      nb := s.nb - k }
  /-- As `gallopB`, and then the next item of `a`, which the gallop stopped before. -/
  | gallopBA (s : Low α) (k : Nat)
      (galloped : gallopLeft lt (a.getD s.ia default) (fun i => b.getD (s.ib + i) default)
        s.nb 0 = .ok k)
      (someA : 1 ≤ s.na) (someB : 1 ≤ s.nb) :
      Move s { s with out := a.getD s.ia default :: ((segment b s.ib k).toList.reverse ++ s.out),
                      ib := s.ib + k, nb := s.nb - k, ia := s.ia + 1, na := s.na - 1 }
  /-- The gallop threshold changes. -/
  | threshold (s : Low α) (minGallop : Nat) : Move s { s with minGallop := minGallop }

/-- How a merge from the low end that started at `start` with `fuel` ends at state `t`:
with a run used up, or for lack of fuel after as many items moved, or with one item of `a`
left, which goes last. -/
def Low.Ends
    (start : Low α)
    (fuel : Nat)
    (t : Low α)
    (merged : List α) :
    Prop :=
  (merged = t.done a b ∧ (t.na = 0 ∨ t.nb = 0 ∨ t.na + t.nb + fuel ≤ start.na + start.nb)) ∨
    (merged = t.lastOfA a b ∧ t.na = 1)

/-- An ending seen from a later state is an ending from an earlier one with more fuel, when
at least one item moved in between. -/
theorem Low.Ends.earlier
    {s s' t : Low α}
    {fuel : Nat}
    {merged : List α}
    (ends : Low.Ends a b s' fuel t merged)
    (moved : s'.na + s'.nb + 1 ≤ s.na + s.nb) :
    Low.Ends a b s (fuel + 1) t merged := by
  rcases ends with ⟨same, ended⟩ | lastA
  · exact Or.inl ⟨same, by omega⟩
  · exact Or.inr lastA

/-- A merge from the low end returns how a state reachable by moves ends. The cases follow the
merge: an item of `b` or of `a` comes first; or the threshold eases, the items of `a` not after
`b`'s next item move, then that item, which the gallop stopped before, then the items of `b` before
`a`'s next item, and then that item. -/
theorem mergeLow_reaches
    (fuel : Nat)
    (s : Low α)
    (phase : Phase)
    {merged : List α}
    {minGallop : Nat}
    (manyA : 2 ≤ s.na)
    (someB : 1 ≤ s.nb)
    (run : mergeLow lt a b fuel s phase = .ok (merged, minGallop)) :
    ∃ t, Relation.ReflTransGen (Low.Move lt a b) s t ∧ Low.Ends a b s fuel t merged := by
  induction fuel generalizing s phase with
  | zero =>
      simp only [mergeLow, pure_eq_ok, Prod.mk.injEq] at run
      exact ⟨s, .refl, Or.inl ⟨run.1.symm, by omega⟩⟩
  | succ fuel ih =>
      cases phase with
      | single awins bwins =>
          simp only [mergeLow] at run
          obtain ⟨less, compared, run⟩ := bind_eq_ok.mp run
          cases less with
          | true =>
              have moved := Low.Move.takeB s compared (by omega) someB
              simp only [↓reduceIte] at run
              split at run
              next emptied =>
                simp only [beq_iff_eq] at emptied
                simp only [pure_eq_ok, Prod.mk.injEq] at run
                exact ⟨_, .single moved, Or.inl ⟨run.1.symm, Or.inr (Or.inl emptied)⟩⟩
              next remaining =>
                simp only [beq_iff_eq] at remaining
                split at run
                · obtain ⟨t, reaches, ends⟩ := ih _ _ (by dsimp only; omega) (by dsimp only; omega) run
                  exact ⟨t, .head moved (.head (Low.Move.threshold _ _) reaches),
                    ends.earlier a b (by dsimp only; omega)⟩
                · obtain ⟨t, reaches, ends⟩ := ih _ _ (by dsimp only; omega) (by dsimp only; omega) run
                  exact ⟨t, .head moved reaches, ends.earlier a b (by dsimp only; omega)⟩
          | false =>
              have moved := Low.Move.takeA s compared (by omega) someB
              simp only [Bool.false_eq_true, ↓reduceIte] at run
              split at run
              next one =>
                simp only [beq_iff_eq] at one
                simp only [pure_eq_ok, Prod.mk.injEq] at run
                exact ⟨_, .single moved, Or.inr ⟨run.1.symm, one⟩⟩
              next remaining =>
                simp only [beq_iff_eq] at remaining
                split at run
                · obtain ⟨t, reaches, ends⟩ := ih _ _ (by dsimp only; omega) (by dsimp only; omega) run
                  exact ⟨t, .head moved (.head (Low.Move.threshold _ _) reaches),
                    ends.earlier a b (by dsimp only; omega)⟩
                · obtain ⟨t, reaches, ends⟩ := ih _ _ (by dsimp only; omega) (by dsimp only; omega) run
                  exact ⟨t, .head moved reaches, ends.earlier a b (by dsimp only; omega)⟩
      | gallop =>
          simp only [mergeLow] at run
          generalize (if s.minGallop > 1 then s.minGallop - 1 else s.minGallop) = eased at run
          have easing : Low.Move lt a b s { s with minGallop := eased } := .threshold s eased
          obtain ⟨k, gallopedA, run⟩ := bind_eq_ok.mp run
          split at run
          next one =>
            simp only [Bool.and_eq_true, decide_eq_true_eq, beq_iff_eq] at one
            simp only [pure_eq_ok, Prod.mk.injEq] at run
            exact ⟨_, .head easing (.single (.gallopA _ k gallopedA (by dsimp only; omega)
              (by dsimp only; omega))), Or.inr ⟨run.1.symm, by dsimp only; omega⟩⟩
          split at run
          next none =>
            simp only [Bool.and_eq_true, decide_eq_true_eq, beq_iff_eq] at none
            simp only [pure_eq_ok, Prod.mk.injEq] at run
            exact ⟨_, .head easing (.single (.gallopA _ k gallopedA (by dsimp only; omega)
              (by dsimp only; omega))), Or.inl ⟨run.1.symm, Or.inl (by dsimp only; omega)⟩⟩
          next notNone notOne =>
          simp only [Bool.and_eq_true, decide_eq_true_eq, beq_iff_eq, not_and_or] at notNone notOne
          have movedAB : Low.Move lt a b { s with minGallop := eased } _ :=
            .gallopAB _ k gallopedA (by dsimp only; omega) (by dsimp only; omega)
          split at run
          next emptied =>
            simp only [beq_iff_eq] at emptied
            simp only [pure_eq_ok, Prod.mk.injEq] at run
            exact ⟨_, .head easing (.single movedAB),
              Or.inl ⟨run.1.symm, Or.inr (Or.inl (by dsimp only; omega))⟩⟩
          next remaining =>
          simp only [beq_iff_eq] at remaining
          obtain ⟨k', gallopedB, run⟩ := bind_eq_ok.mp run
          split at run
          next none =>
            simp only [Bool.and_eq_true, decide_eq_true_eq, beq_iff_eq] at none
            simp only [pure_eq_ok, Prod.mk.injEq] at run
            exact ⟨_, .head easing (.head movedAB (.single (.gallopB _ k' gallopedB
              (by dsimp only; omega) (by dsimp only; omega)))),
              Or.inl ⟨run.1.symm, Or.inr (Or.inl (by dsimp only; omega))⟩⟩
          next notNoneB =>
          simp only [Bool.and_eq_true, decide_eq_true_eq, beq_iff_eq, not_and_or] at notNoneB
          have round : Relation.ReflTransGen (Low.Move lt a b) s _ :=
            .head easing (.head movedAB (.single (.gallopBA _ k' gallopedB (by dsimp only; omega)
              (by dsimp only; omega))))
          split at run
          next one =>
            simp only [beq_iff_eq] at one
            simp only [pure_eq_ok, Prod.mk.injEq] at run
            exact ⟨_, round, Or.inr ⟨run.1.symm, by dsimp only; omega⟩⟩
          next remainingA =>
          simp only [beq_iff_eq] at remainingA
          split at run
          · obtain ⟨t, reaches, ends⟩ :=
              ih _ _ (by dsimp only; omega) (by dsimp only; omega) run
            exact ⟨t, round.trans reaches, ends.earlier a b (by dsimp only; omega)⟩
          · obtain ⟨t, reaches, ends⟩ :=
              ih _ _ (by dsimp only; omega) (by dsimp only; omega) run
            exact ⟨t, round.trans (.head (.threshold _ _) reaches),
              ends.earlier a b (by dsimp only; omega)⟩

/-! ## From the high end -/

/-- One move of a merge from the high end, with the answers that allow it: the moved items
go before what is merged. -/
inductive High.Move : High α → High α → Prop
  /-- The last item of `b` comes before the last item of `a`: the latter moves. -/
  | takeA (s : High α)
      (answered : lt (b.getD (s.nb - 1) default) (a.getD (s.na - 1) default) = .ok true)
      (someA : 1 ≤ s.na) (someB : 1 ≤ s.nb) :
      Move s { s with out := a.getD (s.na - 1) default :: s.out, na := s.na - 1 }
  /-- The last item of `b` does not come before the last item of `a`: it moves. -/
  | takeB (s : High α)
      (answered : lt (b.getD (s.nb - 1) default) (a.getD (s.na - 1) default) = .ok false)
      (someA : 1 ≤ s.na) (someB : 1 ≤ s.nb) :
      Move s { s with out := b.getD (s.nb - 1) default :: s.out, nb := s.nb - 1 }
  /-- The items of `a` after the last item of `b` move at once. -/
  | gallopA (s : High α) (p : Nat)
      (galloped : gallopRight lt (b.getD (s.nb - 1) default) (fun i => a.getD i default) s.na
        (s.na - 1) = .ok p)
      (someA : 1 ≤ s.na) (someB : 1 ≤ s.nb) :
      Move s { s with out := (segment a p (s.na - p)).toList ++ s.out,
                      na := s.na - (s.na - p) }
  /-- As `gallopA`, and then the last item of `b`, which the gallop stopped after. -/
  | gallopAB (s : High α) (p : Nat)
      (galloped : gallopRight lt (b.getD (s.nb - 1) default) (fun i => a.getD i default) s.na
        (s.na - 1) = .ok p)
      (someA : 1 ≤ s.na) (someB : 1 ≤ s.nb) :
      Move s { s with out := b.getD (s.nb - 1) default :: ((segment a p (s.na - p)).toList ++ s.out),
                      na := s.na - (s.na - p), nb := s.nb - 1 }
  /-- The items of `b` not before the last item of `a` move at once. -/
  | gallopB (s : High α) (p : Nat)
      (galloped : gallopLeft lt (a.getD (s.na - 1) default) (fun i => b.getD i default) s.nb
        (s.nb - 1) = .ok p)
      (someA : 1 ≤ s.na) (someB : 1 ≤ s.nb) :
      Move s { s with out := (segment b p (s.nb - p)).toList ++ s.out,
                      nb := s.nb - (s.nb - p) }
  /-- As `gallopB`, and then the last item of `a`, which the gallop stopped after. -/
  | gallopBA (s : High α) (p : Nat)
      (galloped : gallopLeft lt (a.getD (s.na - 1) default) (fun i => b.getD i default) s.nb
        (s.nb - 1) = .ok p)
      (someA : 1 ≤ s.na) (someB : 1 ≤ s.nb) :
      Move s { s with out := a.getD (s.na - 1) default :: ((segment b p (s.nb - p)).toList ++ s.out),
                      nb := s.nb - (s.nb - p), na := s.na - 1 }
  /-- The gallop threshold changes. -/
  | threshold (s : High α) (minGallop : Nat) : Move s { s with minGallop := minGallop }

/-- How a merge from the high end that started at `start` with `fuel` ends at state `t`:
with a run used up, or for lack of fuel after as many items moved, or with one item of `b`
left, which goes first. -/
def High.Ends
    (start : High α)
    (fuel : Nat)
    (t : High α)
    (merged : List α) :
    Prop :=
  (merged = t.done a b ∧ (t.na = 0 ∨ t.nb = 0 ∨ t.na + t.nb + fuel ≤ start.na + start.nb)) ∨
    (merged = t.firstOfB a b ∧ t.nb = 1)

/-- An ending seen from a later state is an ending from an earlier one with more fuel, when
at least one item moved in between. -/
theorem High.Ends.earlier
    {s s' t : High α}
    {fuel : Nat}
    {merged : List α}
    (ends : High.Ends a b s' fuel t merged)
    (moved : s'.na + s'.nb + 1 ≤ s.na + s.nb) :
    High.Ends a b s (fuel + 1) t merged := by
  rcases ends with ⟨same, ended⟩ | firstB
  · exact Or.inl ⟨same, by omega⟩
  · exact Or.inr firstB

/-- A merge from the high end returns how a state reachable by moves ends. The cases follow the
merge: the last item of `a` or of `b` goes last; or the threshold eases, the items of `a` after
`b`'s last item move, then that item, which the gallop stopped after, then the items of `b` not
before `a`'s last item, and then that item. -/
theorem mergeHigh_reaches
    (fuel : Nat)
    (s : High α)
    (phase : Phase)
    {merged : List α}
    {minGallop : Nat}
    (someA : 1 ≤ s.na)
    (manyB : 2 ≤ s.nb)
    (run : mergeHigh lt a b fuel s phase = .ok (merged, minGallop)) :
    ∃ t, Relation.ReflTransGen (High.Move lt a b) s t ∧ High.Ends a b s fuel t merged := by
  induction fuel generalizing s phase with
  | zero =>
      simp only [mergeHigh, pure_eq_ok, Prod.mk.injEq] at run
      exact ⟨s, .refl, Or.inl ⟨run.1.symm, by omega⟩⟩
  | succ fuel ih =>
      cases phase with
      | single awins bwins =>
          simp only [mergeHigh] at run
          obtain ⟨less, compared, run⟩ := bind_eq_ok.mp run
          cases less with
          | true =>
              have moved := High.Move.takeA s compared someA (by omega)
              simp only [↓reduceIte] at run
              split at run
              next emptied =>
                simp only [beq_iff_eq] at emptied
                simp only [pure_eq_ok, Prod.mk.injEq] at run
                exact ⟨_, .single moved, Or.inl ⟨run.1.symm, Or.inl emptied⟩⟩
              next remaining =>
                simp only [beq_iff_eq] at remaining
                split at run
                · obtain ⟨t, reaches, ends⟩ :=
                    ih _ _ (by dsimp only; omega) (by dsimp only; omega) run
                  exact ⟨t, .head moved (.head (.threshold _ _) reaches),
                    ends.earlier a b (by dsimp only; omega)⟩
                · obtain ⟨t, reaches, ends⟩ :=
                    ih _ _ (by dsimp only; omega) (by dsimp only; omega) run
                  exact ⟨t, .head moved reaches, ends.earlier a b (by dsimp only; omega)⟩
          | false =>
              have moved := High.Move.takeB s compared someA (by omega)
              simp only [Bool.false_eq_true, ↓reduceIte] at run
              split at run
              next one =>
                simp only [beq_iff_eq] at one
                simp only [pure_eq_ok, Prod.mk.injEq] at run
                exact ⟨_, .single moved, Or.inr ⟨run.1.symm, one⟩⟩
              next remaining =>
                simp only [beq_iff_eq] at remaining
                split at run
                · obtain ⟨t, reaches, ends⟩ :=
                    ih _ _ (by dsimp only; omega) (by dsimp only; omega) run
                  exact ⟨t, .head moved (.head (.threshold _ _) reaches),
                    ends.earlier a b (by dsimp only; omega)⟩
                · obtain ⟨t, reaches, ends⟩ :=
                    ih _ _ (by dsimp only; omega) (by dsimp only; omega) run
                  exact ⟨t, .head moved reaches, ends.earlier a b (by dsimp only; omega)⟩
      | gallop =>
          simp only [mergeHigh] at run
          generalize (if s.minGallop > 1 then s.minGallop - 1 else s.minGallop) = eased at run
          have easing : High.Move lt a b s { s with minGallop := eased } := .threshold s eased
          obtain ⟨p, gallopedA, run⟩ := bind_eq_ok.mp run
          split at run
          next none =>
            simp only [Bool.and_eq_true, decide_eq_true_eq, beq_iff_eq] at none
            simp only [pure_eq_ok, Prod.mk.injEq] at run
            exact ⟨_, .head easing (.single (.gallopA _ p gallopedA (by dsimp only; omega)
              (by dsimp only; omega))), Or.inl ⟨run.1.symm, Or.inl (by dsimp only; omega)⟩⟩
          next notNone =>
          simp only [Bool.and_eq_true, decide_eq_true_eq, beq_iff_eq, not_and_or] at notNone
          have movedAB : High.Move lt a b { s with minGallop := eased } _ :=
            .gallopAB _ p gallopedA (by dsimp only; omega) (by dsimp only; omega)
          split at run
          next one =>
            simp only [beq_iff_eq] at one
            simp only [pure_eq_ok, Prod.mk.injEq] at run
            exact ⟨_, .head easing (.single movedAB), Or.inr ⟨run.1.symm, by dsimp only; omega⟩⟩
          next remaining =>
          simp only [beq_iff_eq] at remaining
          obtain ⟨p', gallopedB, run⟩ := bind_eq_ok.mp run
          split at run
          next one =>
            simp only [Bool.and_eq_true, decide_eq_true_eq, beq_iff_eq] at one
            simp only [pure_eq_ok, Prod.mk.injEq] at run
            exact ⟨_, .head easing (.head movedAB (.single (.gallopB _ p' gallopedB
              (by dsimp only; omega) (by dsimp only; omega)))),
              Or.inr ⟨run.1.symm, by dsimp only; omega⟩⟩
          split at run
          next none =>
            simp only [Bool.and_eq_true, decide_eq_true_eq, beq_iff_eq] at none
            simp only [pure_eq_ok, Prod.mk.injEq] at run
            exact ⟨_, .head easing (.head movedAB (.single (.gallopB _ p' gallopedB
              (by dsimp only; omega) (by dsimp only; omega)))),
              Or.inl ⟨run.1.symm, Or.inr (Or.inl (by dsimp only; omega))⟩⟩
          next notNoneB notOneB =>
          simp only [Bool.and_eq_true, decide_eq_true_eq, beq_iff_eq, not_and_or]
            at notNoneB notOneB
          have round : Relation.ReflTransGen (High.Move lt a b) s _ :=
            .head easing (.head movedAB (.single (.gallopBA _ p' gallopedB (by dsimp only; omega)
              (by dsimp only; omega))))
          split at run
          next emptied =>
            simp only [beq_iff_eq] at emptied
            simp only [pure_eq_ok, Prod.mk.injEq] at run
            exact ⟨_, round, Or.inl ⟨run.1.symm, Or.inl (by dsimp only; omega)⟩⟩
          next remainingA =>
          simp only [beq_iff_eq] at remainingA
          split at run
          · obtain ⟨t, reaches, ends⟩ :=
              ih _ _ (by dsimp only; omega) (by dsimp only; omega) run
            exact ⟨t, round.trans reaches, ends.earlier a b (by dsimp only; omega)⟩
          · obtain ⟨t, reaches, ends⟩ :=
              ih _ _ (by dsimp only; omega) (by dsimp only; omega) run
            exact ⟨t, round.trans (.head (.threshold _ _) reaches),
              ends.earlier a b (by dsimp only; omega)⟩

end CorridorRank.NaturalMerge
