import CorridorRank.Proofs.Doubles.Nearest
import CorridorRank.Proofs.Ranking.KeyOrder
import CorridorRank.Proofs.Scoring.NotANumber

/-!
# Doubles on the extended line

A double that is a number stands for a point of the rational line extended by two
infinities (`Binary64.extended`): a zero of either sign for zero, a finite double for its
significand times its power of two, with its sign. The doubles that unpacking bits gives are
in the format (`Binary64.InFormat`): a significand below `2^53`, full unless the exponent is
the least one, and an exponent from `-1074` to `971`. On those, comparing exponents first and
significands next, as IEEE 754 compares doubles, is comparing values: a larger exponent is a
larger binade.

Main statements: `Binary64.le_iff_extended` and `Binary64.lt_iff_extended`. Two doubles that
are numbers are ordered as their points on the extended line are.
-/

namespace CorridorRank

open Float.Model (UnpackedFloat)

namespace Binary64

/-- A rational with a sign. -/
def signed : UnpackedFloat.Sign → ℚ → ℚ
  | .positive, q => q
  | .negative, q => -q

/-- Where an unpacked double stands on the extended line: an infinity at its end, a zero at
zero, and a finite double at its significand times its power of two, with its sign.
Not-a-number, which no comparison orders, is put at the bottom. -/
def extended : UnpackedFloat → WithBot (WithTop ℚ)
  | .notANumber => ⊥
  | .infinity .negative => ⊥
  | .infinity .positive => ⊤
  | .zero _ => point 0
  | .finite s m e _ => point (signed s (m * 2 ^ e))

/-- The unpacked doubles that unpacking bits can give: a finite one has a significand below
`2^53`, full unless its exponent is the least one, and an exponent at most `971`. -/
def InFormat : UnpackedFloat → Prop
  | .finite _ m e _ => Canonical m e ∧ e ≤ 971
  | _ => True

theorem inFormat_unpack
    (b : BitVec Float.Model.Format.binary64.numBits) :
    InFormat (UnpackedFloat.unpack Float.Model.Format.binary64 b) := by
  generalize unpacked : UnpackedFloat.unpack Float.Model.Format.binary64 b = u
  cases u with
  | finite s m e valid =>
      obtain ⟨least, greatest, shape⟩ := unpack_finite_shape unpacked
      have below : m < 2 ^ (m.log2 + 1) := Nat.lt_log2_self
      refine ⟨⟨valid, ?small, least, ?full⟩, greatest⟩
      case small =>
        rcases shape with full | ⟨-, short⟩
        · rw [full] at below
          exact below
        · omega
      case full =>
        rcases shape with full | ⟨subnormal, -⟩
        · exact Or.inl (full ▸ Nat.log2_self_le valid.ne')
        · exact Or.inr subnormal
  | _ => trivial

/-- The unpacked form of a double is in the format. -/
theorem inFormat_toModel
    (x : Float) :
    InFormat x.toModel.unpack :=
  inFormat_unpack _

/-! ## Comparing by binade -/

/-- Of two doubles' values of one sign, the one of the smaller exponent, or of the smaller
significand at one exponent, is smaller: a significand below `2^53` stays below the binade
that a full significand of a larger exponent starts. -/
theorem Canonical.lt_of_lex
    {m₁ m₂ : ℕ}
    {e₁ e₂ : ℤ}
    (first : Canonical m₁ e₁)
    (second : Canonical m₂ e₂)
    (before : e₁ < e₂ ∨ e₁ = e₂ ∧ m₁ < m₂) :
    (m₁ : ℚ) * 2 ^ e₁ < m₂ * 2 ^ e₂ := by
  rcases before with lower | ⟨rfl, smaller⟩
  · have full : 2 ^ 52 ≤ m₂ := second.full.resolve_right (by have := first.least; omega)
    have small : (m₁ : ℚ) < 2 ^ 53 := by exact_mod_cast first.small
    have large : (2 : ℚ) ^ 52 ≤ m₂ := by exact_mod_cast full
    calc (m₁ : ℚ) * 2 ^ e₁ < 2 ^ 53 * 2 ^ e₁ := mul_lt_mul_of_pos_right small (zpow_pos two_pos _)
      _ = 2 ^ (e₁ + 53) := (two_zpow_add_nat _ 53).symm
      _ ≤ 2 ^ (e₂ + 52) := zpow_le_zpow_right₀ one_le_two (by omega)
      _ = 2 ^ 52 * 2 ^ e₂ := two_zpow_add_nat _ 52
      _ ≤ m₂ * 2 ^ e₂ := mul_le_mul_of_nonneg_right large (zpow_nonneg zero_le_two _)
  · exact mul_lt_mul_of_pos_right (by exact_mod_cast smaller) (zpow_pos two_pos _)

theorem value_pos
    {m : ℕ}
    (e : ℤ)
    (positive : 0 < m) :
    0 < (m : ℚ) * 2 ^ e :=
  mul_pos (by exact_mod_cast positive) (zpow_pos two_pos _)

/-- On doubles in the format, a smaller rank is a smaller point of the extended line. Across
classes (an infinity, a finite double of either sign, a zero) the points are apart by sign;
within the finite doubles of one sign it is the comparison by binade. Among negative doubles the
larger magnitude is the smaller double. -/
theorem extended_lt_of_rank_lt
    {a b : UnpackedFloat}
    (formatA : InFormat a)
    (formatB : InFormat b)
    (numberA : a.isNaN = false)
    (numberB : b.isNaN = false)
    (less : unpackedRank a < unpackedRank b) :
    extended a < extended b := by
  cases a with
  | notANumber => cases numberA
  | infinity s =>
      cases b with
      | notANumber => cases numberB
      | infinity t => cases s <;> cases t <;> simp_all [unpackedRank, extended, Prod.Lex.toLex_lt_toLex]
      | zero t => cases s <;> simp_all [unpackedRank, extended, Prod.Lex.toLex_lt_toLex]
      | finite t m e _ => cases s <;> cases t <;> simp_all [unpackedRank, extended, Prod.Lex.toLex_lt_toLex]
  | zero s =>
      cases b with
      | notANumber => cases numberB
      | infinity t => cases t <;> simp_all [unpackedRank, extended, Prod.Lex.toLex_lt_toLex]
      | zero t => simp_all [unpackedRank]
      | finite t m e valid => cases t <;> simp_all [unpackedRank, extended, signed, Prod.Lex.toLex_lt_toLex, value_pos e valid]
  | finite s m e valid =>
      cases b with
      | notANumber => cases numberB
      | infinity t => cases s <;> cases t <;> simp_all [unpackedRank, extended, Prod.Lex.toLex_lt_toLex]
      | zero t => cases s <;> simp_all [unpackedRank, extended, signed, Prod.Lex.toLex_lt_toLex, value_pos e valid]
      | finite t m' e' valid' =>
          obtain ⟨canonical, -⟩ := formatA
          obtain ⟨canonical', -⟩ := formatB
          cases s <;> cases t <;>
            simp only [unpackedRank, extended, signed, Prod.Lex.toLex_lt_toLex, point_lt_point,
              lt_self_iff_false, true_and, false_or, neg_lt_neg_iff, Int.reduceLT, Nat.cast_lt]
              at less ⊢
          case negative.negative =>
            refine canonical'.lt_of_lex canonical ?_
            omega
          case negative.positive =>
            linarith [value_pos e valid, value_pos e' valid']
          case positive.positive =>
            refine canonical.lt_of_lex canonical' ?_
            omega
          case positive.negative => omega

/-- Doubles of one rank are at one point of the extended line. One rank is one sign, one exponent
and one significand. -/
theorem extended_eq_of_rank_eq
    {a b : UnpackedFloat}
    (numberA : a.isNaN = false)
    (numberB : b.isNaN = false)
    (same : unpackedRank a = unpackedRank b) :
    extended a = extended b := by
  cases a with
  | notANumber => cases numberA
  | infinity s =>
      cases b with
      | notANumber => cases numberB
      | infinity t => cases s <;> cases t <;> simp_all [unpackedRank]
      | zero t => cases s <;> simp_all [unpackedRank]
      | finite t m e _ => cases s <;> cases t <;> simp_all [unpackedRank]
  | zero s =>
      cases b with
      | notANumber => cases numberB
      | infinity t => cases t <;> simp_all [unpackedRank]
      | zero t => rfl
      | finite t m e _ => cases t <;> simp_all [unpackedRank]
  | finite s m e _ =>
      cases b with
      | notANumber => cases numberB
      | infinity t => cases s <;> cases t <;> simp_all [unpackedRank]
      | zero t => cases s <;> simp_all [unpackedRank]
      | finite t m' e' _ =>
          cases s <;> cases t <;> simp_all [unpackedRank]

/-- On doubles in the format, ranks and points of the extended line are in the same order. -/
theorem rank_lt_iff
    {a b : UnpackedFloat}
    (formatA : InFormat a)
    (formatB : InFormat b)
    (numberA : a.isNaN = false)
    (numberB : b.isNaN = false) :
    unpackedRank a < unpackedRank b ↔ extended a < extended b := by
  refine ⟨extended_lt_of_rank_lt formatA formatB numberA numberB, fun less => ?_⟩
  rcases lt_trichotomy (unpackedRank a) (unpackedRank b) with lower | same | higher
  · exact lower
  · exact absurd (extended_eq_of_rank_eq numberA numberB same) less.ne
  · exact absurd less (extended_lt_of_rank_lt formatB formatA numberB numberA higher).not_gt

/-! ## Comparing doubles -/

/-- Comparing two unpacked doubles the other way round swaps the answer. -/
theorem compare_swap
    (a b : UnpackedFloat) :
    b.compare a = (a.compare b).map Ordering.swap := by
  cases a with
  | notANumber => cases b <;> rfl
  | infinity s =>
      cases b with
      | notANumber => rfl
      | infinity t => cases s <;> cases t <;> rfl
      | zero t => cases s <;> rfl
      | finite t m e _ => cases s <;> cases t <;> rfl
  | zero s =>
      cases b with
      | notANumber => rfl
      | infinity t => cases t <;> rfl
      | zero t => rfl
      | finite t m e _ => cases t <;> rfl
  | finite s m e _ =>
      cases b with
      | notANumber => rfl
      | infinity t => cases s <;> cases t <;> rfl
      | zero t => cases s <;> rfl
      | finite t m' e' _ =>
          cases s <;> cases t <;>
            simp [UnpackedFloat.compare, Ordering.swap_then, Int.compare_swap, Nat.compare_swap]

/-- Two unpacked doubles that are numbers always compare. With no answer neither would be below the
other and they would not be equal, while of two ranks one always is. -/
theorem compare_isSome
    {a b : UnpackedFloat}
    (numberA : a.isNaN = false)
    (numberB : b.isNaN = false) :
    (a.compare b).isSome := by
  cases compared : a.compare b with
  | some o => rfl
  | none =>
      have below := unpacked_lt_eq numberA numberB
      have above := unpacked_lt_eq numberB numberA
      have same := unpacked_beq_eq numberA numberB
      simp only [UnpackedFloat.lt, UnpackedFloat.beq, compare_swap a b, compared] at below above same
      rcases lt_trichotomy (unpackedRank a) (unpackedRank b) with lower | equal | higher <;>
        simp_all

/-- Of two unpacked doubles that are numbers, one is at most the other exactly when the other
is not below it. -/
theorem le_eq_not_lt
    {a b : UnpackedFloat}
    (numberA : a.isNaN = false)
    (numberB : b.isNaN = false) :
    a.le b = !(b.lt a) := by
  obtain ⟨o, compared⟩ := Option.isSome_iff_exists.mp (compare_isSome numberA numberB)
  rw [UnpackedFloat.le, UnpackedFloat.lt, compare_swap a b, compared]
  cases o <;> rfl

/-- Two doubles that are numbers are ordered as their points of the extended line. -/
theorem lt_iff_extended
    {x y : Float}
    (numberX : x.isNaN = false)
    (numberY : y.isNaN = false) :
    x < y ↔ extended x.toModel.unpack < extended y.toModel.unpack :=
  (doubleRank_lt_iff numberX numberY).trans
    (rank_lt_iff (inFormat_toModel x) (inFormat_toModel y) numberX numberY)

theorem le_iff_extended
    {x y : Float}
    (numberX : x.isNaN = false)
    (numberY : y.isNaN = false) :
    x ≤ y ↔ extended x.toModel.unpack ≤ extended y.toModel.unpack := by
  rw [float_le_iff, le_eq_not_lt numberX numberY, ← not_lt, ← lt_iff_extended numberY numberX,
    float_lt_iff]
  simp

end Binary64

end CorridorRank
