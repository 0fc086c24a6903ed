import CorridorRank.Proofs.Doubles.Rounding

/-!
# Sums, differences, products and quotients of doubles

Each operation of Lean's model of doubles computes the exact result on significands and
exponents and rounds it once. On finite doubles this makes it the nearest double to the
exact rational result (`Binary64.extended_pack_add_finite`, `Binary64.extended_pack_mul_finite`,
`Binary64.extended_pack_div_finite`). With the infinities it is the nearest double to the sum
on the extended line `WithBot (WithTop ℚ)` (`Binary64.extended_pack_add`,
`Binary64.extended_pack_sub`), since rounding fixes both infinities.

Rounding is monotone, so each operation is too wherever its results are numbers: sums and
differences in both arguments (`Binary64.float_add_le_add`, `Binary64.float_sub_le_sub`),
products of doubles at least zero (`Binary64.float_mul_le_mul`) and quotients by a positive
double (`Binary64.float_div_le_div_right`). The rational value of a finite double
(`Binary64.toRat`) makes the rounding of sums and products explicit (`Binary64.toRat_add`,
`Binary64.toRat_mul`).
-/

namespace CorridorRank

open Float.Model (UnpackedFloat Format totalExponent)
open Float.Model.UnpackedFloat (ExtendedMantissa Accuracy)

namespace Binary64

/-! ## Sums, products and quotients of finite doubles -/

/-- The rational value of a finite unpacked double; an infinity and not-a-number have none,
and are given zero. -/
def value : UnpackedFloat → ℚ
  | .zero _ => 0
  | .finite s m e _ => signed s (m * 2 ^ e)
  | _ => 0

theorem signed_apply
    (s : UnpackedFloat.Sign)
    (n : ℕ) :
    ((s.apply n : ℤ) : ℚ) = signed s n := by
  cases s <;> simp [UnpackedFloat.Sign.apply, signed]

theorem signed_mul
    (s t : UnpackedFloat.Sign)
    (q r : ℚ) :
    signed (s * t) (q * r) = signed s q * signed t r := by
  cases s <;> cases t
  · show q * r = -q * -r
    ring
  · show -(q * r) = -q * r
    ring
  · show -(q * r) = q * -r
    ring
  · rfl

theorem signed_div
    (s t : UnpackedFloat.Sign)
    (q r : ℚ) :
    signed (s / t) (q / r) = signed s q / signed t r := by
  cases s <;> cases t
  · show q / r = -q / -r
    rw [neg_div_neg_eq]
  · show -(q / r) = -q / r
    rw [neg_div]
  · show -(q / r) = q / -r
    rw [div_neg]
  · rfl

/-- Shifting a significand left to a lower exponent `t` keeps its value. -/
theorem shiftLeft_value
    (m : ℕ)
    {e t : ℤ}
    (le : t ≤ e) :
    ((m <<< (e - t).toNat : ℕ) : ℚ) * 2 ^ t = m * 2 ^ e := by
  rw [Nat.shiftLeft_eq]
  push_cast
  rw [mul_assoc, ← zpow_natCast, ← zpow_add₀ two_ne_zero]
  congr 2
  omega

theorem signed_shiftLeft
    (s : UnpackedFloat.Sign)
    (m : ℕ)
    {e t : ℤ}
    (le : t ≤ e) :
    ((s.apply (m <<< (e - t).toNat : ℕ) : ℤ) : ℚ) * 2 ^ t = signed s (m * 2 ^ e) := by
  rw [signed_apply]
  cases s <;> simp only [signed, neg_mul, shiftLeft_value m le]

/-- The sum of two finite doubles in the format is the nearest double to the exact sum: a zero
leaves the other summand as it is, and two finite ones are added at the smaller exponent and
rounded. Two zeros add to a zero, whose sign does not move its point. -/
theorem extended_pack_add_finite
    {a b : UnpackedFloat}
    (formatA : InFormat a)
    (formatB : InFormat b)
    (finiteA : a.isFinite = true)
    (finiteB : b.isFinite = true) :
    extended (UnpackedFloat.unpack Format.binary64
        (UnpackedFloat.pack Format.binary64 (UnpackedFloat.add Format.binary64 a b))) =
      roundExtended (value a + value b) := by
  cases a with
  | notANumber => cases finiteA
  | infinity _ => cases finiteA
  | zero s =>
      cases b with
      | notANumber => cases finiteB
      | infinity _ => cases finiteB
      | zero t =>
          obtain ⟨z, zero⟩ : ∃ z, UnpackedFloat.add Format.binary64 (.zero s) (.zero t) = .zero z := by
            cases s <;> cases t <;> exact ⟨_, rfl⟩
          rw [zero, unpack_pack_zero]
          show point 0 = roundExtended (0 + 0)
          rw [add_zero, roundExtended_zero]
      | finite t m e valid =>
          rw [show UnpackedFloat.add Format.binary64 (.zero s) (.finite t m e valid) =
            .finite t m e valid from rfl, extended_pack_canonical t valid formatB.1, value, value,
            zero_add]
  | finite s m e valid =>
      cases b with
      | notANumber => cases finiteB
      | infinity _ => cases finiteB
      | zero t =>
          rw [show UnpackedFloat.add Format.binary64 (.finite s m e valid) (.zero t) =
            .finite s m e valid from rfl, extended_pack_canonical s valid formatA.1, value, value,
            add_zero]
      | finite t m' e' valid' =>
          show extended (UnpackedFloat.unpack Format.binary64 (UnpackedFloat.pack Format.binary64
            (UnpackedFloat.normalize Format.binary64 _ (min e e') .positive))) = _
          rw [extended_pack_normalize]
          congr 1
          rw [Int.cast_add, add_mul, signed_shiftLeft s m (min_le_left e e'),
            signed_shiftLeft t m' (min_le_right e e')]
          rfl

/-- Two finite doubles multiply at the sum of their exponents without a shift left: a full
significand makes the product at least `2^52`, and two subnormal ones put it below the least
exponent. -/
theorem mul_shifts
    {m m' : ℕ}
    {e e' : ℤ}
    (canonical : Canonical m e)
    (canonical' : Canonical m' e') :
    e + e' ≤ Format.binary64.targetExponent (totalExponent (m * m') (e + e')) := by
  rw [targetExponent_eq]
  have positive : 0 < m * m' := Nat.mul_pos canonical.positive canonical'.positive
  by_cases full : 2 ^ 52 ≤ m * m'
  · have digits := (Nat.le_log2 positive.ne').mpr full
    omega
  · have subnormal : e = -1074 := canonical.full.resolve_left fun large =>
      full (large.trans (Nat.le_mul_of_pos_right m canonical'.positive))
    have subnormal' : e' = -1074 := canonical'.full.resolve_left fun large =>
      full (large.trans (Nat.le_mul_of_pos_left m' canonical.positive))
    omega

/-- The product of two finite doubles in the format is the nearest double to the exact
product. -/
theorem extended_pack_mul_finite
    {a b : UnpackedFloat}
    (formatA : InFormat a)
    (formatB : InFormat b)
    (finiteA : a.isFinite = true)
    (finiteB : b.isFinite = true) :
    extended (UnpackedFloat.unpack Format.binary64
        (UnpackedFloat.pack Format.binary64 (UnpackedFloat.mul Format.binary64 a b))) =
      roundExtended (value a * value b) := by
  cases a with
  | notANumber => cases finiteA
  | infinity _ => cases finiteA
  | zero s =>
      cases b with
      | notANumber => cases finiteB
      | infinity _ => cases finiteB
      | zero t =>
          rw [show UnpackedFloat.mul Format.binary64 (.zero s) (.zero t) = .zero (s * t) from rfl,
            unpack_pack_zero, value, zero_mul, roundExtended_zero]
          rfl
      | finite t m e valid =>
          rw [show UnpackedFloat.mul Format.binary64 (.zero s) (.finite t m e valid) =
            .zero (s * t) from rfl, unpack_pack_zero, value, zero_mul, roundExtended_zero]
          rfl
  | finite s m e valid =>
      cases b with
      | notANumber => cases finiteB
      | infinity _ => cases finiteB
      | zero t =>
          rw [show UnpackedFloat.mul Format.binary64 (.finite s m e valid) (.zero t) =
            .zero (s * t) from rfl, unpack_pack_zero, value, mul_zero, roundExtended_zero]
          rfl
      | finite t m' e' valid' =>
          show extended (UnpackedFloat.unpack Format.binary64 (UnpackedFloat.pack Format.binary64
            (UnpackedFloat.roundWithAccuracy Format.binary64 (s * t) (m * m') (e + e') .exact))) = _
          rw [extended_pack_roundWithAccuracy (s * t) (represents_exact _)
            (mul_shifts formatA.1 formatB.1), value, value, ← signed_mul]
          congr 2
          push_cast
          rw [zpow_add₀ two_ne_zero]
          ring

/-- A quotient of naturals, with the accuracy its remainder gives, stands for the exact
quotient. -/
theorem represents_divide
    (n d : ℕ)
    (positive : 0 < d) :
    Represents (ExtendedMantissa.ofMantissaAndAccuracy (n / d)
      (UnpackedFloat.accuracyOfFraction (n % d) d)) ((n : ℚ) / d) := by
  have split : (n : ℚ) / d = (n / d : ℕ) + ((n % d : ℕ) : ℚ) / d := by
    have whole : ((d * (n / d) + n % d : ℕ) : ℚ) = n := by exact_mod_cast Nat.div_add_mod n d
    have dPositive : (0 : ℚ) < d := by exact_mod_cast positive
    rw [← whole]
    push_cast
    field_simp
  have below : ((n % d : ℕ) : ℚ) / d < 1 := by
    rw [div_lt_one (by exact_mod_cast positive)]
    exact_mod_cast Nat.mod_lt n positive
  unfold UnpackedFloat.accuracyOfFraction
  split_ifs with exact
  · show (n : ℚ) / d = (n / d : ℕ)
    rw [split, exact]
    simp
  · have above : 0 < ((n % d : ℕ) : ℚ) / d :=
      div_pos (by exact_mod_cast Nat.pos_of_ne_zero exact) (by exact_mod_cast positive)
    rcases lt_trichotomy (2 * (n % d)) d with lower | half | higher
    · rw [Nat.compare_eq_lt.mpr lower]
      have small : ((n % d : ℕ) : ℚ) / d < 1 / 2 := by
        rw [div_lt_iff₀ (by exact_mod_cast positive)]
        have : 2 * ((n % d : ℕ) : ℚ) < d := by exact_mod_cast lower
        linarith
      show ((n / d : ℕ) : ℚ) < n / d ∧ (n : ℚ) / d < (n / d : ℕ) + 1 / 2
      rw [split]
      constructor <;> linarith
    · rw [Nat.compare_eq_eq.mpr half]
      show (n : ℚ) / d = (n / d : ℕ) + 1 / 2
      rw [split]
      congr 1
      rw [div_eq_iff (by exact_mod_cast positive.ne')]
      have : 2 * ((n % d : ℕ) : ℚ) = d := by exact_mod_cast half
      linarith
    · rw [Nat.compare_eq_gt.mpr higher]
      have large : 1 / 2 < ((n % d : ℕ) : ℚ) / d := by
        rw [lt_div_iff₀ (by exact_mod_cast positive)]
        have : (d : ℚ) < 2 * ((n % d : ℕ) : ℚ) := by exact_mod_cast higher
        linarith
      show ((n / d : ℕ) : ℚ) + 1 / 2 < n / d ∧ (n : ℚ) / d < (n / d : ℕ) + 1
      rw [split]
      constructor <;> linarith

/-- A quotient of two finite doubles is computed at an exponent it does not need to shift left
from: at the least exponent, or with a quotient of at least 53 bits, the dividend having been
shifted left far enough past the divisor. -/
theorem div_shifts
    {m m' : ℕ}
    {e e' T : ℤ}
    (positive : 0 < m)
    (positive' : 0 < m')
    (target : T = min (e - e')
      (Format.binary64.targetExponent (totalExponent m e - totalExponent m' e'))) :
    T ≤ Format.binary64.targetExponent (totalExponent ((m <<< (e - e' - T).toNat) / m') T) := by
  rw [targetExponent_eq]
  by_cases least : T ≤ -1074
  · exact le_trans least (le_max_right _ _)
  · have bound : T ≤ (m.log2 : ℤ) - m'.log2 + e - e' - 53 := by
      simp only [target, Format.targetExponent, totalExponent, Format.mantissaBits,
        Format.minExponent] at least ⊢
      norm_num at least ⊢
      omega
    have full : 2 ^ 52 ≤ (m <<< (e - e' - T).toNat) / m' := by
      rw [Nat.le_div_iff_mul_le positive', Nat.shiftLeft_eq]
      calc 2 ^ 52 * m' ≤ 2 ^ 52 * 2 ^ (m'.log2 + 1) :=
            Nat.mul_le_mul_left _ Nat.lt_log2_self.le
        _ = 2 ^ (m'.log2 + 53) := by rw [← pow_add]; ring_nf
        _ ≤ 2 ^ (m.log2 + (e - e' - T).toNat) := Nat.pow_le_pow_right (by norm_num) (by omega)
        _ = 2 ^ m.log2 * 2 ^ (e - e' - T).toNat := pow_add _ _ _
        _ ≤ m * 2 ^ (e - e' - T).toNat :=
            Nat.mul_le_mul_right _ (Nat.log2_self_le positive.ne')
    have digits := (Nat.le_log2 (by omega)).mpr full
    omega

/-- The quotient of two finite doubles in the format, the divisor not zero, is the nearest
double to the exact quotient. -/
theorem extended_pack_div_finite
    {a b : UnpackedFloat}
    (formatA : InFormat a)
    (formatB : InFormat b)
    (finiteA : a.isFinite = true)
    (finiteB : b.isFinite = true)
    (nonzero : IsZero b = false) :
    extended (UnpackedFloat.unpack Format.binary64
        (UnpackedFloat.pack Format.binary64 (UnpackedFloat.div Format.binary64 a b))) =
      roundExtended (value a / value b) := by
  cases b with
  | notANumber => cases finiteB
  | infinity _ => cases finiteB
  | zero _ => cases nonzero
  | finite t m' e' valid' =>
      cases a with
      | notANumber => cases finiteA
      | infinity _ => cases finiteA
      | zero s =>
          rw [show UnpackedFloat.div Format.binary64 (.zero s) (.finite t m' e' valid') =
            .zero (s / t) from rfl, unpack_pack_zero, value, zero_div, roundExtended_zero]
          rfl
      | finite s m e valid =>
          show extended (UnpackedFloat.unpack Format.binary64 (UnpackedFloat.pack Format.binary64
            (UnpackedFloat.roundWithAccuracy Format.binary64 (s / t) _ _ _))) = _
          rw [extended_pack_roundWithAccuracy (s / t) (represents_divide _ m' valid')
            (div_shifts valid valid' rfl), value, value, ← signed_div]
          congr 2
          rw [div_mul_eq_mul_div, shiftLeft_value m (min_le_left _ _), zpow_sub₀ two_ne_zero]
          field_simp

/-! ## The extended line -/

/-- A map of the rationals carried over to the extended line, each infinity kept. -/
def extendPoint
    (f : ℚ → WithBot (WithTop ℚ))
    (x : WithBot (WithTop ℚ)) :
    WithBot (WithTop ℚ) :=
  x.recBotCoe ⊥ fun y => y.recTopCoe ⊤ f

@[simp] theorem extendPoint_bot
    (f : ℚ → WithBot (WithTop ℚ)) :
    extendPoint f ⊥ = ⊥ := rfl

@[simp] theorem extendPoint_top
    (f : ℚ → WithBot (WithTop ℚ)) :
    extendPoint f ⊤ = ⊤ := rfl

@[simp] theorem extendPoint_point
    (f : ℚ → WithBot (WithTop ℚ))
    (q : ℚ) :
    extendPoint f (point q) = f q := rfl

/-- A monotone map of the rationals stays monotone on the extended line. -/
theorem extendPoint_mono
    {f : ℚ → WithBot (WithTop ℚ)}
    (mono : Monotone f) :
    Monotone (extendPoint f) := by
  intro x y le
  induction x using WithBot.recBotCoe with
  | bot => exact bot_le
  | coe x =>
      induction y using WithBot.recBotCoe with
      | bot => exact absurd le (not_le.mpr (WithBot.bot_lt_coe x))
      | coe y =>
          induction y using WithTop.recTopCoe with
          | top => exact le_top
          | coe r =>
              induction x using WithTop.recTopCoe with
              | top => exact absurd le (not_le.mpr (point_lt_top r))
              | coe q => exact mono (point_le_point.mp le)

theorem roundExtended_monotone : Monotone roundExtended := fun _ _ le => roundExtended_mono le

/-- Reflecting the extended line through zero: the infinities change places. -/
def reflect
    (x : WithBot (WithTop ℚ)) :
    WithBot (WithTop ℚ) :=
  x.recBotCoe ⊤ fun y => y.recTopCoe ⊥ fun q => point (-q)

theorem reflect_antitone : Antitone reflect := by
  intro x y le
  induction x using WithBot.recBotCoe with
  | bot => exact le_top
  | coe x =>
      induction y using WithBot.recBotCoe with
      | bot => exact absurd le (not_le.mpr (WithBot.bot_lt_coe x))
      | coe y =>
          induction y using WithTop.recTopCoe with
          | top => exact bot_le
          | coe r =>
              induction x using WithTop.recTopCoe with
              | top => exact absurd le (not_le.mpr (point_lt_top r))
              | coe q => exact point_le_point.mpr (neg_le_neg (point_le_point.mp le))

@[simp] theorem point_add_point
    (q r : ℚ) :
    point q + point r = point (q + r) := rfl

@[simp] theorem top_add_point
    (q : ℚ) :
    (⊤ : WithBot (WithTop ℚ)) + point q = ⊤ := rfl

@[simp] theorem point_add_top
    (q : ℚ) :
    point q + (⊤ : WithBot (WithTop ℚ)) = ⊤ := rfl

@[simp] theorem top_add_top : (⊤ : WithBot (WithTop ℚ)) + ⊤ = ⊤ := rfl

/-! ## Operations with infinities -/

/-- A zero or a finite double stands at its value. -/
theorem extended_of_isFinite
    {a : UnpackedFloat}
    (finite : a.isFinite = true) :
    extended a = point (value a) := by
  cases a with
  | zero _ => rfl
  | finite _ _ _ _ => rfl
  | _ => cases finite

/-- A double of the format, rounded again, stays where it is. -/
theorem extendPoint_roundExtended
    {a : UnpackedFloat}
    (format : InFormat a)
    (number : a.isNaN = false) :
    extendPoint roundExtended (extended a) = extended a := by
  cases a with
  | notANumber => cases number
  | infinity s => cases s <;> rfl
  | zero _ => exact roundExtended_zero
  | finite s m e valid =>
      have packed := extended_pack_canonical s valid format.1
      rw [unpack_pack_canonical s valid format.1 format.2] at packed
      exact packed.symm

/-- The sum of two doubles of the format that is a number is the nearest double to the sum of
their points: an infinity absorbs a finite summand, and two finite summands are rounded. -/
theorem extended_pack_add
    {a b : UnpackedFloat}
    (formatA : InFormat a)
    (formatB : InFormat b)
    (number : (UnpackedFloat.add Format.binary64 a b).isNaN = false) :
    extended (UnpackedFloat.unpack Format.binary64
        (UnpackedFloat.pack Format.binary64 (UnpackedFloat.add Format.binary64 a b))) =
      extendPoint roundExtended (extended a + extended b) := by
  by_cases finite : a.isFinite = true ∧ b.isFinite = true
  · rw [extended_pack_add_finite formatA formatB finite.1 finite.2,
      extended_of_isFinite finite.1, extended_of_isFinite finite.2, point_add_point,
      extendPoint_point]
  cases a with
  | notANumber => cases number
  | infinity s =>
      cases b with
      | notANumber => cases number
      | infinity t =>
          cases s <;> cases t
          case positive.positive =>
            rw [show UnpackedFloat.add Format.binary64 (.infinity .positive) (.infinity .positive) =
              .infinity .positive from rfl, unpack_pack_infinity]
            rfl
          case negative.negative =>
            rw [show UnpackedFloat.add Format.binary64 (.infinity .negative) (.infinity .negative) =
              .infinity .negative from rfl, unpack_pack_infinity]
            rfl
          all_goals cases number
      | zero t =>
          rw [show UnpackedFloat.add Format.binary64 (.infinity s) (.zero t) = .infinity s from rfl,
            unpack_pack_infinity]
          cases s <;> rfl
      | finite t m e valid =>
          rw [show UnpackedFloat.add Format.binary64 (.infinity s) (.finite t m e valid) =
            .infinity s from rfl, unpack_pack_infinity]
          cases s <;> rfl
  | zero s =>
      cases b with
      | notANumber => cases number
      | infinity t =>
          rw [show UnpackedFloat.add Format.binary64 (.zero s) (.infinity t) = .infinity t from rfl,
            unpack_pack_infinity]
          cases t <;> rfl
      | _ => exact absurd ⟨rfl, rfl⟩ finite
  | finite s m e valid =>
      cases b with
      | notANumber => cases number
      | infinity t =>
          rw [show UnpackedFloat.add Format.binary64 (.finite s m e valid) (.infinity t) =
            .infinity t from rfl, unpack_pack_infinity]
          cases t <;> rfl
      | _ => exact absurd ⟨rfl, rfl⟩ finite

/-- Subtracting a double is adding its negation. -/
theorem unpacked_sub_eq_add_neg
    (a b : UnpackedFloat) :
    UnpackedFloat.sub Format.binary64 a b = UnpackedFloat.add Format.binary64 a b.neg := by
  cases a <;> cases b
  case finite.finite s m e _ t m' e' _ =>
    simp only [UnpackedFloat.sub, UnpackedFloat.add, UnpackedFloat.neg]
    cases t <;> simp [UnpackedFloat.Sign.apply, Int.sub_eq_add_neg]
  all_goals rfl

theorem isNaN_neg
    (a : UnpackedFloat) :
    a.neg.isNaN = a.isNaN := by
  cases a <;> rfl

theorem inFormat_neg
    {a : UnpackedFloat}
    (format : InFormat a) :
    InFormat a.neg := by
  cases a with
  | finite _ _ _ _ => exact format
  | _ => trivial

/-- Negation reflects a number through zero. -/
theorem extended_neg
    {a : UnpackedFloat}
    (number : a.isNaN = false) :
    extended a.neg = reflect (extended a) := by
  cases a with
  | notANumber => cases number
  | infinity s => cases s <;> rfl
  | zero _ =>
      show point 0 = point (-0)
      rw [neg_zero]
  | finite s m e _ =>
      cases s with
      | positive => rfl
      | negative =>
          show point _ = point (-(-_))
          rw [neg_neg]
          rfl

/-- The difference of two doubles of the format that is a number is the nearest double to the
sum of the first and the reflected second. -/
theorem extended_pack_sub
    {a b : UnpackedFloat}
    (formatA : InFormat a)
    (formatB : InFormat b)
    (number : (UnpackedFloat.sub Format.binary64 a b).isNaN = false) :
    extended (UnpackedFloat.unpack Format.binary64
        (UnpackedFloat.pack Format.binary64 (UnpackedFloat.sub Format.binary64 a b))) =
      extendPoint roundExtended (extended a + reflect (extended b)) := by
  have numberB : b.isNaN = false := by
    cases b with
    | notANumber => cases a <;> cases number
    | _ => rfl
  rw [unpacked_sub_eq_add_neg] at number ⊢
  rw [extended_pack_add formatA (inFormat_neg formatB) number, extended_neg numberB]

/-- A sum of numbers is not-a-number only when one summand is minus infinity. -/
theorem extended_eq_bot_of_isNaN_add
    {a b : UnpackedFloat}
    (numberA : a.isNaN = false)
    (numberB : b.isNaN = false)
    (nan : (UnpackedFloat.add Format.binary64 a b).isNaN = true) :
    extended a = ⊥ ∨ extended b = ⊥ := by
  rw [isNaN_add, numberA, numberB, Bool.false_or, Bool.false_or] at nan
  cases a <;> cases b <;> simp only [OppositeInfinities, Bool.false_eq_true] at nan
  case infinity.infinity s t =>
    cases s <;> cases t <;> first | exact Or.inl rfl | exact Or.inr rfl | cases nan

/-! ## Order of sums and differences of doubles -/

theorem numbers_of_add
    {x y : Float}
    (number : (x + y).isNaN = false) :
    x.isNaN = false ∧ y.isNaN = false := by
  have unpacked : (UnpackedFloat.add Format.binary64 x.toModel.unpack y.toModel.unpack).isNaN =
      false := by
    rw [← isNaN_unpack_pack]
    exact number
  rw [isNaN_add, Bool.or_eq_false_iff, Bool.or_eq_false_iff] at unpacked
  exact unpacked.1

theorem numbers_of_sub
    {x y : Float}
    (number : (x - y).isNaN = false) :
    x.isNaN = false ∧ y.isNaN = false := by
  have unpacked : (UnpackedFloat.sub Format.binary64 x.toModel.unpack y.toModel.unpack).isNaN =
      false := by
    rw [← isNaN_unpack_pack]
    exact number
  rw [unpacked_sub_eq_add_neg, isNaN_add, Bool.or_eq_false_iff, Bool.or_eq_false_iff] at unpacked
  rw [isNaN_neg] at unpacked
  exact unpacked.1

theorem extended_float_add
    {x y : Float}
    (number : (x + y).isNaN = false) :
    extended (x + y).toModel.unpack =
      extendPoint roundExtended (extended x.toModel.unpack + extended y.toModel.unpack) :=
  extended_pack_add (inFormat_toModel x) (inFormat_toModel y)
    (by rw [← isNaN_unpack_pack]; exact number)

theorem extended_float_sub
    {x y : Float}
    (number : (x - y).isNaN = false) :
    extended (x - y).toModel.unpack =
      extendPoint roundExtended (extended x.toModel.unpack + reflect (extended y.toModel.unpack)) :=
  extended_pack_sub (inFormat_toModel x) (inFormat_toModel y)
    (by rw [← isNaN_unpack_pack]; exact number)

theorem number_of_le_left
    {x y : Float}
    (le : x ≤ y) :
    x.isNaN = false :=
  Bool.eq_false_iff.mpr fun nan => by
    rw [float_le_iff, unpack_of_isNaN nan] at le
    cases le

theorem number_of_le_right
    {x y : Float}
    (le : x ≤ y) :
    y.isNaN = false :=
  Bool.eq_false_iff.mpr fun nan => not_le_of_isNaN nan le

/-- Sums of doubles keep order, wherever they are numbers. -/
theorem float_add_le_add
    {x x' y y' : Float}
    (leX : x ≤ x')
    (leY : y ≤ y')
    (number : (x + y).isNaN = false)
    (number' : (x' + y').isNaN = false) :
    x + y ≤ x' + y' := by
  rw [le_iff_extended number number', extended_float_add number, extended_float_add number']
  exact extendPoint_mono roundExtended_monotone
    (add_le_add ((le_iff_extended (number_of_le_left leX) (number_of_le_right leX)).mp leX)
      ((le_iff_extended (number_of_le_left leY) (number_of_le_right leY)).mp leY))

/-- Differences of doubles grow with the first and shrink with the second, wherever they are
numbers. -/
theorem float_sub_le_sub
    {x x' y y' : Float}
    (leX : x ≤ x')
    (leY : y' ≤ y)
    (number : (x - y).isNaN = false)
    (number' : (x' - y').isNaN = false) :
    x - y ≤ x' - y' := by
  rw [le_iff_extended number number', extended_float_sub number, extended_float_sub number']
  exact extendPoint_mono roundExtended_monotone
    (add_le_add ((le_iff_extended (number_of_le_left leX) (number_of_le_right leX)).mp leX)
      (reflect_antitone ((le_iff_extended (number_of_le_left leY) (number_of_le_right leY)).mp leY)))

/-- Adding a double at least zero never lowers a double, when the sum is a number. -/
theorem float_le_add_of_nonneg
    {x y : Float}
    (nonneg : 0.0 ≤ y)
    (number : (x + y).isNaN = false) :
    x ≤ x + y := by
  obtain ⟨numberX, -⟩ := numbers_of_add number
  have zero : extended (0.0 : Float).toModel.unpack = point 0 := rfl
  have raised : point 0 ≤ extended y.toModel.unpack := by
    rw [← zero]
    exact (le_iff_extended rfl (number_of_le_right nonneg)).mp nonneg
  rw [le_iff_extended numberX number, extended_float_add number]
  calc extended x.toModel.unpack
      = extendPoint roundExtended (extended x.toModel.unpack + point 0) := by
        rw [show point 0 = 0 from rfl, add_zero,
          extendPoint_roundExtended (inFormat_toModel x) numberX]
    _ ≤ extendPoint roundExtended (extended x.toModel.unpack + extended y.toModel.unpack) :=
        extendPoint_mono roundExtended_monotone (add_le_add le_rfl raised)

/-- A difference above zero stays a number when its first term grows and its second
shrinks: it could only fail by meeting minus infinity, which would have pulled it down. -/
theorem number_sub_of_le
    {x x' y y' : Float}
    (leX : x ≤ x')
    (leY : y' ≤ y)
    (positive : 0.0 < x - y) :
    (x' - y').isNaN = false := by
  have number : (x - y).isNaN = false :=
    Bool.eq_false_iff.mpr fun nan => not_lt_of_isNaN_right nan positive
  have placeX := (le_iff_extended (number_of_le_left leX) (number_of_le_right leX)).mp leX
  have placeY := reflect_antitone
    ((le_iff_extended (number_of_le_left leY) (number_of_le_right leY)).mp leY)
  have above : point 0 < extended (x - y).toModel.unpack :=
    (lt_iff_extended rfl number).mp positive
  refine Bool.eq_false_iff.mpr fun nan => ?_
  have unpacked : (UnpackedFloat.add Format.binary64 x'.toModel.unpack
      y'.toModel.unpack.neg).isNaN = true := by
    rw [← unpacked_sub_eq_add_neg, ← isNaN_unpack_pack]
    exact nan
  have bottom : extended x.toModel.unpack + reflect (extended y.toModel.unpack) = ⊥ := by
    rcases extended_eq_bot_of_isNaN_add (number_of_le_right leX)
        (by rw [isNaN_neg]; exact number_of_le_left leY) unpacked with
      low | low
    · rw [low] at placeX
      rw [le_bot_iff.mp placeX, WithBot.bot_add]
    · rw [extended_neg (number_of_le_left leY)] at low
      rw [low] at placeY
      rw [le_bot_iff.mp placeY, WithBot.add_bot]
  rw [extended_float_sub number, bottom, extendPoint_bot] at above
  exact not_lt_bot above

/-- Order of doubles is transitive where they are numbers, as on the extended line. -/
theorem float_le_trans
    {x y z : Float}
    (first : x ≤ y)
    (second : y ≤ z) :
    x ≤ z :=
  (le_iff_extended (number_of_le_left first) (number_of_le_right second)).mpr
    (((le_iff_extended (number_of_le_left first) (number_of_le_right first)).mp first).trans
      ((le_iff_extended (number_of_le_left second) (number_of_le_right second)).mp second))

theorem float_le_refl
    {x : Float}
    (number : x.isNaN = false) :
    x ≤ x :=
  (le_iff_extended number number).mpr le_rfl

/-- Of two numbers, one the other is not below is at most it. -/
theorem float_le_of_not_lt
    {x y : Float}
    (numberX : x.isNaN = false)
    (numberY : y.isNaN = false)
    (notBelow : ¬ y < x) :
    x ≤ y := by
  rw [le_iff_extended numberX numberY, ← not_lt, ← lt_iff_extended numberY numberX]
  exact notBelow

theorem float_lt_of_lt_of_le
    {x y z : Float}
    (first : x < y)
    (second : y ≤ z) :
    x < z := by
  have numberX : x.isNaN = false := Bool.eq_false_iff.mpr fun nan => not_lt_of_isNaN_left nan first
  have numberY : y.isNaN = false := number_of_le_left second
  have numberZ : z.isNaN = false := number_of_le_right second
  exact (lt_iff_extended numberX numberZ).mpr
    (lt_of_lt_of_le ((lt_iff_extended numberX numberY).mp first)
      ((le_iff_extended numberY numberZ).mp second))

/-- A number plus a finite double is a number: only opposite infinities add to
not-a-number. -/
theorem number_add_of_isFinite
    {x y : Float}
    (number : x.isNaN = false)
    (finite : y.isFinite = true) :
    (x + y).isNaN = false := by
  obtain ⟨numberY, notInfinite⟩ := number_of_isFinite finite
  refine Bool.eq_false_iff.mpr fun nan => ?_
  rcases (isNaN_add_iff x y).mp nan with nanX | nanY | ⟨-, infinite, -⟩
  · rw [number] at nanX
    cases nanX
  · rw [numberY] at nanY
    cases nanY
  · rw [notInfinite] at infinite
    cases infinite

theorem numbers_of_mul
    {x y : Float}
    (number : (x * y).isNaN = false) :
    x.isNaN = false ∧ y.isNaN = false := by
  have unpacked : (UnpackedFloat.mul Format.binary64 x.toModel.unpack y.toModel.unpack).isNaN =
      false := by
    rw [← isNaN_unpack_pack]
    exact number
  rw [isNaN_mul, Bool.or_eq_false_iff, Bool.or_eq_false_iff, Bool.or_eq_false_iff] at unpacked
  exact unpacked.1.1

/-! ## Products and quotients of doubles at least zero -/

theorem nonneg_of_zero_le
    {x : Float}
    (nonneg : 0.0 ≤ x) :
    Nonneg x.toModel.unpack := by
  rw [float_le_iff, unpack_zero] at nonneg
  generalize x.toModel.unpack = u at nonneg ⊢
  cases u with
  | infinity s => cases s <;> trivial
  | finite s _ _ _ => cases s <;> trivial
  | _ => trivial

/-- A double above zero is plus infinity or a positive finite double. -/
theorem positive_of_zero_lt
    {x : Float}
    (positive : 0.0 < x) :
    x.toModel.unpack = .infinity .positive ∨
      ∃ m e valid, x.toModel.unpack = .finite .positive m e valid := by
  rw [float_lt_iff, unpack_zero] at positive
  generalize x.toModel.unpack = u at positive ⊢
  cases u with
  | infinity s => cases s <;> first | exact Or.inl rfl | cases positive
  | finite s _ _ _ => cases s <;> first | exact Or.inr ⟨_, _, _, rfl⟩ | cases positive
  | _ => cases positive

theorem Nonneg.value_nonneg
    {a : UnpackedFloat}
    (nonneg : Nonneg a) :
    0 ≤ value a := by
  cases a with
  | finite s m e valid =>
      cases s with
      | positive => exact (value_pos e valid).le
      | negative => exact nonneg.elim
  | _ => exact le_rfl

theorem Nonneg.isFinite_of_ne
    {a : UnpackedFloat}
    (nonneg : Nonneg a)
    (notTop : a ≠ .infinity .positive) :
    a.isFinite = true := by
  cases a with
  | notANumber => exact nonneg.elim
  | infinity s =>
      cases s with
      | positive => exact absurd rfl notTop
      | negative => exact nonneg.elim
  | _ => rfl

/-- A product of doubles at least zero, one of them plus infinity, is plus infinity when it is
a number. The other factor is then a positive finite double or plus infinity, since a zero factor
would make the product not-a-number. -/
theorem extended_pack_mul_top
    {a b : UnpackedFloat}
    (nonnegA : Nonneg a)
    (nonnegB : Nonneg b)
    (infinite : a = .infinity .positive ∨ b = .infinity .positive)
    (number : (UnpackedFloat.mul Format.binary64 a b).isNaN = false) :
    extended (UnpackedFloat.unpack Format.binary64
      (UnpackedFloat.pack Format.binary64 (UnpackedFloat.mul Format.binary64 a b))) = ⊤ := by
  have positiveInfinity : ∀ {c : UnpackedFloat}, c = .infinity .positive →
      extended (UnpackedFloat.unpack Format.binary64 (UnpackedFloat.pack Format.binary64 c)) = ⊤ :=
    fun same => by rw [same, unpack_pack_infinity]; rfl
  rcases infinite with rfl | rfl
  · cases b with
    | notANumber => exact nonnegB.elim
    | zero _ => cases number
    | infinity t =>
        cases t with
        | positive => exact positiveInfinity rfl
        | negative => exact nonnegB.elim
    | finite t _ _ _ =>
        cases t with
        | positive => exact positiveInfinity rfl
        | negative => exact nonnegB.elim
  · cases a with
    | notANumber => exact nonnegA.elim
    | zero _ => cases number
    | infinity t =>
        cases t with
        | positive => exact positiveInfinity rfl
        | negative => exact nonnegA.elim
    | finite t _ _ _ =>
        cases t with
        | positive => exact positiveInfinity rfl
        | negative => exact nonnegA.elim

/-- Products of doubles at least zero keep order, wherever they are numbers. Below finite doubles
the factors are finite too, and there the products are the exact ones rounded. -/
theorem float_mul_le_mul
    {x x' y y' : Float}
    (nonnegX : 0.0 ≤ x)
    (nonnegY : 0.0 ≤ y)
    (leX : x ≤ x')
    (leY : y ≤ y')
    (number : (x * y).isNaN = false)
    (number' : (x' * y').isNaN = false) :
    x * y ≤ x' * y' := by
  have placeX := (le_iff_extended (number_of_le_left leX) (number_of_le_right leX)).mp leX
  have placeY := (le_iff_extended (number_of_le_left leY) (number_of_le_right leY)).mp leY
  have nonnegX' := nonneg_of_zero_le (float_le_trans nonnegX leX)
  have nonnegY' := nonneg_of_zero_le (float_le_trans nonnegY leY)
  have unpacked' : (UnpackedFloat.mul Format.binary64 x'.toModel.unpack
      y'.toModel.unpack).isNaN = false := by
    rw [← isNaN_unpack_pack]
    exact number'
  rw [le_iff_extended number number']
  by_cases infinite : x'.toModel.unpack = .infinity .positive ∨
      y'.toModel.unpack = .infinity .positive
  · rw [show extended (x' * y').toModel.unpack = ⊤ from
      extended_pack_mul_top nonnegX' nonnegY' infinite unpacked']
    exact le_top
  rw [not_or] at infinite
  have finiteX' := nonnegX'.isFinite_of_ne infinite.1
  have finiteY' := nonnegY'.isFinite_of_ne infinite.2
  rw [extended_of_isFinite finiteX'] at placeX
  rw [extended_of_isFinite finiteY'] at placeY
  have finiteX := (nonneg_of_zero_le nonnegX).isFinite_of_ne fun top => by
    rw [top] at placeX
    exact not_le.mpr (point_lt_top _) placeX
  have finiteY := (nonneg_of_zero_le nonnegY).isFinite_of_ne fun top => by
    rw [top] at placeY
    exact not_le.mpr (point_lt_top _) placeY
  rw [extended_of_isFinite finiteX] at placeX
  rw [extended_of_isFinite finiteY] at placeY
  show extended (UnpackedFloat.unpack Format.binary64 (UnpackedFloat.pack Format.binary64
      (UnpackedFloat.mul Format.binary64 x.toModel.unpack y.toModel.unpack))) ≤
    extended (UnpackedFloat.unpack Format.binary64 (UnpackedFloat.pack Format.binary64
      (UnpackedFloat.mul Format.binary64 x'.toModel.unpack y'.toModel.unpack)))
  rw [extended_pack_mul_finite (inFormat_toModel x) (inFormat_toModel y) finiteX finiteY,
    extended_pack_mul_finite (inFormat_toModel x') (inFormat_toModel y') finiteX' finiteY']
  exact roundExtended_mono (mul_le_mul (point_le_point.mp placeX) (point_le_point.mp placeY)
    (nonneg_of_zero_le nonnegY).value_nonneg nonnegX'.value_nonneg)

/-- A product of doubles at least zero is at least zero, when it is a number. -/
theorem float_mul_nonneg
    {x y : Float}
    (nonnegX : 0.0 ≤ x)
    (nonnegY : 0.0 ≤ y)
    (number : (x * y).isNaN = false) :
    0.0 ≤ x * y := by
  have zeros : (0.0 * 0.0 : Float) = 0.0 := rfl
  have product := float_mul_le_mul (by decide) (by decide) nonnegX nonnegY rfl number
  rwa [zeros] at product

/-- A quotient by plus infinity is zero, when it is a number. -/
theorem extended_pack_div_top
    {a : UnpackedFloat}
    (number : (UnpackedFloat.div Format.binary64 a (.infinity .positive)).isNaN = false) :
    extended (UnpackedFloat.unpack Format.binary64 (UnpackedFloat.pack Format.binary64
      (UnpackedFloat.div Format.binary64 a (.infinity .positive)))) = point 0 := by
  cases a with
  | notANumber => cases number
  | infinity _ => cases number
  | zero s =>
      rw [show UnpackedFloat.div Format.binary64 (.zero s) (.infinity .positive) =
        .zero (s / .positive) from rfl, unpack_pack_zero]
      rfl
  | finite s m e valid =>
      rw [show UnpackedFloat.div Format.binary64 (.finite s m e valid) (.infinity .positive) =
        .zero (s / .positive) from rfl, unpack_pack_zero]
      rfl

/-- A quotient by a positive finite double of the format, when it is a number, is the nearest
double to the quotient of the dividend's point; an infinite dividend stays infinite. -/
theorem extended_pack_div_positive
    {a : UnpackedFloat}
    {m : ℕ}
    {e : ℤ}
    {valid : 0 < m}
    (formatA : InFormat a)
    (formatB : InFormat (.finite .positive m e valid))
    (number : (UnpackedFloat.div Format.binary64 a (.finite .positive m e valid)).isNaN = false) :
    extended (UnpackedFloat.unpack Format.binary64 (UnpackedFloat.pack Format.binary64
        (UnpackedFloat.div Format.binary64 a (.finite .positive m e valid)))) =
      extendPoint (fun q => roundExtended (q / value (.finite .positive m e valid)))
        (extended a) := by
  cases a with
  | notANumber => cases number
  | infinity s =>
      rw [show UnpackedFloat.div Format.binary64 (.infinity s) (.finite .positive m e valid) =
        .infinity (s / .positive) from rfl, unpack_pack_infinity]
      cases s <;> rfl
  | zero s =>
      rw [show UnpackedFloat.div Format.binary64 (.zero s) (.finite .positive m e valid) =
        .zero (s / .positive) from rfl, unpack_pack_zero]
      show point 0 = roundExtended (0 / _)
      rw [zero_div, roundExtended_zero]
  | finite s m' e' valid' =>
      rw [extended_pack_div_finite formatA formatB rfl rfl rfl]
      rfl

/-- Quotients by a double above zero grow with the dividend, wherever they are numbers. -/
theorem float_div_le_div_right
    {x x' y : Float}
    (le : x ≤ x')
    (positive : 0.0 < y)
    (number : (x / y).isNaN = false)
    (number' : (x' / y).isNaN = false) :
    x / y ≤ x' / y := by
  have unpacked : ∀ {z : Float}, (z / y).isNaN = false →
      (UnpackedFloat.div Format.binary64 z.toModel.unpack y.toModel.unpack).isNaN = false :=
    fun numberZ => by
      rw [← isNaN_unpack_pack]
      exact numberZ
  rw [le_iff_extended number number']
  show extended (UnpackedFloat.unpack Format.binary64 (UnpackedFloat.pack Format.binary64
      (UnpackedFloat.div Format.binary64 x.toModel.unpack y.toModel.unpack))) ≤
    extended (UnpackedFloat.unpack Format.binary64 (UnpackedFloat.pack Format.binary64
      (UnpackedFloat.div Format.binary64 x'.toModel.unpack y.toModel.unpack)))
  have quotientX := unpacked number
  have quotientX' := unpacked number'
  rcases positive_of_zero_lt positive with top | ⟨m, e, valid, finite⟩
  · rw [top] at quotientX quotientX' ⊢
    rw [extended_pack_div_top quotientX, extended_pack_div_top quotientX']
  · have formatY := inFormat_toModel y
    rw [finite] at quotientX quotientX' formatY ⊢
    rw [extended_pack_div_positive (inFormat_toModel x) formatY quotientX,
      extended_pack_div_positive (inFormat_toModel x') formatY quotientX']
    exact extendPoint_mono
      (fun _ _ less => roundExtended_mono (div_le_div_of_nonneg_right less (value_pos e valid).le))
      ((le_iff_extended (number_of_le_left le) (number_of_le_right le)).mp le)

/-- A quotient of a number by a positive finite double is a number. -/
theorem number_div_of_positive
    {x y : Float}
    (number : x.isNaN = false)
    (positive : 0.0 < y)
    (finite : y.isFinite = true) :
    (x / y).isNaN = false := by
  show (UnpackedFloat.unpack Format.binary64 (UnpackedFloat.pack Format.binary64
    (UnpackedFloat.div Format.binary64 x.toModel.unpack y.toModel.unpack))).isNaN = false
  rw [isNaN_unpack_pack]
  change x.toModel.unpack.isNaN = false at number
  rcases positive_of_zero_lt positive with top | ⟨m, e, valid, positiveY⟩
  · change y.toModel.unpack.isFinite = true at finite
    rw [top] at finite
    cases finite
  · rw [positiveY]
    generalize x.toModel.unpack = u at number ⊢
    cases u with
    | notANumber => cases number
    | finite s m' e' valid' => exact isNaN_roundWithAccuracy ..
    | _ => rfl

/-- A quotient by not-a-number is not-a-number. -/
theorem isNaN_div_of_isNaN_right
    {x y : Float}
    (nan : y.isNaN = true) :
    (x / y).isNaN = true := by
  show (UnpackedFloat.unpack Format.binary64 (UnpackedFloat.pack Format.binary64
    (UnpackedFloat.div Format.binary64 x.toModel.unpack y.toModel.unpack))).isNaN = true
  rw [isNaN_unpack_pack, unpack_of_isNaN nan]
  cases x.toModel.unpack <;> rfl

/-- A quotient by a positive double that comes out above one grows with the dividend: such a
divisor is finite, since a quotient by plus infinity is zero or not-a-number. -/
theorem div_le_div_of_one_lt
    {x x' y : Float}
    (le : x ≤ x')
    (positive : 0.0 < y)
    (above : 1.0 < x / y) :
    x / y ≤ x' / y := by
  have number : (x / y).isNaN = false :=
    Bool.eq_false_iff.mpr fun nan => not_lt_of_isNaN_right nan above
  rcases positive_of_zero_lt positive with top | ⟨m, e, valid, finite⟩
  · have unpacked : (UnpackedFloat.div Format.binary64 x.toModel.unpack
        (.infinity .positive)).isNaN = false := by
      rw [← top, ← isNaN_unpack_pack]
      exact number
    have zero : extended (x / y).toModel.unpack = point 0 := by
      show extended (UnpackedFloat.unpack Format.binary64 (UnpackedFloat.pack Format.binary64
        (UnpackedFloat.div Format.binary64 x.toModel.unpack y.toModel.unpack))) = _
      rw [top]
      exact extended_pack_div_top unpacked
    have below := (lt_iff_extended rfl number).mp above
    have one := (lt_iff_extended rfl rfl).mp (by decide : (0.0 : Float) < 1.0)
    rw [zero] at below
    exact absurd below (lt_asymm one)
  · have finiteY : y.isFinite = true := by
      show y.toModel.unpack.isFinite = true
      rw [finite]
      rfl
    exact float_div_le_div_right le positive number
      (number_div_of_positive (number_of_le_right le) positive finiteY)

/-! ## Rational values of finite doubles -/

/-- The rational a double stands for; an infinity and not-a-number stand for none and are
given zero. -/
def toRat
    (x : Float) :
    ℚ := value x.toModel.unpack

/-- A rounded point of the extended line is a point only when it rounds a rational, to its
nearest double. -/
theorem eq_point_of_extendPoint_roundExtended
    {z : WithBot (WithTop ℚ)}
    {r : ℚ}
    (rounded : extendPoint roundExtended z = point r) :
    ∃ q, z = point q ∧ r = nearest q := by
  induction z using WithBot.recBotCoe with
  | bot => exact absurd rounded (ne_of_lt (bot_lt_point r))
  | coe y =>
      induction y using WithTop.recTopCoe with
      | top => exact absurd rounded (ne_of_gt (point_lt_top r))
      | coe q =>
          refine ⟨q, rfl, ?_⟩
          change roundExtended q = point r at rounded
          unfold roundExtended at rounded
          split_ifs at rounded
          · exact absurd rounded (ne_of_gt (point_lt_top r))
          · exact absurd rounded (ne_of_lt (bot_lt_point r))
          · exact (point_inj.mp rounded).symm

/-- A sum on the extended line is a point only when both summands are. -/
theorem eq_point_of_add
    {z w : WithBot (WithTop ℚ)}
    {q : ℚ}
    (sum : z + w = point q) :
    ∃ a b, z = point a ∧ w = point b ∧ q = a + b := by
  induction z using WithBot.recBotCoe with
  | bot => exact absurd sum (by rw [WithBot.bot_add]; exact ne_of_lt (bot_lt_point q))
  | coe y =>
      induction w using WithBot.recBotCoe with
      | bot => exact absurd sum (by rw [WithBot.add_bot]; exact ne_of_lt (bot_lt_point q))
      | coe y' =>
          induction y using WithTop.recTopCoe with
          | top => exact absurd sum (by rw [← WithBot.coe_add, WithTop.top_add]; exact ne_of_gt (point_lt_top q))
          | coe a =>
              induction y' using WithTop.recTopCoe with
              | top => exact absurd sum (by rw [← WithBot.coe_add, WithTop.add_top]; exact ne_of_gt (point_lt_top q))
              | coe b => exact ⟨a, b, rfl, rfl, (point_inj.mp sum).symm⟩

theorem extended_eq_point_iff
    {x : Float}
    {q : ℚ} :
    extended x.toModel.unpack = point q ↔ x.isFinite = true ∧ toRat x = q := by
  constructor
  · intro placed
    change extended x.toModel.unpack = point q at placed
    change x.toModel.unpack.isFinite = true ∧ value x.toModel.unpack = q
    generalize x.toModel.unpack = u at placed ⊢
    cases u with
    | notANumber => exact absurd placed (ne_of_lt (bot_lt_point q))
    | infinity s =>
        cases s
        · exact absurd placed (ne_of_lt (bot_lt_point q))
        · exact absurd placed (ne_of_gt (point_lt_top q))
    | zero _ => exact ⟨rfl, point_inj.mp placed⟩
    | finite _ _ _ _ => exact ⟨rfl, point_inj.mp placed⟩
  · rintro ⟨finite, rfl⟩
    exact extended_of_isFinite finite

/-- A finite sum of doubles has finite summands, and is the nearest double to their sum. -/
theorem toRat_add
    {x y : Float}
    (finite : (x + y).isFinite = true) :
    x.isFinite = true ∧ y.isFinite = true ∧ toRat (x + y) = nearest (toRat x + toRat y) := by
  have number := (number_of_isFinite finite).1
  have placed := extended_eq_point_iff.mpr ⟨finite, rfl⟩
  rw [extended_float_add number] at placed
  obtain ⟨q, sum, rounded⟩ := eq_point_of_extendPoint_roundExtended placed
  obtain ⟨a, b, placedX, placedY, rfl⟩ := eq_point_of_add sum
  obtain ⟨finiteX, rfl⟩ := extended_eq_point_iff.mp placedX
  obtain ⟨finiteY, rfl⟩ := extended_eq_point_iff.mp placedY
  exact ⟨finiteX, finiteY, rounded⟩

/-- Only a finite product has finite factors: an infinity times anything is an infinity or
not-a-number. -/
theorem isFinite_of_mul
    {a b : UnpackedFloat}
    (finite : (UnpackedFloat.mul Format.binary64 a b).isFinite = true) :
    a.isFinite = true ∧ b.isFinite = true := by
  cases a <;> cases b <;> first | exact ⟨rfl, rfl⟩ | cases finite

theorem isFinite_of_unpack_pack
    {u : UnpackedFloat}
    (finite : (UnpackedFloat.unpack Format.binary64 (UnpackedFloat.pack Format.binary64 u)).isFinite
      = true) :
    u.isFinite = true := by
  cases u with
  | notANumber => cases finite
  | infinity s =>
      rw [unpack_pack_infinity] at finite
      cases finite
  | _ => rfl

/-- A finite product of doubles has finite factors, and is the nearest double to their
product. -/
theorem toRat_mul
    {x y : Float}
    (finite : (x * y).isFinite = true) :
    x.isFinite = true ∧ y.isFinite = true ∧ toRat (x * y) = nearest (toRat x * toRat y) := by
  obtain ⟨finiteX, finiteY⟩ := isFinite_of_mul (isFinite_of_unpack_pack finite)
  have placed := extended_eq_point_iff.mpr ⟨finite, rfl⟩
  change extended (UnpackedFloat.unpack Format.binary64 (UnpackedFloat.pack Format.binary64
    (UnpackedFloat.mul Format.binary64 x.toModel.unpack y.toModel.unpack))) = _ at placed
  rw [extended_pack_mul_finite (inFormat_toModel x) (inFormat_toModel y) finiteX finiteY] at placed
  refine ⟨finiteX, finiteY, ?_⟩
  have rounded := eq_point_of_extendPoint_roundExtended (z := point (toRat x * toRat y)) placed
  obtain ⟨q, same, nearestQ⟩ := rounded
  rw [nearestQ, point_inj.mp same]

end Binary64

end CorridorRank
