import CorridorRank.Proofs.Doubles.Order

/-!
# Lean's doubles round to the nearest

Lean's model of doubles (`Float.Model`) computes an operation exactly on significands and
exponents and then rounds: it shifts the significand right to the exponent of its last place,
keeping what it shifts out as a round bit and a sticky bit, rounds on those bits to the
nearest integer with ties to even, and shifts once more when the significand rounded up to
`2^53`. Packing the result into 64 bits turns an exponent beyond the range into an infinity.

A significand with its round and sticky bits stands for a rational (`Binary64.Represents`):
shifting right halves it, and rounding on the bits is rounding it to the nearest integer
(`Binary64.Represents.roundedMantissa_eq`). So rounding gives the nearest double to the value
the significand stands for (`Binary64.roundWithAccuracy_eq`), and packing that puts it on the
extended line, as an infinity past the largest finite double
(`Binary64.extended_pack_ofUnits`).

Main statements: `Binary64.extended_pack_roundWithAccuracy`, `Binary64.extended_pack_round` and
`Binary64.extended_pack_normalize`, one for each way the operations round.
-/

namespace CorridorRank

open Float.Model (UnpackedFloat Format totalExponent)
open Float.Model.UnpackedFloat (ExtendedMantissa Accuracy)

namespace Binary64

/-! ## Significands with a round and a sticky bit -/

/-- An extended significand stands for the rational `x`, in units of its last place: `x` is the
significand plus the fraction its round and sticky bits tell, which is none, below a half, a
half, or above a half. -/
def Represents
    (em : ExtendedMantissa)
    (x : ℚ) :
    Prop :=
  match em.roundBit, em.stickyBit with
  | false, false => x = em.mantissa
  | false, true => (em.mantissa : ℚ) < x ∧ x < em.mantissa + 1 / 2
  | true, false => x = em.mantissa + 1 / 2
  | true, true => (em.mantissa : ℚ) + 1 / 2 < x ∧ x < em.mantissa + 1

theorem Represents.bounds
    {em : ExtendedMantissa}
    {x : ℚ}
    (rep : Represents em x) :
    (em.mantissa : ℚ) ≤ x ∧ x < em.mantissa + 1 := by
  obtain ⟨m, r, s⟩ := em
  cases r <;> cases s <;> simp only [Represents] at rep ⊢ <;> constructor <;> linarith

/-- The round and sticky bits round to the nearest integer, a tie to the even one. -/
theorem Represents.roundedMantissa_eq
    {em : ExtendedMantissa}
    {x : ℚ}
    (rep : Represents em x) :
    (em.roundedMantissa : ℤ) = roundEven x := by
  have floor : ⌊x⌋ = (em.mantissa : ℤ) := by
    rw [Int.floor_eq_iff]
    push_cast
    exact rep.bounds
  rw [roundEven_of_floor_eq floor]
  obtain ⟨m, r, s⟩ := em
  cases r <;> cases s <;> simp only [Represents] at rep <;>
    simp only [ExtendedMantissa.roundedMantissa, ExtendedMantissa.accuracy,
      Accuracy.roundToNearestEven]
  case false.false =>
    simp [rep]
  case false.true =>
    rw [if_pos (by push_cast; linarith)]
  case true.false =>
    rw [if_neg (by push_cast; linarith), if_neg (by push_cast; linarith)]
    rcases Nat.mod_two_eq_zero_or_one m with even | odd
    · rw [if_pos (by omega), even]
      rfl
    · rw [if_neg (by omega), odd]
      rfl
  case true.true =>
    rw [if_neg (by push_cast; linarith), if_pos (by push_cast; linarith)]
    rfl

/-- Shifting a significand one place right halves what it stands for: the bit shifted out
becomes the round bit, and the old round and sticky bits the sticky bit. -/
theorem Represents.shiftRightOne
    {em : ExtendedMantissa}
    {x : ℚ}
    (rep : Represents em x) :
    Represents em.shiftRightOne (x / 2) := by
  obtain ⟨m, r, s⟩ := em
  have halves : (m : ℚ) = 2 * (m / 2 : ℕ) + (m % 2 : ℕ) := by
    exact_mod_cast (Nat.div_add_mod m 2).symm
  rcases Nat.mod_two_eq_zero_or_one m with even | odd <;>
    cases r <;> cases s <;>
    simp_all [Represents, ExtendedMantissa.shiftRightOne] <;>
    first | (constructor <;> linarith) | linarith

/-- Shifting right by `k` places divides what a significand stands for by `2^k`. -/
theorem Represents.shift
    {em : ExtendedMantissa}
    {x : ℚ}
    (rep : Represents em x)
    (k : ℕ) :
    Represents (em >>> k) (x / 2 ^ k) := by
  induction k with
  | zero =>
      rw [pow_zero, div_one]
      exact rep
  | succ k ih =>
      have halved := ih.shiftRightOne
      rw [div_div, ← pow_succ] at halved
      exact halved

theorem represents_exact
    (m : ℕ) :
    Represents (ExtendedMantissa.ofMantissaAndAccuracy m .exact) m := rfl

@[simp] theorem mantissa_ofMantissaAndAccuracy
    (m : ℕ)
    (acc : Accuracy) :
    (ExtendedMantissa.ofMantissaAndAccuracy m acc).mantissa = m := by
  cases acc with
  | exact => rfl
  | inexact o => cases o <;> rfl

/-! ## Rounding a significand -/

/-- The exponent that rounding shifts a significand `m` at exponent `e` to: 52 places below
its leading digit, and never below `-1074`. -/
theorem targetExponent_eq
    (m : ℕ)
    (e : ℤ) :
    Format.binary64.targetExponent (totalExponent m e) = max ((m.log2 : ℤ) + e - 52) (-1074) := by
  simp only [Format.targetExponent, totalExponent, Format.mantissaBits, Format.minExponent]
  norm_num
  omega

/-- Where rounding does not shift left, the exponent it shifts to is the last place of the
value it rounds. With a zero significand the value is below `2^e`, so its leading binary digit is
below `e`. -/
theorem targetExponent_eq_lastPlace
    {m : ℕ}
    {e : ℤ}
    {acc : Accuracy}
    {x : ℚ}
    (rep : Represents (ExtendedMantissa.ofMantissaAndAccuracy m acc) x)
    (shifts : e ≤ Format.binary64.targetExponent (totalExponent m e))
    (positive : 0 < x) :
    Format.binary64.targetExponent (totalExponent m e) = lastPlace (x * 2 ^ e) := by
  have bounds := rep.bounds
  rw [mantissa_ofMantissaAndAccuracy] at bounds
  rw [targetExponent_eq] at shifts ⊢
  unfold lastPlace
  rcases Nat.eq_zero_or_pos m with zero | nonzero
  · subst zero
    have below : x * 2 ^ e < 2 ^ e := by
      have := bounds.2
      simp only [Nat.cast_zero, zero_add] at this
      exact mul_lt_of_lt_one_left (zpow_pos two_pos _) this
    have leading : Int.log 2 (x * 2 ^ e) < e :=
      (Int.lt_zpow_iff_log_lt one_lt_two (mul_pos positive (zpow_pos two_pos _))).mp
        (by exact_mod_cast below)
    simp only [Nat.log2_zero, Nat.cast_zero, zero_add] at shifts ⊢
    omega
  · have lower : (m : ℚ) * 2 ^ e ≤ x * 2 ^ e :=
      mul_le_mul_of_nonneg_right bounds.1 (zpow_nonneg zero_le_two _)
    have upper : x * 2 ^ e < (m + 1) * 2 ^ e :=
      mul_lt_mul_of_pos_right bounds.2 (zpow_pos two_pos _)
    rw [log_two_of_significand nonzero lower upper]

/-- The unpacked double of a sign and a significand of at most `2^53` units of `2^E`: a zero,
the significand itself, or, for `2^53`, the first significand of the next binade. -/
def ofUnits
    (s : UnpackedFloat.Sign)
    (n : ℕ)
    (E : ℤ) :
    UnpackedFloat :=
  if valid : n = 0 then .zero s
  else if n < 2 ^ 53 then .finite s n E (Nat.pos_of_ne_zero valid)
  else .finite s (2 ^ 52) (E + 1) (Nat.two_pow_pos 52)

/-- A significand below `2^53` needs no second shift. -/
theorem shiftToTargetExponent_small
    {n : ℕ}
    {E : ℤ}
    (small : n < 2 ^ 53)
    (least : -1074 ≤ E) :
    UnpackedFloat.shiftToTargetExponent Format.binary64 n E .exact = (⟨n, false, false⟩, E) := by
  have digits : n.log2 ≤ 52 := by
    rcases Nat.eq_zero_or_pos n with zero | nonzero
    · simp [zero]
    · exact Nat.le_of_lt_succ ((Nat.log2_lt nonzero.ne').mpr small)
  have stays : (Format.binary64.targetExponent (totalExponent n E) - E).toNat = 0 := by
    rw [targetExponent_eq]
    omega
  simp [UnpackedFloat.shiftToTargetExponent, UnpackedFloat.shiftToExponent, stays,
    HShiftRight.hShiftRight, Nat.repeat, ExtendedMantissa.ofMantissaAndAccuracy]

/-- A significand that rounded up to `2^53` is shifted once more, exactly, into the next
binade. -/
theorem shiftToTargetExponent_carry
    {E : ℤ}
    (least : -1074 ≤ E) :
    UnpackedFloat.shiftToTargetExponent Format.binary64 (2 ^ 53) E .exact =
      (⟨2 ^ 52, false, false⟩, E + 1) := by
  have once : (Format.binary64.targetExponent (totalExponent (2 ^ 53) E) - E).toNat = 1 := by
    rw [targetExponent_eq, Nat.log2_two_pow]
    omega
  simp only [UnpackedFloat.shiftToTargetExponent, UnpackedFloat.shiftToExponent, once]
  rfl

/-- Rounding, read off the significand after its first shift: a zero, that significand, or,
for `2^53`, the first significand of the next binade. -/
theorem roundWithAccuracy_eq_ofUnits
    {s : UnpackedFloat.Sign}
    {m : ℕ}
    {e : ℤ}
    {acc : Accuracy}
    {em : ExtendedMantissa}
    {E : ℤ}
    {n : ℕ}
    (first : UnpackedFloat.shiftToTargetExponent Format.binary64 m e acc = (em, E))
    (rounded : em.roundedMantissa = n)
    (bound : n ≤ 2 ^ 53)
    (least : -1074 ≤ E) :
    UnpackedFloat.roundWithAccuracy Format.binary64 s m e acc = ofUnits s n E := by
  unfold UnpackedFloat.roundWithAccuracy
  rw [first]
  dsimp only
  rw [rounded]
  rcases bound.lt_or_eq with small | carry
  · rw [shiftToTargetExponent_small small least]
    unfold ofUnits
    by_cases zero : n = 0
    · simp [zero]
    · simp only [dif_neg zero, if_pos small]
  · rw [carry, shiftToTargetExponent_carry least]
    simp [ofUnits]

@[simp] theorem ofUnits_zero
    (s : UnpackedFloat.Sign)
    (E : ℤ) :
    ofUnits s 0 E = .zero s := rfl

/-- Rounding a significand, with what its round and sticky bits tell, where it does not need
to shift left, gives the nearest double to the value it stands for: the first shift divides
that value by the last place, and the round and sticky bits round the quotient to the nearest
integer. -/
theorem roundWithAccuracy_eq
    {s : UnpackedFloat.Sign}
    {m : ℕ}
    {e : ℤ}
    {acc : Accuracy}
    {x : ℚ}
    (rep : Represents (ExtendedMantissa.ofMantissaAndAccuracy m acc) x)
    (shifts : e ≤ Format.binary64.targetExponent (totalExponent m e)) :
    UnpackedFloat.roundWithAccuracy Format.binary64 s m e acc =
      ofUnits s (units (x * 2 ^ e)).toNat (lastPlace (x * 2 ^ e)) := by
  set T := Format.binary64.targetExponent (totalExponent m e) with target
  have least : -1074 ≤ T := by
    rw [target, targetExponent_eq]
    exact le_max_right _ _
  have exponent : e + ((T - e).toNat : ℤ) = T := by omega
  have first : UnpackedFloat.shiftToTargetExponent Format.binary64 m e acc =
      (ExtendedMantissa.ofMantissaAndAccuracy m acc >>> (T - e).toNat, T) := by
    show (_, e + ((T - e).toNat : ℤ)) = _
    rw [exponent]
  have shifted := (rep.shift (T - e).toNat).roundedMantissa_eq
  have scaled : x / 2 ^ (T - e).toNat = x * 2 ^ e / 2 ^ T :=
    calc x / 2 ^ (T - e).toNat = x * 2 ^ e / (2 ^ (T - e).toNat * 2 ^ e) :=
          (mul_div_mul_right _ _ (zpow_ne_zero _ two_ne_zero)).symm
      _ = x * 2 ^ e / 2 ^ T := by rw [← two_zpow_add_nat, exponent]
  rw [scaled] at shifted
  have nonneg : 0 ≤ x := le_trans (by simp) rep.bounds.1
  rcases nonneg.lt_or_eq with positive | zero
  · have place : T = lastPlace (x * 2 ^ e) := targetExponent_eq_lastPlace rep shifts positive
    have nearest : roundEven (x * 2 ^ e / 2 ^ T) = units (x * 2 ^ e) := by rw [units, ← place]
    rw [nearest] at shifted
    rw [← place]
    refine roundWithAccuracy_eq_ofUnits first (by omega) ?_ least
    exact Int.toNat_le.mpr (by exact_mod_cast units_le_two_pow _)
  · subst zero
    simp only [zero_mul, zero_div, roundEven_zero, Nat.cast_eq_zero] at shifted
    rw [roundWithAccuracy_eq_ofUnits first shifted (Nat.zero_le _) least]
    simp [units]

/-! ## Packing -/

@[simp] theorem unpackSign_packComponents
    (s : UnpackedFloat.Sign)
    (e : BitVec Format.binary64.exponentBits)
    (m : BitVec Format.binary64.mantissaBitsWithoutImplicit) :
    UnpackedFloat.unpackSign (UnpackedFloat.packComponents Format.binary64 s e m) = s.toBitVec := by
  apply BitVec.eq_of_getLsbD_eq
  intro i below
  have first : i = 0 := by omega
  subst first
  simp only [UnpackedFloat.unpackSign, UnpackedFloat.packComponents, BitVec.getLsbD_cast,
    BitVec.getLsbD_extractLsb]
  rw [BitVec.getLsbD_append, BitVec.getLsbD_append]
  cases s <;> simp [UnpackedFloat.Sign.toBitVec]

@[simp] theorem ofBitVec_toBitVec
    (s : UnpackedFloat.Sign) :
    UnpackedFloat.Sign.ofBitVec s.toBitVec = s := by
  cases s <;> rfl

theorem unpack_pack_zero
    (s : UnpackedFloat.Sign) :
    UnpackedFloat.unpack Format.binary64 (UnpackedFloat.pack Format.binary64 (.zero s)) = .zero s := by
  cases s <;> rfl

theorem unpack_pack_infinity
    (s : UnpackedFloat.Sign) :
    UnpackedFloat.unpack Format.binary64 (UnpackedFloat.pack Format.binary64 (.infinity s)) =
      .infinity s := by
  cases s <;> rfl

/-- A finite double whose exponent is `972` or more packs to an infinity. -/
theorem unpack_pack_overflow
    (s : UnpackedFloat.Sign)
    {m : ℕ}
    {e : ℤ}
    (valid : 0 < m)
    (beyond : 972 ≤ e) :
    UnpackedFloat.unpack Format.binary64 (UnpackedFloat.pack Format.binary64 (.finite s m e valid)) =
      .infinity s := by
  unfold UnpackedFloat.pack
  rw [if_pos (by change 2048 ≤ (e + 1023 + 52).toNat + 1; omega)]
  exact unpack_pack_infinity s

/-- Packing a double in the format and unpacking it gives it back. A normal double packs its biased
exponent, from 1 to 2046, with the top bit of its significand left implicit; a subnormal one packs
an exponent field of zero and its significand as the fraction. -/
theorem unpack_pack_canonical
    (s : UnpackedFloat.Sign)
    {m : ℕ}
    {e : ℤ}
    (valid : 0 < m)
    (canonical : Canonical m e)
    (greatest : e ≤ 971) :
    UnpackedFloat.unpack Format.binary64 (UnpackedFloat.pack Format.binary64 (.finite s m e valid)) =
      .finite s m e valid := by
  have fits : ¬ 2 ^ Format.binary64.exponentBits ≤
      (e + Format.binary64.exponentBias + Format.binary64.mantissaBitsWithoutImplicit).toNat + 1 := by
    change ¬ 2048 ≤ (e + 1023 + 52).toNat + 1
    omega
  have least := canonical.least
  have bias : (Format.binary64.exponentBias : ℤ) = 1023 := rfl
  unfold UnpackedFloat.pack
  dsimp only
  rw [if_neg fits]
  by_cases full : 2 ^ 52 ≤ m
  · have digits : m.log2 + 1 = Format.binary64.mantissaBits := by
      have lower := (Nat.le_log2 valid.ne').mpr full
      have upper := (Nat.log2_lt valid.ne').mpr canonical.small
      change _ = 53
      omega
    have field : (BitVec.ofNat 11 (e + 1023 + 52).toNat).toNat = (e + 1075).toNat := by
      rw [BitVec.toNat_ofNat, Nat.mod_eq_of_lt (by omega)]
      omega
    have notAllOnes : BitVec.ofNat 11 (e + 1023 + 52).toNat ≠ -1#11 := by
      intro allOnes
      have := congrArg BitVec.toNat allOnes
      rw [field] at this
      simp only [BitVec.neg_one_eq_allOnes, BitVec.toNat_allOnes] at this
      omega
    have notZero : BitVec.ofNat 11 (e + 1023 + 52).toNat ≠ 0#11 := by
      intro zero
      have := congrArg BitVec.toNat zero
      rw [field] at this
      simp only [BitVec.toNat_zero] at this
      omega
    have significand : (1#1 ++ BitVec.ofNat 52 m).toNat = m := by
      rw [BitVec.toNat_append, ← Nat.shiftLeft_add_eq_or_of_lt (BitVec.ofNat 52 m).isLt]
      simp only [BitVec.toNat_ofNat]
      have top : m / 2 ^ 52 = 1 := Nat.div_eq_of_lt_le (by omega) (by have := canonical.small; omega)
      have := Nat.mod_add_div m (2 ^ 52)
      simp only [Nat.shiftLeft_eq]
      omega
    rw [if_pos digits]
    unfold UnpackedFloat.unpack
    simp only [UnpackedFloat.unpackMantissa_packComponents, UnpackedFloat.unpackExponent_packComponents,
      unpackSign_packComponents, ofBitVec_toBitVec, bias, Nat.cast_ofNat]
    rw [if_neg notAllOnes, if_neg notZero]
    simp only [significand, field]
    congr 1
    omega
  · have subnormal : e = -1074 := canonical.full.resolve_left full
    subst subnormal
    have short : ¬ m.log2 + 1 = Format.binary64.mantissaBits := by
      have := (Nat.log2_lt valid.ne').mpr (not_le.mp full)
      change ¬ _ = 53
      omega
    have fraction : (BitVec.ofNat 52 m).toNat = m := by
      rw [BitVec.toNat_ofNat, Nat.mod_eq_of_lt (not_le.mp full)]
    have nonzero : BitVec.ofNat 52 m ≠ 0#52 := by
      intro zero
      have := congrArg BitVec.toNat zero
      rw [fraction] at this
      simp only [BitVec.toNat_zero] at this
      omega
    rw [if_neg short]
    unfold UnpackedFloat.unpack
    simp only [UnpackedFloat.unpackMantissa_packComponents, UnpackedFloat.unpackExponent_packComponents,
      unpackSign_packComponents, ofBitVec_toBitVec, bias, Nat.cast_ofNat]
    rw [if_neg (by decide), if_pos trivial, dif_neg nonzero]
    simp only [fraction]
    rfl

/-! ## What packing a rounded double gives -/

theorem nearest_signed
    (s : UnpackedFloat.Sign)
    (q : ℚ) :
    nearest (signed s q) = signed s (nearest q) := by
  cases s
  · exact nearest_neg q
  · rfl

/-- Packing a double's significand and exponent keeps its value, or, beyond the largest finite
double, gives the infinity of its sign: its value rounded into the range of doubles. A full
significand at exponent 972 or more is at least `2^52 · 2^972`, past the largest finite double. -/
theorem extended_pack_canonical
    (s : UnpackedFloat.Sign)
    {m : ℕ}
    {e : ℤ}
    (valid : 0 < m)
    (canonical : Canonical m e) :
    extended (UnpackedFloat.unpack Format.binary64
        (UnpackedFloat.pack Format.binary64 (.finite s m e valid))) =
      roundExtended (signed s (m * 2 ^ e)) := by
  have positive := value_pos e valid
  have bound := overflowBound_pos
  have fixed : nearest (signed s (m * 2 ^ e)) = signed s (m * 2 ^ e) := by
    rw [nearest_signed, nearest_of_nonneg positive.le, canonical.nearestPositive_eq]
  unfold roundExtended
  rw [fixed]
  by_cases greatest : e ≤ 971
  · rw [unpack_pack_canonical s valid canonical greatest]
    have inRange := canonical.lt_overflowBound greatest
    cases s
    · rw [if_neg (by simp only [signed]; linarith), if_neg (by simp only [signed]; linarith)]
      rfl
    · rw [if_neg (by simp only [signed]; linarith), if_neg (by simp only [signed]; linarith)]
      rfl
  · rw [unpack_pack_overflow s valid (by omega)]
    have full : (2 : ℚ) ^ 52 ≤ m := by
      exact_mod_cast canonical.full.resolve_right (by omega)
    have beyond : overflowBound ≤ m * 2 ^ e :=
      calc overflowBound = 2 ^ ((972 : ℤ) + (52 : ℕ)) := by norm_num [overflowBound]
        _ = 2 ^ 52 * 2 ^ (972 : ℤ) := two_zpow_add_nat _ _
        _ ≤ m * 2 ^ e := mul_le_mul full (zpow_le_zpow_right₀ one_le_two (by omega))
            (zpow_nonneg zero_le_two _) (Nat.cast_nonneg _)
    cases s
    · rw [if_neg (by simp only [signed]; linarith), if_pos (by simp only [signed]; linarith)]
      rfl
    · rw [if_pos (by simp only [signed]; linarith)]
      rfl

/-- Packing the rounding of a rational at least zero, with a sign, gives that rational's
nearest double on the extended line. No unit gives a zero, a significand below `2^53` a double of
the format, and `2^53` units the first double of the next binade. -/
theorem extended_pack_ofUnits
    (s : UnpackedFloat.Sign)
    {q : ℚ}
    (nonneg : 0 ≤ q) :
    extended (UnpackedFloat.unpack Format.binary64
        (UnpackedFloat.pack Format.binary64 (ofUnits s (units q).toNat (lastPlace q)))) =
      roundExtended (signed s q) := by
  have unitsNonneg := units_nonneg nonneg
  have unitsBound := units_le_two_pow q
  have cast : ((units q).toNat : ℚ) = (units q : ℚ) := by
    exact_mod_cast Int.toNat_of_nonneg unitsNonneg
  have nearestQ : nearest (signed s q) = signed s ((units q).toNat * 2 ^ lastPlace q) := by
    rw [nearest_signed, nearest_of_nonneg nonneg, nearestPositive, cast]
  unfold ofUnits
  split_ifs with zero small
  · rw [unpack_pack_zero]
    show point 0 = _
    rw [← roundExtended_zero]
    refine roundExtended_congr ?_
    rw [nearestQ, zero]
    cases s <;> simp [signed, nearest]
  · have positive : 0 < q := by
      rcases nonneg.lt_or_eq with positive | rfl
      · exact positive
      · simp [units] at zero
    have canonical : Canonical (units q).toNat (lastPlace q) := by
      refine ⟨Nat.pos_of_ne_zero zero, small, least_le_lastPlace q, ?_⟩
      by_cases least : lastPlace q = -1074
      · exact Or.inr least
      · have full := two_pow_le_units positive least
        exact Or.inl (by omega)
    rw [extended_pack_canonical s _ canonical]
    refine roundExtended_congr ?_
    rw [nearestQ, nearest_signed, nearest_of_nonneg (value_pos _ (Nat.pos_of_ne_zero zero)).le,
      canonical.nearestPositive_eq]
  · have carry : (units q).toNat = 2 ^ 53 := by omega
    have canonical : Canonical (2 ^ 52) (lastPlace q + 1) := by
      have := least_le_lastPlace q
      exact ⟨Nat.two_pow_pos 52, by norm_num, by omega, Or.inl le_rfl⟩
    rw [extended_pack_canonical s _ canonical]
    refine roundExtended_congr ?_
    rw [nearestQ, carry, nearest_signed,
      nearest_of_nonneg (value_pos _ (Nat.two_pow_pos 52)).le, canonical.nearestPositive_eq,
      zpow_add_one₀ two_ne_zero]
    push_cast
    ring_nf

/-- Rounding a significand with what its round and sticky bits tell, where it does not need to
shift left, and packing: the nearest double to the value it stands for, with its sign. -/
theorem extended_pack_roundWithAccuracy
    (s : UnpackedFloat.Sign)
    {m : ℕ}
    {e : ℤ}
    {acc : Accuracy}
    {x : ℚ}
    (rep : Represents (ExtendedMantissa.ofMantissaAndAccuracy m acc) x)
    (shifts : e ≤ Format.binary64.targetExponent (totalExponent m e)) :
    extended (UnpackedFloat.unpack Format.binary64
        (UnpackedFloat.pack Format.binary64 (UnpackedFloat.roundWithAccuracy Format.binary64 s m e acc))) =
      roundExtended (signed s (x * 2 ^ e)) := by
  have nonneg : 0 ≤ x := le_trans (by simp) rep.bounds.1
  rw [roundWithAccuracy_eq rep shifts]
  exact extended_pack_ofUnits s (mul_nonneg nonneg (zpow_nonneg zero_le_two _))

/-- A zero significand rounds to a zero, wherever it is shifted. -/
theorem roundWithAccuracy_zero
    (s : UnpackedFloat.Sign)
    (e : ℤ) :
    UnpackedFloat.roundWithAccuracy Format.binary64 s 0 e .exact = .zero s := by
  set T := Format.binary64.targetExponent (totalExponent 0 e) with target
  have least : -1074 ≤ e + ((T - e).toNat : ℤ) := by
    have := le_max_right ((Nat.log2 0 : ℤ) + e - 52) (-1074)
    rw [← targetExponent_eq] at this
    omega
  have rounded := ((represents_exact 0).shift (T - e).toNat).roundedMantissa_eq
  simp only [Nat.cast_zero, zero_div, roundEven_zero, Nat.cast_eq_zero] at rounded
  exact roundWithAccuracy_eq_ofUnits rfl rounded (Nat.zero_le _) least

theorem log2_shiftLeft
    {m : ℕ}
    (positive : 0 < m)
    (k : ℕ) :
    (m <<< k).log2 = m.log2 + k := by
  rw [Nat.shiftLeft_eq]
  refine (Nat.log2_eq_iff (by positivity)).mpr ⟨?_, ?_⟩
  · rw [pow_add]
    exact Nat.mul_le_mul_right _ (Nat.log2_self_le positive.ne')
  · rw [show m.log2 + k + 1 = (m.log2 + 1) + k by omega, pow_add]
    exact Nat.mul_lt_mul_of_pos_right Nat.lt_log2_self (by positivity)

/-- Rounding a significand at any exponent, and packing: the nearest double to its value. A
significand too short for its binade is first shifted left, which keeps its value and the
exponent it rounds to. -/
theorem extended_pack_round
    (s : UnpackedFloat.Sign)
    (m : ℕ)
    (e : ℤ) :
    extended (UnpackedFloat.unpack Format.binary64
        (UnpackedFloat.pack Format.binary64 (UnpackedFloat.round Format.binary64 s m e))) =
      roundExtended (signed s (m * 2 ^ e)) := by
  unfold UnpackedFloat.round UnpackedFloat.decreaseExponent
  dsimp only
  set T := Format.binary64.targetExponent (totalExponent m e) with target
  set k := (e - T).toNat
  rcases Nat.eq_zero_or_pos m with zero | positive
  · subst zero
    rw [Nat.zero_shiftLeft, roundWithAccuracy_zero, unpack_pack_zero]
    show point 0 = _
    cases s <;> simp [signed]
  · have value : ((m <<< k : ℕ) : ℚ) * 2 ^ (e - k) = m * 2 ^ e := by
      rw [Nat.shiftLeft_eq]
      push_cast
      rw [mul_assoc, ← zpow_natCast, ← zpow_add₀ two_ne_zero]
      congr 2
      omega
    have same : Format.binary64.targetExponent (totalExponent (m <<< k) (e - k)) = T := by
      rw [target, targetExponent_eq, targetExponent_eq, log2_shiftLeft positive]
      push_cast
      ring_nf
    have shifts : e - k ≤ Format.binary64.targetExponent (totalExponent (m <<< k) (e - k)) := by
      rw [same]
      omega
    rw [extended_pack_roundWithAccuracy s (represents_exact _) shifts, value]

/-- Rounding an integer significand at any exponent, and packing: the nearest double to its
value; zero with the sign given. -/
theorem extended_pack_normalize
    (m e : ℤ)
    (zeroSign : UnpackedFloat.Sign) :
    extended (UnpackedFloat.unpack Format.binary64
        (UnpackedFloat.pack Format.binary64 (UnpackedFloat.normalize Format.binary64 m e zeroSign))) =
      roundExtended (m * 2 ^ e) := by
  unfold UnpackedFloat.normalize
  rcases lt_trichotomy m 0 with negative | zero | positive
  · rw [Int.compare_eq_lt.mpr negative]
    dsimp only
    rw [extended_pack_round]
    congr 1
    simp only [signed]
    rw [show (((-m).toNat : ℕ) : ℚ) = -(m : ℚ) by exact_mod_cast Int.toNat_of_nonneg (by omega)]
    ring
  · subst zero
    rw [show compare (0 : ℤ) 0 = .eq from rfl]
    dsimp only
    rw [unpack_pack_zero, Int.cast_zero, zero_mul, roundExtended_zero]
    rfl
  · rw [Int.compare_eq_gt.mpr positive]
    dsimp only
    rw [extended_pack_round]
    congr 1
    simp only [signed]
    rw [show ((m.toNat : ℕ) : ℚ) = (m : ℚ) by exact_mod_cast Int.toNat_of_nonneg positive.le]

end Binary64

end CorridorRank
