import Mathlib
import CorridorRank.Value.Arith

/-!
# When arithmetic on values stays in doubles

Two facts about doubles that scoring relies on to return.

* Rounding an exact quotient `num / den` to a double overflows only for a quotient beyond
  the largest finite double; with a numerator below `2^1000` it never does
  (`Binary64.ofRatio_isSome`). So an integer below `2^1000` converts to a double, and an
  integer below `2^1000` divides by any nonzero integer to a double
  (`Value.intQuotient_ok`).
* A double that equals zero, of either sign, has the bits of a zero
  (`Binary64.shape_of_beq_zero`), so it compares as at most the integer zero
  (`Value.compareWith_le_zero`): a division guarded by "the divisor is not at most zero"
  never divides by zero.
* Rounding a non-negative quotient gives a double at least zero (`Binary64.zero_le_ofRatio`):
  the significand it rounds to stays below `2^53` (`Binary64.nearestParts_sig_lt`), so the
  bits it encodes have a clear sign bit and an exponent field below all ones. So a
  non-negative integer divides by a positive one to a double at least zero
  (`Value.zero_le_intQuotient`).
-/

namespace CorridorRank

open Float.Model

namespace Binary64

/-! ## Rounding stays finite -/

/-- The exponent of the nearest double is at most one above the first estimate, or above
the least exponent. The estimate is lowered by at most one, and a significand that rounds up to
`2^53` raises it by one. -/
theorem nearestParts_exp_le
    (num den : Nat) :
    (nearestParts num den).2 ≤ max ((num.log2 : Int) - den.log2 - 52) leastExponent + 1 := by
  unfold nearestParts
  dsimp only
  split <;> split <;> simp only [leastExponent] <;> omega

theorem encode_isSome
    (neg : Bool)
    (sig : Nat)
    {exp : Int}
    (fits : exp ≤ greatestExponent) :
    (encode neg sig exp).isSome := by
  unfold encode
  dsimp only
  have finite : ¬ exp > greatestExponent := by omega
  by_cases zero : sig = 0
  · simp [zero]
  · simp only [zero, finite, beq_iff_eq, if_false]
    split <;> rfl

/-- A quotient whose numerator is below `2^1000` rounds to a finite double. The bound stays
symbolic, so that the power is never computed. -/
theorem ofRatio_isSome
    (neg : Bool)
    {num : Nat}
    (den : Nat)
    (small : num < Nat.pow 2 1000) :
    (ofRatio neg num den).isSome := by
  unfold ofRatio
  split
  · exact encode_isSome neg 0 (by decide)
  next nonzero =>
  simp only [Bool.or_eq_true, beq_iff_eq, not_or] at nonzero
  generalize bound : 1000 = k at small
  have below : num.log2 < k := (Nat.log2_lt nonzero.1).mpr small
  subst bound
  have exponent := nearestParts_exp_le num den
  generalize nearestParts num den = parts at exponent ⊢
  obtain ⟨sig, exp⟩ := parts
  simp only [leastExponent] at exponent
  exact encode_isSome neg sig (by simp only [greatestExponent]; omega)

theorem ofInt_isSome
    {n : Int}
    (small : n.natAbs < Nat.pow 2 1000) :
    (ofInt n).isSome :=
  ofRatio_isSome _ 1 small

/-! ## Zeros -/

/-- The bits of an unpacked zero: a zero exponent field and a zero fraction. -/
theorem unpack_zero_bits
    {b : BitVec 64}
    {s : UnpackedFloat.Sign}
    (zero : UnpackedFloat.unpack Format.binary64 b = .zero s) :
    b.toNat / Nat.pow 2 fractionBits % 2048 = 0 ∧ b.toNat % Nat.pow 2 fractionBits = 0 := by
  unfold UnpackedFloat.unpack at zero
  dsimp only at zero
  split at zero
  · split at zero <;> cases zero
  · split at zero
    · split at zero
      · rename_i exponentZero fractionZero
        have exponentBits := congrArg BitVec.toNat exponentZero
        have fractionBits := congrArg BitVec.toNat fractionZero
        simp [UnpackedFloat.unpackExponent, UnpackedFloat.unpackMantissa,
          BitVec.extractLsb_toNat] at exponentBits fractionBits
        rw [Nat.shiftRight_eq_div_pow] at exponentBits
        exact ⟨exponentBits, fractionBits⟩
      · cases zero
    · cases zero

/-- Only the two zeros are equal to zero. -/
theorem unpack_of_beq_zero
    {x : Float}
    (zero : (x == 0.0) = true) :
    ∃ s, x.toModel.unpack = .zero s := by
  have compared : x.toModel.unpack.beq (.zero .positive) = true := zero
  cases unpacked : x.toModel.unpack with
  | zero s =>
      exact ⟨s, rfl⟩
  | notANumber =>
      rw [unpacked] at compared
      cases compared
  | infinity s =>
      rw [unpacked] at compared
      cases s <;> cases compared
  | finite s significand exponent positive =>
      rw [unpacked] at compared
      cases s <;> cases compared

/-- A double equal to zero, of either sign, is read as a zero significand at the least
exponent. -/
theorem shape_of_beq_zero
    {x : Float}
    (zero : (x == 0.0) = true) :
    ∃ neg, shape x = .finite neg 0 leastExponent := by
  obtain ⟨s, unpacked⟩ := unpack_of_beq_zero zero
  obtain ⟨exponentField, fraction⟩ := unpack_zero_bits unpacked
  have bits : x.toBits.toNat = x.toModel.toBits.toBitVec.toNat := rfl
  unfold shape Shape.ofBits
  simp only [bits, exponentField, fraction]
  exact ⟨_, rfl⟩

/-! ## Rounding keeps the sign -/

/-- The scaled quotient at exponent `e` is below `2^k` exactly when `num / (den · 2^e)` is. -/
theorem scaled_lt_iff
    (num den k : Nat)
    (e : Int) :
    (scaled num den e).1 < Nat.pow 2 k * (scaled num den e).2 ↔
      (num : ℚ) < 2 ^ k * den * 2 ^ e := by
  unfold scaled
  split
  next nonneg =>
    obtain ⟨j, rfl⟩ := Int.eq_ofNat_of_zero_le nonneg
    rw [Int.toNat_natCast, zpow_natCast, Nat.pow_eq, Nat.pow_eq, ← Nat.cast_lt (α := ℚ)]
    push_cast
    rw [mul_assoc]
  next negative =>
    obtain ⟨j, rfl⟩ : ∃ j : Nat, e = -(j : Int) := ⟨(-e).toNat, by omega⟩
    have positive : (0 : ℚ) < 2 ^ j := by positivity
    rw [neg_neg, Int.toNat_natCast, zpow_neg, zpow_natCast, Nat.pow_eq, Nat.pow_eq,
      ← Nat.cast_lt (α := ℚ), ← div_eq_mul_inv, lt_div_iff₀ positive]
    push_cast
    rfl

theorem scaled_den_pos
    (num : Nat)
    {den : Nat}
    (denPos : den ≠ 0)
    (e : Int) :
    0 < (scaled num den e).2 := by
  unfold scaled
  split
  · exact Nat.mul_pos (Nat.pos_of_ne_zero denPos) (Nat.two_pow_pos _)
  · exact Nat.pos_of_ne_zero denPos

/-- Rounding to the nearest integer adds at most one to the quotient. -/
theorem roundHalfEven_le
    (n d : Nat) :
    roundHalfEven n d ≤ n / d + 1 := by
  unfold roundHalfEven
  dsimp only
  split <;> omega

/-- The significand of the nearest double is below `2^53`: the exponent is chosen so that the
quotient over it is. Over the first estimate the quotient is below `2^53`, as `num < 2^(log num +
1)` and `2^(log den) ≤ den`; the estimate is lowered by one only when the quotient over it is below
`2^52`; and the least exponent can only raise it, which lowers the quotient. -/
theorem nearestParts_sig_lt
    {num den : Nat}
    (denPos : den ≠ 0) :
    (nearestParts num den).1 < Nat.pow 2 53 := by
  have first : (num : ℚ) < 2 ^ 53 * den * 2 ^ ((num.log2 : Int) - den.log2 - 52) := by
    have numBelow : (num : ℚ) < 2 ^ (num.log2 + 1) := by exact_mod_cast Nat.lt_log2_self
    have denAbove : (2 : ℚ) ^ den.log2 ≤ den := by exact_mod_cast Nat.log2_self_le denPos
    calc (num : ℚ) < 2 ^ (num.log2 + 1) := numBelow
      _ = 2 ^ 53 * 2 ^ den.log2 * 2 ^ ((num.log2 : Int) - den.log2 - 52) := by
          rw [← zpow_natCast, ← zpow_natCast (n := 53), ← zpow_natCast (n := den.log2),
            ← zpow_add₀ two_ne_zero, ← zpow_add₀ two_ne_zero]
          congr 1
          push_cast
          ring
      _ ≤ 2 ^ 53 * den * 2 ^ ((num.log2 : Int) - den.log2 - 52) := by gcongr
  unfold nearestParts
  dsimp only
  generalize (num.log2 : Int) - den.log2 - 52 = e0 at first ⊢
  have second : (num : ℚ) < 2 ^ 53 * den * 2 ^ (if (scaled num den e0).1 /
      (scaled num den e0).2 < Nat.pow 2 fractionBits then e0 - 1 else e0) := by
    split
    next small =>
      rw [Nat.div_lt_iff_lt_mul (scaled_den_pos num denPos e0),
        show fractionBits = 52 from rfl] at small
      rw [scaled_lt_iff] at small
      calc (num : ℚ) < 2 ^ 52 * den * 2 ^ e0 := small
        _ = 2 ^ 53 * den * 2 ^ (e0 - 1) := by
          rw [zpow_sub_one₀ two_ne_zero]
          ring
    next => exact first
  generalize (if (scaled num den e0).1 / (scaled num den e0).2 < Nat.pow 2 fractionBits
    then e0 - 1 else e0) = e1 at second ⊢
  have third : (num : ℚ) < 2 ^ 53 * den * 2 ^ max e1 leastExponent :=
    second.trans_le (mul_le_mul_of_nonneg_left
      (zpow_le_zpow_right₀ one_le_two (le_max_left _ _)) (by positivity))
  generalize max e1 leastExponent = e at third ⊢
  have positive := scaled_den_pos num denPos e
  rw [← scaled_lt_iff] at third
  generalize scaled num den e = parts at third positive ⊢
  obtain ⟨n, d⟩ := parts
  dsimp only at third positive ⊢
  have rounded := roundHalfEven_le n d
  have quotient : n / d < Nat.pow 2 53 := by
    rw [Nat.div_lt_iff_lt_mul positive]
    exact third
  split
  · show Nat.pow 2 fractionBits < Nat.pow 2 53
    decide
  · next notTop =>
      rw [beq_iff_eq, show fractionBits + 1 = 53 from rfl] at notTop
      omega

/-- An unpacked double that is at least zero: a zero of either sign, or a positive finite
double or infinity. -/
def Nonneg : UnpackedFloat → Prop
  | .zero _ => True
  | .finite .positive .. => True
  | .infinity .positive => True
  | _ => False

/-- Bits below `2^63` have a clear sign bit. -/
theorem unpackSign_of_lt
    {b : BitVec Format.binary64.numBits}
    (small : b.toNat < Nat.pow 2 63) :
    UnpackedFloat.unpackSign b = 0#1 := by
  apply BitVec.eq_of_toNat_eq
  simp [UnpackedFloat.unpackSign, BitVec.extractLsb_toNat, Nat.shiftRight_eq_div_pow]
  rw [Nat.div_eq_of_lt (by simpa using small)]

/-- A positive double packed from its fields has bits below `2^63`. The exponent field sits below
the sign bit, and the fraction below the exponent field. -/
theorem packComponents_positive_lt
    (e : BitVec Format.binary64.exponentBits)
    (m : BitVec Format.binary64.mantissaBitsWithoutImplicit) :
    (UnpackedFloat.packComponents Format.binary64 .positive e m).toNat < Nat.pow 2 63 := by
  have exponentBound : e.toNat < 2 ^ 11 := e.isLt
  have mantissaBound : m.toNat < 2 ^ 52 := m.isLt
  have positive : UnpackedFloat.Sign.positive.toBitVec.toNat = 0 := rfl
  simp only [UnpackedFloat.packComponents, BitVec.toNat_append, positive, Nat.zero_shiftLeft,
    Nat.zero_or]
  refine Nat.or_lt_two_pow ?_ (by omega)
  rw [Nat.shiftLeft_eq]
  omega

/-- Bits with a clear sign bit unpack to a double at least zero, unless they are a
not-a-number: all ones in the exponent field over a nonzero fraction. -/
theorem unpack_nonneg
    {b : BitVec Format.binary64.numBits}
    (sign : UnpackedFloat.unpackSign b = 0#1)
    (number : UnpackedFloat.unpackExponent b ≠ -1#11 ∨ UnpackedFloat.unpackMantissa b = 0#52) :
    Nonneg (UnpackedFloat.unpack Format.binary64 b) := by
  unfold UnpackedFloat.unpack
  dsimp only
  rw [sign]
  split
  · next allOnes =>
    split
    · trivial
    · next fraction => exact (fraction (number.resolve_left (not_not.mpr allOnes))).elim
  · split
    · split <;> trivial
    · trivial

/-- A positive double packed from an exponent field other than all ones unpacks to a double
at least zero. -/
theorem unpack_packComponents_nonneg
    {e : BitVec Format.binary64.exponentBits}
    (m : BitVec Format.binary64.mantissaBitsWithoutImplicit)
    (number : e ≠ -1#11 ∨ m = 0#52) :
    Nonneg (UnpackedFloat.unpack Format.binary64
      (UnpackedFloat.packComponents Format.binary64 .positive e m)) := by
  refine unpack_nonneg (unpackSign_of_lt (packComponents_positive_lt e m)) ?_
  rw [UnpackedFloat.unpackExponent_packComponents, UnpackedFloat.unpackMantissa_packComponents]
  exact number

/-- Packing a double at least zero and unpacking it again gives a double at least zero. A zero of
either sign packs to zero fields, which unpack to a zero, and a normal double's biased exponent is
below all ones. -/
theorem unpack_pack_nonneg
    {f : UnpackedFloat}
    (nonneg : Nonneg f) :
    Nonneg (UnpackedFloat.unpack Format.binary64 (UnpackedFloat.pack Format.binary64 f)) := by
  cases f with
  | notANumber => exact nonneg.elim
  | infinity s =>
      cases s with
      | positive => exact unpack_packComponents_nonneg _ (Or.inr rfl)
      | negative => exact nonneg.elim
  | zero s =>
      show Nonneg (UnpackedFloat.unpack Format.binary64
        (UnpackedFloat.packComponents Format.binary64 s 0 0))
      unfold UnpackedFloat.unpack
      simp only [UnpackedFloat.unpackExponent_packComponents,
        UnpackedFloat.unpackMantissa_packComponents]
      rw [if_neg (by decide), if_pos (by decide), dif_pos (by decide)]
      trivial
  | finite s m e valid =>
      cases s with
      | positive =>
          unfold UnpackedFloat.pack
          dsimp only
          split
          · exact unpack_packComponents_nonneg _ (Or.inr rfl)
          · next inRange =>
            split
            · refine unpack_packComponents_nonneg _ (Or.inl fun allOnes => ?_)
              have fieldValue := congrArg BitVec.toNat allOnes
              simp only [BitVec.toNat_ofNat] at fieldValue
              change ¬ 2 ^ 11 ≤ _ at inRange
              rw [Nat.mod_eq_of_lt (by omega)] at fieldValue
              change _ = 2047 at fieldValue
              omega
            · exact unpack_packComponents_nonneg _ (Or.inl (by decide))
      | negative => exact nonneg.elim

theorem ofBits_unpack
    (w : UInt64) :
    (Float.ofBits w).toModel.unpack = UnpackedFloat.unpack Format.binary64
      (UnpackedFloat.pack Format.binary64 (UnpackedFloat.unpack Format.binary64 w.toBitVec)) :=
  rfl

/-- Doubles compare as their unpacked forms do. -/
theorem float_lt_iff
    {x y : Float} :
    x < y ↔ x.toModel.unpack.lt y.toModel.unpack = true := by
  show Float.lt x y = true ↔ _
  simp only [Float.lt, decide_eq_true_eq]
  rfl

theorem float_le_iff
    {x y : Float} :
    x ≤ y ↔ x.toModel.unpack.le y.toModel.unpack = true := by
  show Float.le x y = true ↔ _
  simp only [Float.le, decide_eq_true_eq]
  rfl

/-- A double whose unpacked form is at least zero is at least zero. -/
theorem zero_le_of_nonneg
    {x : Float}
    (nonneg : Nonneg x.toModel.unpack) :
    0.0 ≤ x := by
  have zero : (0.0 : Float).toModel.unpack = .zero .positive := rfl
  rw [float_le_iff, zero]
  generalize x.toModel.unpack = u at nonneg
  cases u with
  | notANumber => exact nonneg.elim
  | infinity s =>
      cases s with
      | positive => rfl
      | negative => exact nonneg.elim
  | zero s => cases s <;> rfl
  | finite s m e valid =>
      cases s with
      | positive => rfl
      | negative => exact nonneg.elim

/-- A double built from bits below all ones in the exponent field, with a clear sign bit, is
at least zero. -/
theorem zero_le_ofBits
    {bits : Nat}
    (small : bits < 2047 * Nat.pow 2 fractionBits) :
    0.0 ≤ Float.ofBits (UInt64.ofNat bits) := by
  have literal : bits < 9218868437227405312 := by simpa [fractionBits] using small
  apply zero_le_of_nonneg
  rw [ofBits_unpack]
  refine unpack_pack_nonneg (unpack_nonneg (unpackSign_of_lt ?_) (Or.inl fun allOnes => ?_))
  · simp
    omega
  · have fieldValue := congrArg BitVec.toNat allOnes
    simp [UnpackedFloat.unpackExponent, BitVec.extractLsb_toNat, Nat.shiftRight_eq_div_pow]
      at fieldValue
    omega

/-- A double encoded with a clear sign and a significand below `2^53` is at least zero. The exponent
field is at most 2046 and the fraction below `2^52`. -/
theorem zero_le_encode
    {sig : Nat}
    {exp : Int}
    {x : Float}
    (sigSmall : sig < Nat.pow 2 53)
    (encoded : encode false sig exp = some x) :
    0.0 ≤ x := by
  have significands : Nat.pow 2 53 = 2 * Nat.pow 2 fractionBits := rfl
  unfold encode at encoded
  simp only [Bool.false_eq_true, if_false, Nat.zero_add] at encoded
  split at encoded
  · cases encoded
    exact zero_le_ofBits (by decide)
  · split at encoded
    · cases encoded
    · next finite =>
      split at encoded
      · cases encoded
        exact zero_le_ofBits (by omega)
      · cases encoded
        have field : (exp + 1075).toNat ≤ 2046 := by
          simp only [greatestExponent] at finite
          omega
        refine zero_le_ofBits ?_
        generalize Nat.pow 2 fractionBits = unit at significands sigSmall ⊢
        have spread : (exp + 1075).toNat * unit ≤ 2046 * unit := Nat.mul_le_mul_right unit field
        omega

/-- The double nearest to a non-negative quotient is at least zero. -/
theorem zero_le_ofRatio
    {num den : Nat}
    {x : Float}
    (rounded : ofRatio false num den = some x) :
    0.0 ≤ x := by
  unfold ofRatio at rounded
  split at rounded
  · exact zero_le_encode (by decide) rounded
  · next nonzero =>
    simp only [Bool.or_eq_true, beq_iff_eq, not_or] at nonzero
    have sigSmall : (nearestParts num den).1 < Nat.pow 2 53 := nearestParts_sig_lt nonzero.2
    generalize nearestParts num den = parts at rounded sigSmall
    obtain ⟨sig, exp⟩ := parts
    exact zero_le_encode sigSmall rounded

/-- Of two doubles, one below the other is at most the other. A comparison that answers "less"
answers "at most". -/
theorem float_le_of_lt
    {x y : Float}
    (less : x < y) :
    x ≤ y := by
  rw [float_lt_iff] at less
  rw [float_le_iff]
  simp only [UnpackedFloat.lt, beq_iff_eq] at less
  simp [UnpackedFloat.le, less]

end Binary64

namespace Value

/-- An integer below `2^1000` divides by any nonzero integer to a double. -/
theorem intQuotient_ok
    {a b : Int}
    (small : a.natAbs < Nat.pow 2 1000)
    (nonzero : b ≠ 0) :
    ∃ x, intQuotient a b = .ok x := by
  unfold intQuotient
  have finite := Binary64.ofRatio_isSome ((a < 0) != (b < 0)) b.natAbs small
  rw [if_neg (by simpa using nonzero)]
  cases rounded : Binary64.ofRatio ((a < 0) != (b < 0)) a.natAbs b.natAbs with
  | none => rw [rounded] at finite; cases finite
  | some x => exact ⟨x, rfl⟩

/-- An integer quotient that rounds beyond the largest finite double overflows. -/
theorem intQuotient_overflow
    {a b : Int}
    (nonzero : b ≠ 0)
    (beyond : (Binary64.ofRatio ((a < 0) != (b < 0)) a.natAbs b.natAbs).isNone = true) :
    intQuotient a b = .error (.overflowError "integer division result too large for a float") := by
  unfold intQuotient
  rw [if_neg (by simpa using nonzero), Option.isNone_iff_eq_none.mp beyond]

/-- The quotient of a non-negative integer by a positive one is at least zero. -/
theorem zero_le_intQuotient
    {a b : Int}
    {x : Float}
    (nonneg : 0 ≤ a)
    (positive : 0 < b)
    (divided : intQuotient a b = .ok x) :
    0.0 ≤ x := by
  unfold intQuotient at divided
  rw [if_neg (by simpa using positive.ne')] at divided
  have clear : ((decide (a < 0)) != (decide (b < 0))) = false := by
    simp [not_lt.mpr nonneg, not_lt.mpr positive.le]
  rw [clear] at divided
  split at divided
  next rounded =>
    cases divided
    exact Binary64.zero_le_ofRatio rounded
  next => cases divided

/-- A double equal to zero compares as at most the integer zero. A zero significand has magnitude
zero, whatever its denominator. -/
theorem compareWith_le_zero
    {x : Float}
    (zero : (x == 0.0) = true) :
    compareWith .le (.float x) (.int 0) = .ok true := by
  obtain ⟨neg, shaped⟩ := Binary64.shape_of_beq_zero zero
  obtain ⟨den, nothing⟩ : ∃ den, Binary64.magnitude 0 Binary64.leastExponent = (0, den) := by
    unfold Binary64.magnitude
    split
    · exact ⟨_, by rw [Nat.zero_mul]⟩
    · exact ⟨_, rfl⟩
  have compared : Binary64.compareInt 0 x = some .eq := by
    unfold Binary64.compareInt
    rw [shaped]
    dsimp only
    rw [nothing]
    cases neg <;> simp
  simp only [compareWith, num?, Num.order?, compared]
  rfl

end Value

end CorridorRank
