import CorridorRank.Proofs.Scoring.Doubles

/-!
# When a double is not a number

Scoring multiplies and adds doubles, and validation does not ask a policy's weights to be
finite. This module says exactly when those operations give not-a-number: a product when a
factor is one or it multiplies an infinity by a zero (`Binary64.isNaN_mul_iff`), a sum when a
summand is one or it adds infinities of opposite signs (`Binary64.isNaN_add_iff`). And it shows
that the doubles made of integers and of quotients of integers are finite
(`Binary64.ofInt_finite`, `Value.intQuotient_finite`).

An operation on doubles unpacks its arguments, computes on the unpacked form and packs the
result. The tables of the unpacked operations decide not-a-number, and packing then unpacking
keeps it (`Binary64.isNaN_unpack_pack`). Bits whose exponent field is not all ones unpack to a
zero or to a finite value of the shape packing keeps (`Binary64.unpack_finite_shape`), so the
doubles the model encodes from a significand and an exponent are finite
(`Binary64.encode_finite`).
-/

namespace CorridorRank

open Float.Model

namespace Binary64

/-! ## The unpacked operations -/

/-- An unpacked zero, of either sign. -/
def IsZero : UnpackedFloat → Bool
  | .zero _ => true
  | _ => false

/-- Two unpacked infinities of opposite signs. -/
def OppositeInfinities : UnpackedFloat → UnpackedFloat → Bool
  | .infinity s, .infinity t => s != t
  | _, _ => false

/-- Rounding never gives not-a-number. -/
theorem isNaN_roundWithAccuracy
    (spec : Format)
    (sign : UnpackedFloat.Sign)
    (m : Nat)
    (e : Int)
    (accuracy : UnpackedFloat.Accuracy) :
    (UnpackedFloat.roundWithAccuracy spec sign m e accuracy).isNaN = false := by
  unfold UnpackedFloat.roundWithAccuracy
  dsimp only
  split <;> rfl

theorem isNaN_normalize
    (spec : Format)
    (m e : Int)
    (zeroSign : UnpackedFloat.Sign) :
    (UnpackedFloat.normalize spec m e zeroSign).isNaN = false := by
  unfold UnpackedFloat.normalize UnpackedFloat.round
  split <;> first | rfl | exact isNaN_roundWithAccuracy ..

/-- An unpacked product is not-a-number when a factor is, or it multiplies an infinity by a
zero. -/
theorem isNaN_mul
    (spec : Format)
    (x y : UnpackedFloat) :
    (UnpackedFloat.mul spec x y).isNaN =
      (x.isNaN || y.isNaN || x.isInf && IsZero y || IsZero x && y.isInf) := by
  cases x <;> cases y <;> simp only [UnpackedFloat.mul] <;>
    first | rfl | exact isNaN_roundWithAccuracy ..

/-- An unpacked sum is not-a-number when a summand is, or it adds infinities of opposite
signs. -/
theorem isNaN_add
    (spec : Format)
    (x y : UnpackedFloat) :
    (UnpackedFloat.add spec x y).isNaN = (x.isNaN || y.isNaN || OppositeInfinities x y) := by
  cases x <;> cases y <;> simp only [UnpackedFloat.add]
  case infinity.infinity s t => cases s <;> cases t <;> rfl
  case zero.zero => split <;> rfl
  case finite.finite => exact isNaN_normalize ..
  all_goals rfl

/-- Bits whose exponent field is not all ones unpack to a zero or a finite double. -/
theorem isFinite_unpack
    {b : BitVec Format.binary64.numBits}
    (field : UnpackedFloat.unpackExponent b ≠ -1#11) :
    (UnpackedFloat.unpack Format.binary64 b).isFinite = true := by
  unfold UnpackedFloat.unpack
  dsimp only
  rw [if_neg field]
  split
  · split <;> rfl
  · rfl

theorem isNaN_of_isFinite
    {u : UnpackedFloat}
    (finite : u.isFinite = true) :
    u.isNaN = false := by
  cases u <;> simp_all [UnpackedFloat.isFinite, UnpackedFloat.isNaN]

theorem isFinite_unpack_packComponents
    (s : UnpackedFloat.Sign)
    (m : BitVec Format.binary64.mantissaBitsWithoutImplicit)
    {e : BitVec Format.binary64.exponentBits}
    (field : e ≠ -1#11) :
    (UnpackedFloat.unpack Format.binary64 (UnpackedFloat.packComponents Format.binary64 s e m)).isFinite =
      true :=
  isFinite_unpack (by rw [UnpackedFloat.unpackExponent_packComponents]; exact field)

/-- A field built from a number differs from a field whose value the number does not leave
modulo its width. -/
theorem ofNat_ne
    {w n : Nat}
    {k : BitVec w}
    (differ : n % 2 ^ w ≠ k.toNat) :
    BitVec.ofNat w n ≠ k :=
  fun same => differ (by rw [← same, BitVec.toNat_ofNat])

/-- Packing and unpacking keeps not-a-number, and makes nothing else one: a finite value
that packs out of range becomes an infinity. -/
theorem isNaN_unpack_pack
    (f : UnpackedFloat) :
    (UnpackedFloat.unpack Format.binary64 (UnpackedFloat.pack Format.binary64 f)).isNaN =
      f.isNaN := by
  cases f with
  | notANumber => rfl
  | infinity s => cases s <;> rfl
  | zero s => cases s <;> rfl
  | finite s m e valid =>
      unfold UnpackedFloat.pack
      dsimp only
      split
      · cases s <;> rfl
      · next inRange =>
        have field : BitVec.ofNat 11 (e + Format.binary64.exponentBias + 52).toNat ≠ -1#11 := by
          refine ofNat_ne ?_
          change ¬ 2048 ≤ _ at inRange
          change _ % 2048 ≠ 2047
          omega
        split
        · exact isNaN_of_isFinite (isFinite_unpack_packComponents s _ field)
        · exact isNaN_of_isFinite (isFinite_unpack_packComponents s _ (by decide))

/-- What unpacking bits can give as a finite double: a significand below `2^53` with an
exponent from `-1074` to `971`, the significand of a full 53 bits unless the exponent is the
least one. -/
theorem unpack_finite_shape
    {b : BitVec Format.binary64.numBits}
    {s : UnpackedFloat.Sign}
    {m : Nat}
    {e : Int}
    {valid : 0 < m}
    (unpacked : UnpackedFloat.unpack Format.binary64 b = .finite s m e valid) :
    -1074 ≤ e ∧ e ≤ 971 ∧ (m.log2 = 52 ∨ (e = -1074 ∧ m < 2 ^ 52)) := by
  have bias : Format.binary64.exponentBias = 1023 := rfl
  have exponentBound := (UnpackedFloat.unpackExponent b).isLt
  have mantissaBound := (UnpackedFloat.unpackMantissa b).isLt
  change _ < 2 ^ 11 at exponentBound
  change _ < 2 ^ 52 at mantissaBound
  unfold UnpackedFloat.unpack at unpacked
  dsimp only at unpacked
  split at unpacked
  · split at unpacked <;> cases unpacked
  · next notAllOnes =>
    have fieldBelow : (UnpackedFloat.unpackExponent b).toNat ≠ 2047 :=
      fun allOnes => notAllOnes (BitVec.eq_of_toNat_eq allOnes)
    split at unpacked
    · next zeroField =>
      split at unpacked
      · cases unpacked
      · cases unpacked
        rw [zeroField] at *
        simp only [BitVec.toNat_ofNat, bias] at *
        refine ⟨by omega, by omega, Or.inr ⟨by omega, mantissaBound⟩⟩
    · next nonzeroField =>
      cases unpacked
      have fieldAbove : (UnpackedFloat.unpackExponent b).toNat ≠ 0 :=
        fun zero => nonzeroField (BitVec.eq_of_toNat_eq zero)
      have full : (1#1 ++ UnpackedFloat.unpackMantissa b).toNat =
          2 ^ 52 + (UnpackedFloat.unpackMantissa b).toNat := by
        simp only [BitVec.toNat_append]
        rw [← Nat.shiftLeft_add_eq_or_of_lt mantissaBound]
        rfl
      rw [full]
      simp only [bias]
      refine ⟨by omega, by omega, Or.inl ((Nat.log2_eq_iff (by omega)).mpr ⟨by omega, by omega⟩)⟩

/-- Fields that are neither all ones nor all zeros unpack to a finite double other than
zero. -/
theorem unpack_packComponents_normal
    (s : UnpackedFloat.Sign)
    (m : BitVec Format.binary64.mantissaBitsWithoutImplicit)
    {e : BitVec Format.binary64.exponentBits}
    (notAllOnes : e ≠ -1#11)
    (notZero : e ≠ 0#11) :
    (UnpackedFloat.unpack Format.binary64 (UnpackedFloat.packComponents Format.binary64 s e m)).isFinite = true ∧
      IsZero (UnpackedFloat.unpack Format.binary64 (UnpackedFloat.packComponents Format.binary64 s e m)) = false := by
  unfold UnpackedFloat.unpack
  simp only [UnpackedFloat.unpackExponent_packComponents, UnpackedFloat.unpackMantissa_packComponents]
  rw [if_neg notAllOnes, if_neg notZero]
  exact ⟨rfl, rfl⟩

/-- A zero exponent field over a nonzero fraction unpacks to a finite double other than zero. -/
theorem unpack_packComponents_subnormal
    (s : UnpackedFloat.Sign)
    {m : BitVec Format.binary64.mantissaBitsWithoutImplicit}
    (fraction : m ≠ 0#52) :
    (UnpackedFloat.unpack Format.binary64 (UnpackedFloat.packComponents Format.binary64 s 0#11 m)).isFinite = true ∧
      IsZero (UnpackedFloat.unpack Format.binary64 (UnpackedFloat.packComponents Format.binary64 s 0#11 m)) = false := by
  unfold UnpackedFloat.unpack
  simp only [UnpackedFloat.unpackExponent_packComponents, UnpackedFloat.unpackMantissa_packComponents]
  rw [if_neg (by decide), if_pos trivial, dif_neg fraction]
  exact ⟨rfl, rfl⟩

/-- Packing a finite double of the shape unpacking gives and unpacking it again gives a
finite double other than zero. A full significand keeps its biased exponent, from 1 to 2046, and a
short one is subnormal, below `2^52`. -/
theorem unpack_pack_finite
    (s : UnpackedFloat.Sign)
    {m : Nat}
    {e : Int}
    (valid : 0 < m)
    (shape : -1074 ≤ e ∧ e ≤ 971 ∧ (m.log2 = 52 ∨ (e = -1074 ∧ m < 2 ^ 52))) :
    (UnpackedFloat.unpack Format.binary64
        (UnpackedFloat.pack Format.binary64 (.finite s m e valid))).isFinite = true ∧
      IsZero (UnpackedFloat.unpack Format.binary64
        (UnpackedFloat.pack Format.binary64 (.finite s m e valid))) = false := by
  have bias : Format.binary64.exponentBias = 1023 := rfl
  obtain ⟨least, greatest, full⟩ := shape
  unfold UnpackedFloat.pack
  dsimp only
  rw [bias, if_neg (by change ¬ 2048 ≤ _; omega)]
  split
  · refine unpack_packComponents_normal s _ (ofNat_ne ?_) (ofNat_ne ?_)
    · change _ % 2048 ≠ 2047
      omega
    · change _ % 2048 ≠ 0
      omega
  · next short =>
    have small : m < 2 ^ 52 := by
      rcases full with full | ⟨-, small⟩
      · change ¬ m.log2 + 1 = 53 at short
        omega
      · exact small
    refine unpack_packComponents_subnormal s (ofNat_ne ?_)
    change m % 2 ^ 52 ≠ 0
    rw [Nat.mod_eq_of_lt small]
    omega

/-- Unpacking bits, packing and unpacking again keeps a double finite or not, and zero or
not. -/
theorem unpack_pack_unpack
    (b : BitVec Format.binary64.numBits) :
    (UnpackedFloat.unpack Format.binary64 (UnpackedFloat.pack Format.binary64
        (UnpackedFloat.unpack Format.binary64 b))).isFinite =
      (UnpackedFloat.unpack Format.binary64 b).isFinite ∧
    IsZero (UnpackedFloat.unpack Format.binary64 (UnpackedFloat.pack Format.binary64
        (UnpackedFloat.unpack Format.binary64 b))) =
      IsZero (UnpackedFloat.unpack Format.binary64 b) := by
  generalize unpacked : UnpackedFloat.unpack Format.binary64 b = u
  cases u with
  | notANumber => exact ⟨rfl, rfl⟩
  | infinity s => cases s <;> exact ⟨rfl, rfl⟩
  | zero s => cases s <;> exact ⟨rfl, rfl⟩
  | finite s m e valid =>
      obtain ⟨finite, nonzero⟩ := unpack_pack_finite s valid (unpack_finite_shape unpacked)
      exact ⟨finite, nonzero⟩

/-! ## Doubles

A double's operations are those of its unpacked form, packed, so the tables above decide
not-a-number for doubles. -/

theorem unpack_zero : (0.0 : Float).toModel.unpack = .zero .positive := rfl

/-- A double equals zero exactly when it unpacks to a zero. -/
theorem beq_zero_eq
    (x : Float) :
    (x == 0.0) = IsZero x.toModel.unpack := by
  show x.toModel.unpack.beq (0.0 : Float).toModel.unpack = _
  rw [unpack_zero]
  cases x.toModel.unpack with
  | notANumber => rfl
  | infinity s => cases s <;> rfl
  | zero s => cases s <;> rfl
  | finite s m e valid => cases s <;> rfl

/-- Two doubles are infinities of opposite signs when both are infinite and exactly one is
below zero. -/
theorem oppositeInfinities_iff
    (x y : Float) :
    OppositeInfinities x.toModel.unpack y.toModel.unpack = true ↔
      x.isInf = true ∧ y.isInf = true ∧ (x < 0.0 ↔ ¬ y < 0.0) := by
  rw [float_lt_iff, float_lt_iff, unpack_zero]
  show _ ↔ x.toModel.unpack.isInf = true ∧ y.toModel.unpack.isInf = true ∧ _
  cases x.toModel.unpack <;> cases y.toModel.unpack
  case infinity.infinity s t => cases s <;> cases t <;> decide
  all_goals simp [OppositeInfinities, UnpackedFloat.isInf]

/-- A product of doubles is not-a-number exactly when a factor is, or it multiplies an
infinity by a zero. -/
theorem isNaN_mul_iff
    (x y : Float) :
    (x * y).isNaN = true ↔ x.isNaN = true ∨ y.isNaN = true ∨
      (x.isInf = true ∧ (y == 0.0) = true) ∨ ((x == 0.0) = true ∧ y.isInf = true) := by
  show (UnpackedFloat.unpack _ (UnpackedFloat.pack _
    (UnpackedFloat.mul _ x.toModel.unpack y.toModel.unpack))).isNaN = true ↔ _
  rw [isNaN_unpack_pack, isNaN_mul, beq_zero_eq, beq_zero_eq]
  simp only [Bool.or_eq_true, Bool.and_eq_true, or_assoc]
  rfl

/-- A sum of doubles is not-a-number exactly when a summand is, or it adds infinities of
opposite signs. -/
theorem isNaN_add_iff
    (x y : Float) :
    (x + y).isNaN = true ↔ x.isNaN = true ∨ y.isNaN = true ∨
      (x.isInf = true ∧ y.isInf = true ∧ (x < 0.0 ↔ ¬ y < 0.0)) := by
  show (UnpackedFloat.unpack _ (UnpackedFloat.pack _
    (UnpackedFloat.add _ x.toModel.unpack y.toModel.unpack))).isNaN = true ↔ _
  rw [isNaN_unpack_pack, isNaN_add, ← oppositeInfinities_iff]
  simp only [Bool.or_eq_true, or_assoc]
  rfl

/-- A double that is not-a-number unpacks to not-a-number. -/
theorem unpack_of_isNaN
    {x : Float}
    (nan : x.isNaN = true) :
    x.toModel.unpack = .notANumber := by
  change x.toModel.unpack.isNaN = true at nan
  revert nan
  cases x.toModel.unpack <;> simp [UnpackedFloat.isNaN]

/-- Not-a-number is below no double. -/
theorem not_lt_of_isNaN_left
    {x y : Float}
    (nan : x.isNaN = true) :
    ¬ x < y := by
  rw [float_lt_iff, unpack_of_isNaN nan]
  simp [UnpackedFloat.lt, UnpackedFloat.compare]

/-- Not-a-number is above no double. A comparison with not-a-number is unordered, whatever the other
side. -/
theorem not_lt_of_isNaN_right
    {x y : Float}
    (nan : y.isNaN = true) :
    ¬ x < y := by
  rw [float_lt_iff, unpack_of_isNaN nan]
  cases x.toModel.unpack <;> simp [UnpackedFloat.lt, UnpackedFloat.compare]

/-- Not-a-number is at least no double. -/
theorem not_le_of_isNaN
    {x y : Float}
    (nan : y.isNaN = true) :
    ¬ x ≤ y := by
  rw [float_le_iff, unpack_of_isNaN nan]
  cases x.toModel.unpack <;> simp [UnpackedFloat.le, UnpackedFloat.compare]

/-! ## Doubles built from bits and from integers -/

theorem unpackExponent_ofNat
    {n : Nat}
    (fits : n < 2 ^ 64) :
    (@UnpackedFloat.unpackExponent Format.binary64 (UInt64.ofNat n).toBitVec).toNat = n / 2 ^ 52 % 2 ^ 11 := by
  simp [UnpackedFloat.unpackExponent, BitVec.extractLsb_toNat, Nat.shiftRight_eq_div_pow]
  omega

theorem unpackMantissa_ofNat
    (n : Nat) :
    (@UnpackedFloat.unpackMantissa Format.binary64 (UInt64.ofNat n).toBitVec).toNat = n % 2 ^ 52 := by
  simp [UnpackedFloat.unpackMantissa, BitVec.extractLsb_toNat]

/-- Bits whose exponent field is not all ones unpack to a zero exactly when both their
fields are zero. -/
theorem isZero_unpack
    {b : BitVec Format.binary64.numBits}
    (field : UnpackedFloat.unpackExponent b ≠ -1#11) :
    IsZero (UnpackedFloat.unpack Format.binary64 b) =
      (UnpackedFloat.unpackExponent b == 0#11 && UnpackedFloat.unpackMantissa b == 0#52) := by
  unfold UnpackedFloat.unpack
  dsimp only
  rw [if_neg field]
  by_cases zeroField : UnpackedFloat.unpackExponent b = 0#11
  · rw [if_pos zeroField]
    by_cases zeroFraction : UnpackedFloat.unpackMantissa b = 0#52
    · rw [dif_pos zeroFraction]
      simp [IsZero, zeroField, zeroFraction]
    · rw [dif_neg zeroFraction]
      simp [IsZero, zeroFraction]
  · rw [if_neg zeroField]
    simp [IsZero, zeroField]

/-- The double of 64 bits whose exponent field is not all ones is finite, and zero exactly
when the bits below the sign are. -/
theorem ofBits_finite
    {n : Nat}
    (fits : n < 2 ^ 64)
    (field : n / 2 ^ 52 % 2 ^ 11 ≠ 2047) :
    (Float.ofBits (UInt64.ofNat n)).isFinite = true ∧
      ((Float.ofBits (UInt64.ofNat n)) == 0.0) = (n / 2 ^ 52 % 2 ^ 11 == 0 && n % 2 ^ 52 == 0) := by
  have notAllOnes : @UnpackedFloat.unpackExponent Format.binary64 (UInt64.ofNat n).toBitVec ≠
      -1#11 := by
    intro allOnes
    have fieldValue := congrArg BitVec.toNat allOnes
    rw [unpackExponent_ofNat fits] at fieldValue
    exact field fieldValue
  obtain ⟨finite, zero⟩ := unpack_pack_unpack (UInt64.ofNat n).toBitVec
  have unpacked := ofBits_unpack (UInt64.ofNat n)
  refine ⟨?_, ?_⟩
  · show (Float.ofBits (UInt64.ofNat n)).toModel.unpack.isFinite = true
    rw [unpacked, finite, isFinite_unpack notAllOnes]
  · rw [beq_zero_eq, unpacked, zero, isZero_unpack notAllOnes, ← unpackExponent_ofNat fits,
      ← unpackMantissa_ofNat]
    have zeroIff : ∀ {w} (x : BitVec w), (x == 0#w) = (x.toNat == 0) := fun x => by
      rw [Bool.eq_iff_iff, beq_iff_eq, beq_iff_eq, BitVec.toNat_eq, BitVec.toNat_zero]
    simp only [zeroIff]

/-- A double encoded from a significand below `2^53` and an exponent no less than the least
one is finite, and zero exactly when the significand is. The sign bit sits above both fields, and
each case reads the fields off the sum. -/
theorem encode_finite
    {neg : Bool}
    {sig : Nat}
    {exp : Int}
    {x : Float}
    (sigSmall : sig < Nat.pow 2 53)
    (least : leastExponent ≤ exp)
    (encoded : encode neg sig exp = some x) :
    x.isFinite = true ∧ (x == 0.0) = (sig == 0) := by
  have unit : Nat.pow 2 fractionBits = 2 ^ 52 := rfl
  have top : Nat.pow 2 63 = 2 ^ 63 := rfl
  have significands : Nat.pow 2 53 = 2 ^ 53 := rfl
  simp only [leastExponent] at least
  unfold encode at encoded
  simp only [unit, top, significands] at encoded sigSmall
  split at encoded
  · cases encoded
    refine (ofBits_finite ?_ ?_).imp_right fun zeroBits => zeroBits.trans (Bool.eq_iff_iff.mpr ?_)
    all_goals cases neg <;> simp_all
  · split at encoded
    · cases encoded
    · next notZero finite =>
      simp only [greatestExponent, beq_iff_eq] at finite notZero
      split at encoded
      all_goals
        cases encoded
        refine (ofBits_finite ?_ ?_).imp_right fun zeroBits =>
          zeroBits.trans (Bool.eq_iff_iff.mpr ?_)
        all_goals cases neg <;> simp only [Bool.and_eq_true, beq_iff_eq, if_true, if_false,
          Bool.false_eq_true] <;> omega

/-- Rounding a quotient half to even gives at least its floor. -/
theorem quotient_le_roundHalfEven
    (n d : Nat) :
    n / d ≤ roundHalfEven n d := by
  unfold roundHalfEven
  dsimp only
  split <;> omega

/-- The exponent of the nearest double is never below the least one. -/
theorem leastExponent_le_nearestParts
    (num den : Nat) :
    leastExponent ≤ (nearestParts num den).2 := by
  unfold nearestParts
  dsimp only
  split <;> split <;> omega

/-- Scaling a positive integer down by at most its binary length leaves a quotient of at
least one. -/
theorem one_le_scaled
    {num : Nat}
    {e : Int}
    (nonzero : num ≠ 0)
    (short : e ≤ num.log2) :
    1 ≤ (scaled num 1 e).1 / (scaled num 1 e).2 := by
  unfold scaled
  split
  · have shifted : 2 ^ e.toNat ≤ num :=
      le_trans (Nat.pow_le_pow_right (by decide) (by omega)) (Nat.log2_self_le nonzero)
    show 1 ≤ num / (1 * 2 ^ e.toNat)
    rw [Nat.one_mul, Nat.le_div_iff_mul_le (Nat.two_pow_pos _), Nat.one_mul]
    exact shifted
  · show 1 ≤ num * 2 ^ (-e).toNat / 1
    rw [Nat.div_one]
    exact Nat.mul_pos (Nat.pos_of_ne_zero nonzero) (Nat.two_pow_pos _)

/-- The double nearest to a positive integer has a positive significand. Whatever the exponent
chosen, it is at most the binary length of the integer. -/
theorem nearestParts_sig_pos
    {num : Nat}
    (nonzero : num ≠ 0) :
    0 < (nearestParts num 1).1 := by
  have rounded : ∀ {e : Int}, e ≤ num.log2 →
      0 < (if roundHalfEven (scaled num 1 e).1 (scaled num 1 e).2 == Nat.pow 2 (fractionBits + 1)
        then (Nat.pow 2 fractionBits, e + 1)
        else (roundHalfEven (scaled num 1 e).1 (scaled num 1 e).2, e)).1 := fun short => by
    split
    · exact Nat.two_pow_pos _
    · exact lt_of_lt_of_le (one_le_scaled nonzero short) (quotient_le_roundHalfEven _ _)
  unfold nearestParts
  dsimp only
  refine rounded ?_
  have one : Nat.log2 1 = 0 := by decide
  simp only [one, leastExponent]
  split <;> omega

/-- The double nearest to a quotient is finite whenever it exists. -/
theorem ofRatio_finite
    {neg : Bool}
    {num den : Nat}
    {x : Float}
    (rounded : ofRatio neg num den = some x) :
    x.isFinite = true := by
  unfold ofRatio at rounded
  split at rounded
  · exact (encode_finite (by decide) (by decide) rounded).1
  · next nonzero =>
    simp only [Bool.or_eq_true, beq_iff_eq, not_or] at nonzero
    have sigSmall : (nearestParts num den).1 < Nat.pow 2 53 := nearestParts_sig_lt nonzero.2
    have least := leastExponent_le_nearestParts num den
    generalize nearestParts num den = parts at rounded sigSmall least
    obtain ⟨sig, exp⟩ := parts
    exact (encode_finite sigSmall least rounded).1

/-- The double of an integer is finite, and zero only for zero. -/
theorem ofInt_finite
    {n : Int}
    {x : Float}
    (converts : ofInt n = some x) :
    x.isFinite = true ∧ (x == 0.0) = (n == 0) := by
  unfold ofInt ofRatio at converts
  split at converts
  · next zero =>
    have none : n = 0 := by simpa using zero
    rw [none]
    exact (encode_finite (by decide) (by decide) converts).imp_right fun same => same
  · next nonzero =>
    simp only [Bool.or_eq_true, beq_iff_eq, not_or] at nonzero
    have sigSmall : (nearestParts n.natAbs 1).1 < Nat.pow 2 53 := nearestParts_sig_lt nonzero.2
    have sigPos := nearestParts_sig_pos nonzero.1
    have least := leastExponent_le_nearestParts n.natAbs 1
    generalize nearestParts n.natAbs 1 = parts at converts sigSmall sigPos least
    obtain ⟨sig, exp⟩ := parts
    refine (encode_finite sigSmall least converts).imp_right fun same => same.trans ?_
    simp only at sigPos
    have notZero : n ≠ 0 := by simpa using nonzero.1
    simp [Nat.pos_iff_ne_zero.mp sigPos, notZero]

/-- A finite double is neither not-a-number nor infinite. -/
theorem number_of_isFinite
    {x : Float}
    (finite : x.isFinite = true) :
    x.isNaN = false ∧ x.isInf = false := by
  change x.toModel.unpack.isFinite = true at finite
  show x.toModel.unpack.isNaN = false ∧ x.toModel.unpack.isInf = false
  generalize x.toModel.unpack = u at finite ⊢
  cases u <;> simp_all [UnpackedFloat.isFinite, UnpackedFloat.isNaN, UnpackedFloat.isInf]

end Binary64

namespace Value

/-- A quotient of integers that rounds to a double rounds to a finite one. -/
theorem intQuotient_finite
    {a b : Int}
    {x : Float}
    (divided : intQuotient a b = .ok x) :
    x.isFinite = true := by
  unfold intQuotient at divided
  split at divided
  · cases divided
  · split at divided
    · next rounded =>
      cases divided
      exact Binary64.ofRatio_finite rounded
    · cases divided

end Value

end CorridorRank
