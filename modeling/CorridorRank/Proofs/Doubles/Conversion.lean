import CorridorRank.Proofs.Doubles.Arithmetic

/-!
# Doubles read off bits and rounded from quotients

The library reads a double's sign, significand and exponent off its 64 bits (`shape`), and
builds the double nearest to a quotient of naturals from a significand and an exponent of its
own choosing (`ofRatio`, `ofInt`). This module ties both to the unpacked doubles of the
arithmetic: reading bits agrees with unpacking them (`Binary64.ofBits_eq_ofUnpacked`), and the
double the conversion builds is the nearest double to the quotient
(`Binary64.ofRatio_extended`). The exponent the conversion estimates from the binary lengths of
numerator and denominator is the last place of the nearest double, and its rounding half to
even is the rounding of the quotient over that place.

So the conversion of integers keeps order (`Binary64.ofInt_le_ofInt`) and is exact up to
`2^53`, and a double that the exact comparison with an integer finds not below zero is at least
zero (`Binary64.zero_le_of_not_lt_int`).
-/

namespace CorridorRank

open Float.Model (UnpackedFloat Format)

namespace Binary64

/-! ## Reading bits -/

/-- The shape of an unpacked double: a zero is a zero significand at the least exponent. -/
def Shape.ofUnpacked : UnpackedFloat → Shape
  | .notANumber => .nan
  | .infinity s => .infinite (s == .negative)
  | .zero s => .finite (s == .negative) 0 leastExponent
  | .finite s m e _ => .finite (s == .negative) m e

/-- Reading the sign bit, the exponent field and the fraction off 64 bits agrees with
unpacking them. -/
theorem ofBits_eq_ofUnpacked
    (b : BitVec Format.binary64.numBits) :
    Shape.ofBits b.toNat = Shape.ofUnpacked (UnpackedFloat.unpack Format.binary64 b) := by
  have field : (UnpackedFloat.unpackExponent b).toNat = b.toNat / 2 ^ 52 % 2048 := by
    simp [UnpackedFloat.unpackExponent, BitVec.extractLsb_toNat, Nat.shiftRight_eq_div_pow]
  have fraction : (UnpackedFloat.unpackMantissa b).toNat = b.toNat % 2 ^ 52 := by
    simp [UnpackedFloat.unpackMantissa, BitVec.extractLsb_toNat]
  have signBit : (UnpackedFloat.unpackSign b).toNat = b.toNat / 2 ^ 63 % 2 := by
    simp [UnpackedFloat.unpackSign, BitVec.extractLsb_toNat, Nat.shiftRight_eq_div_pow]
  have sign : (UnpackedFloat.Sign.ofBitVec (UnpackedFloat.unpackSign b) == .negative) =
      (b.toNat / 2 ^ 63 % 2 == 1) := by
    unfold UnpackedFloat.Sign.ofBitVec
    have below := (UnpackedFloat.unpackSign b).isLt
    split
    · next zero =>
        rw [zero] at signBit
        simp only [BitVec.toNat_ofNat] at signBit
        rw [← signBit]
        rfl
    · next nonzero =>
        have one : (UnpackedFloat.unpackSign b).toNat = 1 := by
          have : (UnpackedFloat.unpackSign b).toNat ≠ 0 := fun z => nonzero (BitVec.eq_of_toNat_eq z)
          simp at below
          omega
        rw [one] at signBit
        rw [← signBit]
        rfl
  have allOnes : UnpackedFloat.unpackExponent b = -1#11 ↔ b.toNat / 2 ^ 52 % 2048 = 2047 := by
    rw [BitVec.toNat_eq, field]
    rfl
  have zeroField : UnpackedFloat.unpackExponent b = 0#11 ↔ b.toNat / 2 ^ 52 % 2048 = 0 := by
    rw [BitVec.toNat_eq, field]
    rfl
  have zeroFraction : UnpackedFloat.unpackMantissa b = 0#52 ↔ b.toNat % 2 ^ 52 = 0 := by
    rw [BitVec.toNat_eq, fraction]
    rfl
  have unit : Nat.pow 2 fractionBits = 2 ^ 52 := rfl
  have top : Nat.pow 2 63 = 2 ^ 63 := rfl
  have bias : (Format.binary64.exponentBias : ℤ) = 1023 := rfl
  have full : (1#1 ++ UnpackedFloat.unpackMantissa b).toNat = b.toNat % 2 ^ 52 + 2 ^ 52 := by
    have mantissaBound := (UnpackedFloat.unpackMantissa b).isLt
    change _ < 2 ^ 52 at mantissaBound
    simp only [BitVec.toNat_append]
    rw [← Nat.shiftLeft_add_eq_or_of_lt mantissaBound, fraction, Nat.add_comm]
    rfl
  unfold Shape.ofBits UnpackedFloat.unpack
  simp only [allOnes, zeroField, zeroFraction, unit, top, beq_iff_eq]
  split_ifs <;> simp only [Shape.ofUnpacked, leastExponent, *]
  all_goals congr 1

theorem shape_eq_ofUnpacked
    (x : Float) :
    shape x = Shape.ofUnpacked x.toModel.unpack :=
  ofBits_eq_ofUnpacked _

/-- Packing a double of the format and unpacking it again keeps its point. -/
theorem extended_unpack_pack
    {a : UnpackedFloat}
    (format : InFormat a) :
    extended (UnpackedFloat.unpack Format.binary64 (UnpackedFloat.pack Format.binary64 a)) =
      extended a := by
  cases a with
  | notANumber => rfl
  | infinity s => rw [unpack_pack_infinity]
  | zero s => rw [unpack_pack_zero]
  | finite s m e valid => rw [unpack_pack_canonical s valid format.1 format.2]

/-- A finite shape of an unpacked double gives its point. -/
theorem extended_of_ofUnpacked
    {u : UnpackedFloat}
    {neg : Bool}
    {sig : ℕ}
    {exp : ℤ}
    (shaped : Shape.ofUnpacked u = .finite neg sig exp) :
    extended u = point (if neg then -(sig * 2 ^ exp) else sig * 2 ^ exp) := by
  cases u with
  | notANumber => cases shaped
  | infinity _ => cases shaped
  | zero s =>
      cases shaped
      show point 0 = _
      split <;> simp
  | finite s m e valid =>
      cases shaped
      cases s <;> rfl

theorem ofNat_toNat
    {n : ℕ}
    (fits : n < 2 ^ 64) :
    (UInt64.ofNat n).toBitVec.toNat = n := by
  rw [UInt64.toNat_toBitVec, UInt64.toNat_ofNat_of_lt' fits]

/-- The double of 64 bits that read as a finite shape stands at that shape's value. -/
theorem extended_ofBits
    {n : ℕ}
    (fits : n < 2 ^ 64)
    {neg : Bool}
    {sig : ℕ}
    {exp : ℤ}
    (shaped : Shape.ofBits n = .finite neg sig exp) :
    extended (Float.ofBits (UInt64.ofNat n)).toModel.unpack =
      point (if neg then -(sig * 2 ^ exp) else sig * 2 ^ exp) := by
  rw [ofBits_unpack, extended_unpack_pack (inFormat_unpack _)]
  rw [← ofNat_toNat fits, ofBits_eq_ofUnpacked] at shaped
  exact extended_of_ofUnpacked shaped


/-- Bits made of a sign bit, an exponent field and a fraction read back as those three. -/
theorem ofBits_fields
    {sign field frac : ℕ}
    (signBit : sign < 2)
    (fieldBound : field < 2048)
    (fracBound : frac < 2 ^ 52) :
    Shape.ofBits (sign * 2 ^ 63 + field * 2 ^ 52 + frac) =
      if field = 2047 then (if frac = 0 then .infinite (sign == 1) else .nan)
      else if field = 0 then .finite (sign == 1) frac leastExponent
      else .finite (sign == 1) (frac + 2 ^ 52) ((field : ℤ) - 1075) := by
  have unit : Nat.pow 2 fractionBits = 2 ^ 52 := rfl
  have top : Nat.pow 2 63 = 2 ^ 63 := rfl
  have readSign : (sign * 2 ^ 63 + field * 2 ^ 52 + frac) / 2 ^ 63 % 2 = sign := by omega
  have readField : (sign * 2 ^ 63 + field * 2 ^ 52 + frac) / 2 ^ 52 % 2048 = field := by omega
  have readFrac : (sign * 2 ^ 63 + field * 2 ^ 52 + frac) % 2 ^ 52 = frac := by omega
  unfold Shape.ofBits
  simp only [unit, top, readSign, readField, readFrac, beq_iff_eq]

/-- A double encoded from a significand below `2^53` and an exponent from the least one up,
short of 53 bits only at the least exponent, stands at its value; a nonzero one is encoded
only up to the greatest exponent. -/
theorem encode_extended
    {neg : Bool}
    {sig : ℕ}
    {exp : ℤ}
    {x : Float}
    (small : sig < 2 ^ 53)
    (least : -1074 ≤ exp)
    (subnormal : sig ≠ 0 → sig < 2 ^ 52 → exp = -1074)
    (encoded : encode neg sig exp = some x) :
    (sig = 0 ∨ exp ≤ 971) ∧
      extended x.toModel.unpack = point (if neg then -(sig * 2 ^ exp) else sig * 2 ^ exp) := by
  have unit : Nat.pow 2 fractionBits = 2 ^ 52 := rfl
  obtain ⟨sign, signBit, signValue, signEq⟩ : ∃ sign, sign < 2 ∧
      (if neg then Nat.pow 2 63 else 0) = sign * 2 ^ 63 ∧ (sign == 1) = neg := by
    cases neg
    · exact ⟨0, by omega, rfl, rfl⟩
    · exact ⟨1, by omega, rfl, rfl⟩
  unfold encode at encoded
  dsimp only at encoded
  rw [signValue, unit] at encoded
  split at encoded
  · next zero =>
      cases encoded
      rw [beq_iff_eq] at zero
      subst zero
      have shaped := ofBits_fields signBit (by omega : 0 < 2048) (by omega : 0 < 2 ^ 52)
      simp only [Nat.zero_mul, Nat.add_zero, ↓reduceIte, signEq] at shaped
      refine ⟨Or.inl rfl, ?_⟩
      rw [extended_ofBits (by omega) shaped]
      simp
  · split at encoded
    · cases encoded
    · next nonzero finite =>
        simp only [greatestExponent, gt_iff_lt, not_lt] at finite
        refine ⟨Or.inr finite, ?_⟩
        split at encoded
        · next short =>
            cases encoded
            have shaped := ofBits_fields signBit (by omega : 0 < 2048) short
            simp only [Nat.zero_mul, Nat.add_zero, ↓reduceIte, signEq] at shaped
            rw [extended_ofBits (by omega) shaped, subnormal (by simpa using nonzero) short]
            rfl
        · next full =>
            cases encoded
            have shaped := ofBits_fields signBit (by omega : (exp + 1075).toNat < 2048)
              (by omega : sig - 2 ^ 52 < 2 ^ 52)
            rw [if_neg (by omega), if_neg (by omega), signEq,
              show sig - 2 ^ 52 + 2 ^ 52 = sig by omega,
              show (((exp + 1075).toNat : ℕ) : ℤ) - 1075 = exp by omega] at shaped
            rw [extended_ofBits (by omega) shaped]

/-! ## Comparing with an integer -/

theorem magnitude_num_pos
    {sig : ℕ}
    (positive : 0 < sig)
    (exp : ℤ) :
    0 < (magnitude sig exp).1 := by
  unfold magnitude
  split
  · exact Nat.mul_pos positive (Nat.two_pow_pos _)
  · exact positive

end Binary64

/-- Not-a-number is in no order with any double: it is neither below, above nor equal to it. -/
theorem Num.order?_nan
    {y : Float}
    (nan : y.isNaN = true)
    (x : Float) :
    Num.order? (.float y) (.float x) = none := by
  have unequal : (y == x) = false := by
    show y.toModel.unpack.beq x.toModel.unpack = false
    rw [Binary64.unpack_of_isNaN nan]
    rfl
  simp [Num.order?, Binary64.not_lt_of_isNaN_left nan, Binary64.not_lt_of_isNaN_right nan, unequal]

/-- A double compares with the integer zero exactly as with the double zero. -/
theorem Num.order?_float_int_zero
    (x : Float) :
    Num.order? (.float x) (.int 0) = Num.order? (.float x) (.float 0.0) := by
  have zero : (0.0 : Float).toModel.unpack = .zero .positive := rfl
  simp only [Num.order?, Binary64.float_lt_iff, zero, Binary64.beq_zero_eq]
  unfold Binary64.compareInt
  rw [Binary64.shape_eq_ofUnpacked]
  generalize x.toModel.unpack = u
  cases u with
  | notANumber => rfl
  | infinity s => cases s <;> rfl
  | zero s =>
      obtain ⟨den, nothing⟩ : ∃ den, Binary64.magnitude 0 Binary64.leastExponent = (0, den) := by
        unfold Binary64.magnitude
        split
        · exact ⟨_, by rw [Nat.zero_mul]⟩
        · exact ⟨_, rfl⟩
      simp only [Binary64.Shape.ofUnpacked, nothing, Int.zero_mul, Int.natCast_zero, Int.neg_zero,
        ite_self]
      cases s <;> rfl
  | finite s m e valid =>
      have positive := Binary64.magnitude_num_pos valid e
      simp only [Binary64.Shape.ofUnpacked, Int.zero_mul]
      generalize Binary64.magnitude m e = parts at positive
      obtain ⟨num, den⟩ := parts
      have below : compare (0 : ℤ) num = .lt := Int.compare_eq_lt.mpr (by simpa using positive)
      have above : compare (0 : ℤ) (-num) = .gt := Int.compare_eq_gt.mpr (by simpa using positive)
      cases s with
      | positive =>
          have signs : (UnpackedFloat.Sign.positive == .negative) = false := rfl
          simp only [signs, Bool.false_eq_true, if_false, below]
          rfl
      | negative =>
          have signs : (UnpackedFloat.Sign.negative == .negative) = true := rfl
          simp only [signs, if_true, above]
          rfl

/-- A number compares with the integer zero as its rank does with the rank of zero. -/
theorem Value.compareWith_float_int_zero
    (op : Value.Comparison)
    {x : Float}
    (number : x.isNaN = false) :
    Value.compareWith op (.float x) (.int 0) =
      .ok (op.holds (compare (doubleRank x) (doubleRank 0.0))) := by
  have zeroNumber : (0.0 : Float).isNaN = false := rfl
  simp only [Value.compareWith, Value.num?, Num.order?_float_int_zero,
    Num.order?_float number zeroNumber, Option.map_some, Option.getD_some]

/-- A number is below the integer zero exactly when it is below the double zero. -/
theorem Value.lt_int_zero
    {x : Float}
    (number : x.isNaN = false) :
    Value.lt (.float x) (.int 0) = .ok (decide (x < 0.0)) := by
  have zeroNumber : (0.0 : Float).isNaN = false := rfl
  rw [Value.lt, Value.compareWith_float_int_zero .lt number]
  simp only [doubleRank_lt_iff number zeroNumber, ← compare_lt_iff_lt]
  cases compare (doubleRank x) (doubleRank 0.0) <;> rfl

/-- A number is at most the integer zero exactly when it is not above the double zero. -/
theorem Value.compareWith_le_int_zero
    {x : Float}
    (number : x.isNaN = false) :
    Value.compareWith .le (.float x) (.int 0) = .ok (!decide (0.0 < x)) := by
  have zeroNumber : (0.0 : Float).isNaN = false := rfl
  rw [Value.compareWith_float_int_zero .le number]
  simp only [doubleRank_lt_iff zeroNumber number, ← compare_gt_iff_gt]
  cases compare (doubleRank x) (doubleRank 0.0) <;> rfl

namespace Binary64

/-- A number that the exact comparison with the integer zero finds not below it is at least
zero. -/
theorem zero_le_of_not_lt_int
    {w : Float}
    (number : w.isNaN = false)
    (notBelow : Value.lt (.float w) (.int 0) = .ok false) :
    0.0 ≤ w := by
  rw [Value.lt_int_zero number, Except.ok.injEq, decide_eq_false_iff_not] at notBelow
  exact float_le_of_not_lt rfl number notBelow

/-! ## The nearest double to a quotient -/

/-- Rounding a quotient of naturals half to even is rounding the rational quotient. -/
theorem roundHalfEven_eq
    (n d : ℕ)
    (positive : 0 < d) :
    (roundHalfEven n d : ℤ) = roundEven ((n : ℚ) / d) := by
  have dPositive : (0 : ℚ) < d := by exact_mod_cast positive
  obtain ⟨k, r, below, rfl⟩ : ∃ k r, r < d ∧ n = d * k + r :=
    ⟨n / d, n % d, Nat.mod_lt n positive, (Nat.div_add_mod n d).symm⟩
  have quotient : (d * k + r) / d = k := by
    rw [Nat.mul_comm, Nat.add_comm, Nat.add_mul_div_right _ _ positive, Nat.div_eq_of_lt below,
      Nat.zero_add]
  have remainder : (d * k + r) % d = r := by
    rw [Nat.add_comm, Nat.add_mul_mod_self_left, Nat.mod_eq_of_lt below]
  have fraction : ((r : ℕ) : ℚ) / d < 1 := by
    rw [div_lt_one dPositive]
    exact_mod_cast below
  have value : ((d * k + r : ℕ) : ℚ) / d = ((k : ℤ) : ℚ) + r / d := by
    push_cast
    field_simp
  have floor : ⌊((d * k + r : ℕ) : ℚ) / d⌋ = k := by
    rw [value, Int.floor_eq_iff]
    have : (0 : ℚ) ≤ r / d := div_nonneg (Nat.cast_nonneg r) dPositive.le
    constructor <;> linarith
  rw [roundEven_of_floor_eq floor, value, add_sub_cancel_left]
  have lower : (r : ℚ) / d < 1 / 2 ↔ 2 * r < d := by
    rw [div_lt_iff₀ dPositive, ← Nat.cast_lt (α := ℚ)]
    push_cast
    constructor <;> intro h <;> linarith
  have upper : 1 / 2 < (r : ℚ) / d ↔ d < 2 * r := by
    rw [lt_div_iff₀ dPositive, ← Nat.cast_lt (α := ℚ)]
    push_cast
    constructor <;> intro h <;> linarith
  unfold roundHalfEven
  simp only [quotient, remainder, lower, upper]
  split_ifs <;> simp_all <;> omega

/-- The scaled quotient at exponent `e` is the quotient over `2^e`. -/
theorem scaled_div
    (num den : ℕ)
    (e : ℤ) :
    ((scaled num den e).1 : ℚ) / (scaled num den e).2 = (num : ℚ) / den / 2 ^ e := by
  unfold scaled
  split
  next nonneg =>
    obtain ⟨j, rfl⟩ := Int.eq_ofNat_of_zero_le nonneg
    rw [Int.toNat_natCast, zpow_natCast, Nat.pow_eq]
    push_cast
    rw [div_div]
  next negative =>
    obtain ⟨j, rfl⟩ : ∃ j : ℕ, e = -(j : ℤ) := ⟨(-e).toNat, by omega⟩
    rw [neg_neg, Int.toNat_natCast, zpow_neg, zpow_natCast, Nat.pow_eq]
    push_cast
    rw [div_inv_eq_mul, div_mul_eq_mul_div]

/-- The exponent estimated from the binary lengths of numerator and denominator, lowered by one
when the quotient over it falls short of `2^52`, is 52 below the leading binary digit of the
quotient. The quotient over the first estimate falls short of `2^52` exactly when the quotient is
below two to the difference of the binary lengths. -/
theorem estimate_eq_log
    {num den : ℕ}
    (numPositive : num ≠ 0)
    (denPositive : den ≠ 0) :
    (if (scaled num den ((num.log2 : ℤ) - den.log2 - 52)).1 /
          (scaled num den ((num.log2 : ℤ) - den.log2 - 52)).2 < Nat.pow 2 fractionBits
      then (num.log2 : ℤ) - den.log2 - 52 - 1 else (num.log2 : ℤ) - den.log2 - 52) =
      Int.log 2 ((num : ℚ) / den) - 52 := by
  have denPos : (0 : ℚ) < den := by exact_mod_cast Nat.pos_of_ne_zero denPositive
  have numLower : (2 : ℚ) ^ (num.log2 : ℤ) ≤ num := by
    rw [zpow_natCast]
    exact_mod_cast Nat.log2_self_le numPositive
  have numUpper : (num : ℚ) < 2 ^ ((num.log2 : ℤ) + 1) := by
    rw [show (num.log2 : ℤ) + 1 = ((num.log2 + 1 : ℕ) : ℤ) by push_cast; ring, zpow_natCast]
    exact_mod_cast Nat.lt_log2_self
  have denLower : (2 : ℚ) ^ (den.log2 : ℤ) ≤ den := by
    rw [zpow_natCast]
    exact_mod_cast Nat.log2_self_le denPositive
  have denUpper : (den : ℚ) < 2 ^ ((den.log2 : ℤ) + 1) := by
    rw [show (den.log2 : ℤ) + 1 = ((den.log2 + 1 : ℕ) : ℤ) by push_cast; ring, zpow_natCast]
    exact_mod_cast Nat.lt_log2_self
  generalize (num.log2 : ℤ) = a at numLower numUpper ⊢
  generalize (den.log2 : ℤ) = c at denLower denUpper ⊢
  have short : (scaled num den (a - c - 52)).1 / (scaled num den (a - c - 52)).2 <
      Nat.pow 2 fractionBits ↔ (num : ℚ) / den < 2 ^ (a - c) := by
    rw [Nat.div_lt_iff_lt_mul (scaled_den_pos num denPositive _), show fractionBits = 52 from rfl,
      scaled_lt_iff, div_lt_iff₀ denPos]
    rw [show (2 : ℚ) ^ (a - c) = 2 ^ 52 * 2 ^ (a - c - 52) by
      rw [← two_zpow_add_nat]; ring_nf]
    constructor <;> intro h <;> linarith
  split
  next below =>
    have lower : (2 : ℚ) ^ (a - c - 1) ≤ num / den := by
      rw [le_div_iff₀ denPos]
      calc (2 : ℚ) ^ (a - c - 1) * den ≤ 2 ^ (a - c - 1) * 2 ^ (c + 1) :=
            mul_le_mul_of_nonneg_left denUpper.le (zpow_nonneg zero_le_two _)
        _ = 2 ^ a := by rw [← zpow_add₀ two_ne_zero]; ring_nf
        _ ≤ num := numLower
    have log := log_two_eq lower (by rw [sub_add_cancel]; exact short.mp below)
    omega
  next atLeast =>
    have lower : (2 : ℚ) ^ (a - c) ≤ num / den := not_lt.mp (mt short.mpr atLeast)
    have upper : (num : ℚ) / den < 2 ^ (a - c + 1) := by
      rw [div_lt_iff₀ denPos]
      calc (num : ℚ) < 2 ^ (a + 1) := numUpper
        _ = 2 ^ (a - c + 1) * 2 ^ c := by rw [← zpow_add₀ two_ne_zero]; ring_nf
        _ ≤ 2 ^ (a - c + 1) * den := mul_le_mul_of_nonneg_left denLower (zpow_nonneg zero_le_two _)
    have log := log_two_eq lower upper
    omega

/-- The significand and exponent of the double nearest to a positive quotient: its units at
its last place, or `2^52` one place higher when the units round up to `2^53`. -/
theorem nearestParts_eq
    {num den : ℕ}
    (numPositive : num ≠ 0)
    (denPositive : den ≠ 0) :
    nearestParts num den =
      if units ((num : ℚ) / den) = 2 ^ 53 then (2 ^ 52, lastPlace ((num : ℚ) / den) + 1)
      else ((units ((num : ℚ) / den)).toNat, lastPlace ((num : ℚ) / den)) := by
  have rounded : roundHalfEven (scaled num den (lastPlace ((num : ℚ) / den))).1
      (scaled num den (lastPlace ((num : ℚ) / den))).2 = (units ((num : ℚ) / den)).toNat := by
    have quotient := roundHalfEven_eq (scaled num den (lastPlace ((num : ℚ) / den))).1 _
      (scaled_den_pos num denPositive (lastPlace ((num : ℚ) / den)))
    rw [scaled_div] at quotient
    rw [units, ← quotient, Int.toNat_natCast]
  have unitsNonneg : 0 ≤ units ((num : ℚ) / den) :=
    units_nonneg (div_nonneg (Nat.cast_nonneg _) (Nat.cast_nonneg _))
  unfold nearestParts
  dsimp only
  rw [estimate_eq_log numPositive denPositive]
  rw [show max (Int.log 2 ((num : ℚ) / den) - 52) leastExponent = lastPlace ((num : ℚ) / den)
    from rfl, rounded]
  by_cases carry : units ((num : ℚ) / den) = 2 ^ 53
  · rw [if_pos carry, carry, if_pos (by decide)]
    rfl
  · rw [if_neg carry, if_neg]
    rw [beq_iff_eq]
    intro reached
    apply carry
    have : ((units ((num : ℚ) / den)).toNat : ℤ) = 2 ^ 53 := by
      rw [reached]
      rfl
    rwa [Int.toNat_of_nonneg unitsNonneg] at this

/-- The nearest double to a positive quotient, as its significand and exponent: their value,
and a significand short of 53 bits only at the least exponent. -/
theorem nearestParts_value
    {num den : ℕ}
    (numPositive : num ≠ 0)
    (denPositive : den ≠ 0) :
    ((nearestParts num den).1 : ℚ) * 2 ^ (nearestParts num den).2 =
        nearestPositive ((num : ℚ) / den) ∧
      ((nearestParts num den).1 < 2 ^ 52 → (nearestParts num den).2 = -1074) := by
  have unitsNonneg : 0 ≤ units ((num : ℚ) / den) :=
    units_nonneg (div_nonneg (Nat.cast_nonneg _) (Nat.cast_nonneg _))
  rw [nearestParts_eq numPositive denPositive]
  by_cases carry : units ((num : ℚ) / den) = 2 ^ 53
  · rw [if_pos carry, nearestPositive, carry]
    refine ⟨?_, fun short => absurd short (lt_irrefl _)⟩
    push_cast
    rw [zpow_add_one₀ two_ne_zero]
    ring
  · rw [if_neg carry]
    refine ⟨?_, fun short => ?_⟩
    · rw [nearestPositive]
      congr 1
      exact_mod_cast Int.toNat_of_nonneg unitsNonneg
    · by_contra normal
      have full := two_pow_le_units (by positivity : (0 : ℚ) < num / den) normal
      simp only at short
      omega

/-- A rational whose nearest double is finite rounds to that double. -/
theorem roundExtended_of_lt
    {q : ℚ}
    (below : nearest q < overflowBound)
    (above : -overflowBound < nearest q) :
    roundExtended q = point (nearest q) := by
  rw [roundExtended, if_neg (not_le.mpr below), if_neg (not_le.mpr above)]

/-- The double the conversion builds for `±num / den` is the nearest double to it. The double it
builds is finite: a zero, or a significand below `2^53` at an exponent of at most 971. -/
theorem ofRatio_extended
    {neg : Bool}
    {num den : ℕ}
    {x : Float}
    (rounded : ofRatio neg num den = some x) :
    extended x.toModel.unpack = roundExtended (if neg then -((num : ℚ) / den) else num / den) := by
  unfold ofRatio at rounded
  split at rounded
  · next zero =>
      have quotient : (num : ℚ) / den = 0 := by
        simp only [Bool.or_eq_true, beq_iff_eq] at zero
        rcases zero with same | same <;> simp [same]
      obtain ⟨-, placed⟩ := encode_extended (by norm_num) (by norm_num)
        (fun nonzero => absurd rfl nonzero) rounded
      rw [placed, quotient, neg_zero, ite_self, roundExtended_zero]
      simp
  · next nonzero =>
      simp only [Bool.or_eq_true, beq_iff_eq, not_or] at nonzero
      obtain ⟨value, subnormal⟩ := nearestParts_value nonzero.1 nonzero.2
      have small : (nearestParts num den).1 < Nat.pow 2 53 := nearestParts_sig_lt nonzero.2
      have least := leastExponent_le_nearestParts num den
      generalize nearestParts num den = parts at value subnormal small least rounded
      obtain ⟨sig, exp⟩ := parts
      dsimp only at value subnormal small least rounded
      obtain ⟨fits, placed⟩ := encode_extended small least (fun _ short => subnormal short) rounded
      have bound := overflowBound_pos
      have quotientNonneg : (0 : ℚ) ≤ num / den := div_nonneg (Nat.cast_nonneg num) (Nat.cast_nonneg den)
      have nonneg := nearestPositive_nonneg quotientNonneg
      have finite : nearestPositive ((num : ℚ) / den) < overflowBound := by
        rw [← value]
        by_cases empty : sig = 0
        · rw [empty, Nat.cast_zero, zero_mul]
          exact bound
        · have greatest := fits.resolve_left empty
          by_cases full : 2 ^ 52 ≤ sig
          · exact Canonical.lt_overflowBound ⟨by omega, small, least, Or.inl full⟩ greatest
          · exact Canonical.lt_overflowBound ⟨by omega, small, least,
              Or.inr (subnormal (by omega))⟩ greatest
      rw [placed, value]
      cases neg
      · simp only [Bool.false_eq_true, if_false]
        rw [roundExtended_of_lt (by rwa [nearest_of_nonneg quotientNonneg])
          (by rw [nearest_of_nonneg quotientNonneg]; linarith), nearest_of_nonneg quotientNonneg]
      · simp only [if_true]
        rw [roundExtended_of_lt (by rw [nearest_neg, nearest_of_nonneg quotientNonneg]; linarith)
          (by rw [nearest_neg, nearest_of_nonneg quotientNonneg]; linarith), nearest_neg,
          nearest_of_nonneg quotientNonneg]

/-! ## Integers -/

/-- The double of an integer is the nearest double to it. -/
theorem ofInt_extended
    {n : ℤ}
    {x : Float}
    (converts : ofInt n = some x) :
    extended x.toModel.unpack = roundExtended n := by
  rw [ofRatio_extended converts, Nat.cast_one, div_one, Nat.cast_natAbs]
  congr 1
  by_cases negative : n < 0
  · rw [if_pos (decide_eq_true negative), Int.cast_abs, abs_of_neg (by exact_mod_cast negative),
      neg_neg]
  · rw [if_neg (by simpa using negative), Int.cast_abs,
      abs_of_nonneg (by exact_mod_cast not_lt.mp negative)]

/-- The value of the double an integer converts to is the nearest double to the integer. -/
theorem toRat_ofInt
    {n : ℤ}
    {x : Float}
    (converts : ofInt n = some x) :
    toRat x = nearest n := by
  have placed := extended_eq_point_iff.mpr ⟨(ofInt_finite converts).1, rfl⟩
  rw [ofInt_extended converts, ← extendPoint_point roundExtended (n : ℚ)] at placed
  obtain ⟨q, same, rounded⟩ := eq_point_of_extendPoint_roundExtended placed
  rw [rounded, point_inj.mp same]

/-- A natural converts to a double at least zero. -/
theorem zero_le_ofInt_natCast
    {n : ℕ}
    {x : Float}
    (converts : ofInt n = some x) :
    0.0 ≤ x := by
  unfold ofInt at converts
  rw [decide_eq_false (by omega : ¬ (n : ℤ) < 0)] at converts
  exact zero_le_ofRatio converts

/-- Converting integers to doubles keeps order. -/
theorem ofInt_le_ofInt
    {m n : ℤ}
    {x y : Float}
    (le : m ≤ n)
    (convertsM : ofInt m = some x)
    (convertsN : ofInt n = some y) :
    x ≤ y := by
  rw [le_iff_extended (number_of_isFinite (ofInt_finite convertsM).1).1
    (number_of_isFinite (ofInt_finite convertsN).1).1, ofInt_extended convertsM,
    ofInt_extended convertsN]
  exact roundExtended_mono (by exact_mod_cast le)

end Binary64

end CorridorRank
