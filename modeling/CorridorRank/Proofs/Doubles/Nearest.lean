import Mathlib

/-!
# The nearest double of a rational

A double is a significand times a power of two. For a positive rational `q`, the nearest
double has its last place 52 binary places below the leading digit of `q`, and never below
`2^-1074` (`Binary64.lastPlace`); its significand is `q` counted in units of that place and
rounded to the nearest integer, a tie going to the even one (`Binary64.roundEven`). A
significand that rounds up to `2^53` is the power of two that starts the next binade.
Rounding is symmetric about zero (`Binary64.nearest`), and a rational whose nearest double
reaches `2^1024`, beyond the largest finite double, rounds to an infinity
(`Binary64.roundExtended`).

Main statements: `Binary64.nearest_mono` and `Binary64.roundExtended_mono`. Rounding to the
nearest double keeps order, so a larger rational never rounds to a smaller double. Within one
binade this is the monotonicity of rounding to an integer; across binades the smaller rational
rounds to at most the power of two that ends its binade, and the larger one to at least it.
And a double is its own nearest double (`Binary64.Canonical.nearestPositive_eq`).
-/

namespace CorridorRank

namespace Binary64

/-! ## Rounding to an integer -/

/-- The integer nearest to `x`, a half going to the even neighbour. -/
def roundEven
    (x : ℚ) :
    ℤ :=
  if Int.fract x < 1 / 2 then ⌊x⌋
  else if 1 / 2 < Int.fract x then ⌊x⌋ + 1
  else if ⌊x⌋ % 2 = 0 then ⌊x⌋ else ⌊x⌋ + 1

/-- Rounding to an integer, read off an integer part known in advance. -/
theorem roundEven_of_floor_eq
    {x : ℚ}
    {n : ℤ}
    (floor : ⌊x⌋ = n) :
    roundEven x =
      if x - n < 1 / 2 then n
      else if 1 / 2 < x - n then n + 1
      else if n % 2 = 0 then n else n + 1 := by
  rw [roundEven, ← Int.self_sub_floor, floor]

/-- Rounding to an integer moves a rational by at most a half. -/
theorem abs_sub_roundEven_le
    (x : ℚ) :
    |(roundEven x : ℚ) - x| ≤ 1 / 2 := by
  have below := Int.floor_le x
  have above := Int.lt_floor_add_one x
  have fraction := Int.self_sub_floor x
  rw [roundEven, abs_le]
  split_ifs <;> push_cast <;> constructor <;> linarith

@[simp] theorem roundEven_intCast
    (n : ℤ) :
    roundEven n = n := by
  simp [roundEven]

@[simp] theorem roundEven_zero : roundEven 0 = 0 := by
  simp [roundEven]

/-- Rounding to an integer keeps order: two rationals that round the other way round are at
least one apart less two halves, so they are equal. -/
theorem roundEven_mono
    {x y : ℚ}
    (le : x ≤ y) :
    roundEven x ≤ roundEven y := by
  by_contra above
  have apart : (roundEven y : ℚ) + 1 ≤ roundEven x := by
    exact_mod_cast Int.add_one_le_iff.mpr (lt_of_not_ge above)
  have nearX := abs_le.mp (abs_sub_roundEven_le x)
  have nearY := abs_le.mp (abs_sub_roundEven_le y)
  have same : x = y := by linarith
  subst same
  exact above le_rfl

theorem roundEven_le_of_le
    {x : ℚ}
    {n : ℤ}
    (le : x ≤ n) :
    roundEven x ≤ n :=
  roundEven_intCast n ▸ roundEven_mono le

theorem le_roundEven_of_le
    {x : ℚ}
    {n : ℤ}
    (le : (n : ℚ) ≤ x) :
    n ≤ roundEven x :=
  roundEven_intCast n ▸ roundEven_mono le

/-! ## Binades -/

theorem two_zpow_add_nat
    (e : ℤ)
    (n : ℕ) :
    (2 : ℚ) ^ (e + n) = 2 ^ n * 2 ^ e := by
  rw [zpow_add₀ two_ne_zero, zpow_natCast, mul_comm]

/-- The exponent of the binary digit that leads a positive rational is `k` when the rational
lies from `2^k` up to `2^(k+1)`. -/
theorem log_two_eq
    {q : ℚ}
    {k : ℤ}
    (lower : 2 ^ k ≤ q)
    (upper : q < 2 ^ (k + 1)) :
    Int.log 2 q = k := by
  have positive : 0 < q := lt_of_lt_of_le (zpow_pos two_pos k) lower
  have atLeast : k ≤ Int.log 2 q := (Int.zpow_le_iff_le_log one_lt_two positive).mp (by exact_mod_cast lower)
  have below : Int.log 2 q < k + 1 := (Int.lt_zpow_iff_log_lt one_lt_two positive).mp (by exact_mod_cast upper)
  omega

/-- The exponent of the last place of the double nearest to a positive rational: 52 binary
places below its leading digit, and never below `-1074`, the last place of the subnormal
doubles. -/
def lastPlace
    (q : ℚ) :
    ℤ := max (Int.log 2 q - 52) (-1074)

theorem least_le_lastPlace
    (q : ℚ) :
    -1074 ≤ lastPlace q := le_max_right _ _

theorem lastPlace_mono
    {q r : ℚ}
    (positive : 0 < q)
    (le : q ≤ r) :
    lastPlace q ≤ lastPlace r := by
  have logs := Int.log_mono_right (b := 2) positive le
  unfold lastPlace
  omega

/-- A positive rational is below `2^53` units of its last place. -/
theorem lt_two_zpow_lastPlace
    (q : ℚ) :
    q < 2 ^ (lastPlace q + 53) := by
  have leading : q < (2 : ℚ) ^ (Int.log 2 q + 1) := by
    exact_mod_cast Int.lt_zpow_succ_log_self one_lt_two q
  refine leading.trans_le (zpow_le_zpow_right₀ one_le_two ?_)
  unfold lastPlace
  omega

/-- A positive rational whose last place is not the least one is at least `2^52` units of
it. -/
theorem two_zpow_lastPlace_le
    {q : ℚ}
    (positive : 0 < q)
    (normal : lastPlace q ≠ -1074) :
    2 ^ (lastPlace q + 52) ≤ q := by
  have leading : (2 : ℚ) ^ Int.log 2 q ≤ q := by
    exact_mod_cast Int.zpow_log_le_self one_lt_two positive
  have place : lastPlace q + 52 = Int.log 2 q := by
    unfold lastPlace at normal ⊢
    omega
  rwa [place]

/-! ## The nearest double -/

/-- The significand of the double nearest to a positive rational, in units of its last place:
`2^53` when it rounds up into the next binade. -/
def units
    (q : ℚ) :
    ℤ := roundEven (q / 2 ^ lastPlace q)

theorem units_nonneg
    {q : ℚ}
    (nonneg : 0 ≤ q) :
    0 ≤ units q :=
  le_roundEven_of_le (by simpa using div_nonneg nonneg (zpow_nonneg zero_le_two _))

theorem units_le_two_pow
    (q : ℚ) :
    units q ≤ 2 ^ 53 := by
  have scaled : q / 2 ^ lastPlace q ≤ (2 : ℚ) ^ 53 := by
    rw [div_le_iff₀ (zpow_pos two_pos _), ← two_zpow_add_nat]
    exact (lt_two_zpow_lastPlace q).le
  exact roundEven_le_of_le (by exact_mod_cast scaled)

theorem two_pow_le_units
    {q : ℚ}
    (positive : 0 < q)
    (normal : lastPlace q ≠ -1074) :
    2 ^ 52 ≤ units q := by
  have scaled : (2 : ℚ) ^ 52 ≤ q / 2 ^ lastPlace q := by
    rw [le_div_iff₀ (zpow_pos two_pos _), ← two_zpow_add_nat]
    exact two_zpow_lastPlace_le positive normal
  exact le_roundEven_of_le (by exact_mod_cast scaled)

/-- The double nearest to a positive rational, before the range of doubles is taken into
account. -/
def nearestPositive
    (q : ℚ) :
    ℚ := units q * 2 ^ lastPlace q

theorem nearestPositive_nonneg
    {q : ℚ}
    (nonneg : 0 ≤ q) :
    0 ≤ nearestPositive q :=
  mul_nonneg (by exact_mod_cast units_nonneg nonneg) (zpow_nonneg zero_le_two _)

/-- Rounding a positive rational to the nearest double keeps order. With one last place this
is rounding to an integer; across binades the smaller rational rounds to at most `2^53` units
of its own last place, a power of two that the larger one's `2^52` units reach. -/
theorem nearestPositive_mono
    {q r : ℚ}
    (positive : 0 < q)
    (le : q ≤ r) :
    nearestPositive q ≤ nearestPositive r := by
  have places := lastPlace_mono positive le
  rcases places.lt_or_eq with finer | same
  · have normal : lastPlace r ≠ -1074 := by
      have := least_le_lastPlace q
      omega
    have unitsQ : (units q : ℚ) ≤ 2 ^ 53 := by exact_mod_cast units_le_two_pow q
    have unitsR : (2 : ℚ) ^ 52 ≤ units r := by
      exact_mod_cast two_pow_le_units (positive.trans_le le) normal
    calc nearestPositive q ≤ 2 ^ 53 * 2 ^ lastPlace q :=
          mul_le_mul_of_nonneg_right unitsQ (zpow_nonneg zero_le_two _)
      _ = 2 ^ (lastPlace q + 53) := (two_zpow_add_nat _ 53).symm
      _ ≤ 2 ^ (lastPlace r + 52) := zpow_le_zpow_right₀ one_le_two (by omega)
      _ = 2 ^ 52 * 2 ^ lastPlace r := two_zpow_add_nat _ 52
      _ ≤ nearestPositive r := mul_le_mul_of_nonneg_right unitsR (zpow_nonneg zero_le_two _)
  · have scaled : q / 2 ^ lastPlace q ≤ r / 2 ^ lastPlace q :=
      div_le_div_of_nonneg_right le (zpow_nonneg zero_le_two _)
    have rounded : (units q : ℚ) ≤ units r := by
      rw [units, units, ← same]
      exact_mod_cast roundEven_mono scaled
    rw [nearestPositive, nearestPositive, ← same]
    exact mul_le_mul_of_nonneg_right rounded (zpow_nonneg zero_le_two _)

/-- The double nearest to a rational, a tie going to the even significand, before the range
of doubles is taken into account: rounding is symmetric about zero. -/
def nearest
    (q : ℚ) :
    ℚ :=
  if 0 ≤ q then nearestPositive q else -nearestPositive (-q)

/-- Rounding to the nearest double keeps order. -/
theorem nearest_mono
    {q r : ℚ}
    (le : q ≤ r) :
    nearest q ≤ nearest r := by
  unfold nearest
  by_cases rNonneg : 0 ≤ r
  · by_cases qPositive : 0 < q
    · rw [if_pos qPositive.le, if_pos rNonneg]
      exact nearestPositive_mono qPositive le
    · have below : (if 0 ≤ q then nearestPositive q else -nearestPositive (-q)) ≤ 0 := by
        split_ifs with qNonneg
        · have zero : q = 0 := le_antisymm (not_lt.mp qPositive) qNonneg
          simp [zero, nearestPositive, units]
        · exact neg_nonpos.mpr (nearestPositive_nonneg (by linarith))
      rw [if_pos rNonneg]
      exact below.trans (nearestPositive_nonneg rNonneg)
  · have qNegative : ¬ 0 ≤ q := fun qNonneg => rNonneg (qNonneg.trans le)
    rw [if_neg qNegative, if_neg rNonneg, neg_le_neg_iff]
    exact nearestPositive_mono (by linarith) (neg_le_neg le)

theorem nearest_of_nonneg
    {q : ℚ}
    (nonneg : 0 ≤ q) :
    nearest q = nearestPositive q :=
  if_pos nonneg

theorem nearest_of_neg
    {q : ℚ}
    (negative : q < 0) :
    nearest q = -nearestPositive (-q) :=
  if_neg (not_le.mpr negative)

@[simp] theorem nearestPositive_zero : nearestPositive 0 = 0 := by
  simp [nearestPositive, units]

/-- Rounding is symmetric about zero. -/
theorem nearest_neg
    (q : ℚ) :
    nearest (-q) = -nearest q := by
  unfold nearest
  rcases lt_trichotomy q 0 with negative | zero | positive
  · rw [if_pos (by linarith), if_neg (not_le.mpr negative), neg_neg]
  · simp [zero]
  · rw [if_neg (by linarith), if_pos positive.le, neg_neg]

/-! ## Doubles are their own nearest -/

/-- A rational from `m` to `m + 1` units of `2^e` leads with the binary digit of `m`. -/
theorem log_two_of_significand
    {m : ℕ}
    {e : ℤ}
    {q : ℚ}
    (positive : 0 < m)
    (lower : (m : ℚ) * 2 ^ e ≤ q)
    (upper : q < (m + 1) * 2 ^ e) :
    Int.log 2 q = m.log2 + e := by
  have leading : (2 : ℚ) ^ m.log2 ≤ m := by exact_mod_cast Nat.log2_self_le positive.ne'
  have next : (m : ℚ) + 1 ≤ 2 ^ (m.log2 + 1) := by exact_mod_cast Nat.lt_log2_self
  refine log_two_eq ?_ ?_
  · calc (2 : ℚ) ^ ((m.log2 : ℤ) + e) = 2 ^ m.log2 * 2 ^ e := by
          rw [add_comm, two_zpow_add_nat]
      _ ≤ m * 2 ^ e := mul_le_mul_of_nonneg_right leading (zpow_nonneg zero_le_two _)
      _ ≤ q := lower
  · calc q < (m + 1) * 2 ^ e := upper
      _ ≤ 2 ^ (m.log2 + 1) * 2 ^ e := mul_le_mul_of_nonneg_right next (zpow_nonneg zero_le_two _)
      _ = 2 ^ ((m.log2 : ℤ) + e + 1) := by
          rw [show (m.log2 : ℤ) + e + 1 = e + ((m.log2 + 1 : ℕ) : ℤ) by push_cast; ring,
            two_zpow_add_nat]

/-- A significand below `2^53` times a power of two from `2^-1074`, with a full 53 bits unless
the power is the least one: the finite doubles other than zero, as values. -/
structure Canonical (m : ℕ) (e : ℤ) : Prop where
  positive : 0 < m
  small : m < 2 ^ 53
  least : -1074 ≤ e
  full : 2 ^ 52 ≤ m ∨ e = -1074

/-- The last place of a double's value is its own exponent. -/
theorem Canonical.lastPlace_eq
    {m : ℕ}
    {e : ℤ}
    (canonical : Canonical m e) :
    lastPlace (m * 2 ^ e) = e := by
  have digits : m.log2 ≤ 52 := Nat.le_of_lt_succ ((Nat.log2_lt canonical.positive.ne').mpr canonical.small)
  have leading : Int.log 2 ((m : ℚ) * 2 ^ e) = m.log2 + e :=
    log_two_of_significand canonical.positive le_rfl (by linarith [zpow_pos (two_pos (α := ℚ)) e])
  have least := canonical.least
  unfold lastPlace
  rw [leading]
  rcases canonical.full with full | least
  · have fullDigits : 52 ≤ m.log2 := (Nat.le_log2 canonical.positive.ne').mpr full
    omega
  · omega

/-- A double is its own nearest double. -/
theorem Canonical.nearestPositive_eq
    {m : ℕ}
    {e : ℤ}
    (canonical : Canonical m e) :
    nearestPositive (m * 2 ^ e) = m * 2 ^ e := by
  have scaled : (m : ℚ) * 2 ^ e / 2 ^ e = ((m : ℤ) : ℚ) := by
    rw [mul_div_cancel_right₀ _ (zpow_ne_zero _ two_ne_zero)]
    rfl
  rw [nearestPositive, units, canonical.lastPlace_eq, scaled, roundEven_intCast]
  rfl

/-- `2^1024`, just above the largest finite double: a rational whose nearest double is this
large rounds to an infinity. -/
def overflowBound : ℚ := 2 ^ 1024

theorem overflowBound_pos : 0 < overflowBound := by
  unfold overflowBound
  positivity

/-- A double's value is below `2^1024`. -/
theorem Canonical.lt_overflowBound
    {m : ℕ}
    {e : ℤ}
    (canonical : Canonical m e)
    (greatest : e ≤ 971) :
    (m : ℚ) * 2 ^ e < overflowBound := by
  have small : (m : ℚ) < 2 ^ 53 := by exact_mod_cast canonical.small
  calc (m : ℚ) * 2 ^ e < 2 ^ 53 * 2 ^ e := mul_lt_mul_of_pos_right small (zpow_pos two_pos _)
    _ = 2 ^ (e + 53) := (two_zpow_add_nat e 53).symm
    _ ≤ 2 ^ (1024 : ℤ) := zpow_le_zpow_right₀ one_le_two (by omega)
    _ = overflowBound := zpow_natCast 2 1024

/-! ## The range of doubles -/

/-- A rational as a point of the extended line, between its two infinities. -/
def point
    (q : ℚ) :
    WithBot (WithTop ℚ) := ((q : WithTop ℚ) : WithBot (WithTop ℚ))

@[simp] theorem point_le_point
    {q r : ℚ} :
    point q ≤ point r ↔ q ≤ r := by
  simp only [point, WithBot.coe_le_coe, WithTop.coe_le_coe]

@[simp] theorem point_lt_point
    {q r : ℚ} :
    point q < point r ↔ q < r := by
  simp only [point, WithBot.coe_lt_coe, WithTop.coe_lt_coe]

@[simp] theorem point_inj
    {q r : ℚ} :
    point q = point r ↔ q = r := by
  simp only [point, WithBot.coe_inj, WithTop.coe_inj]

@[simp] theorem bot_lt_point
    (q : ℚ) :
    ⊥ < point q := WithBot.bot_lt_coe _

@[simp] theorem point_lt_top
    (q : ℚ) :
    point q < ⊤ := WithBot.coe_lt_coe.mpr (WithTop.coe_lt_top q)

/-- The double nearest to a rational, on the extended line: a rational whose nearest double
is `2^1024` or beyond, past the largest finite double, rounds to an infinity. -/
def roundExtended
    (q : ℚ) :
    WithBot (WithTop ℚ) :=
  if overflowBound ≤ nearest q then ⊤
  else if nearest q ≤ -overflowBound then ⊥
  else point (nearest q)

/-- Rounding to a double reads only the nearest double. -/
theorem roundExtended_congr
    {q r : ℚ}
    (same : nearest q = nearest r) :
    roundExtended q = roundExtended r := by
  rw [roundExtended, roundExtended, same]

@[simp] theorem roundExtended_zero : roundExtended 0 = point 0 := by
  have zero : nearest 0 = 0 := by simp [nearest]
  have bound := overflowBound_pos
  rw [roundExtended, zero, if_neg (by linarith), if_neg (by linarith)]

/-- Rounding to a double, infinities included, keeps order. -/
theorem roundExtended_mono
    {q r : ℚ}
    (le : q ≤ r) :
    roundExtended q ≤ roundExtended r := by
  have rounded := nearest_mono le
  unfold roundExtended
  by_cases overR : overflowBound ≤ nearest r
  · rw [if_pos overR]
    exact le_top
  have notOverQ : ¬ overflowBound ≤ nearest q := fun reached => overR (reached.trans rounded)
  by_cases underQ : nearest q ≤ -overflowBound
  · rw [if_neg notOverQ, if_pos underQ]
    exact bot_le
  have notUnderR : ¬ nearest r ≤ -overflowBound := fun under => underQ (rounded.trans under)
  rw [if_neg notOverQ, if_neg underQ, if_neg overR, if_neg notUnderR]
  exact point_le_point.mpr rounded

end Binary64

end CorridorRank
