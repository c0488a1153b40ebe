import Daybook.Proofs.Decimal.Rounding
import Mathlib.Algebra.Order.Field.Basic
import Mathlib.Algebra.Order.Field.Rat
import Mathlib.Tactic.FieldSimp
import Mathlib.Tactic.Linarith
import Mathlib.Tactic.Ring

/-!
# Decimals as rational numbers

A decimal stands for a rational number, `± mantissa / 10 ^ scale` (`Decimal.value`). A sum or a product of two
decimals loses last places where it must, and there is none only where even its whole part does not fit: the exact
sum or product is half of one below the first number that is no mantissa, or beyond (`add_eq_none_iff`,
`mul_eq_none_iff`). What is exactly half is rounded to that number, as the one before it is odd.
-/

namespace Daybook

namespace Decimal

variable {a b c : Decimal}

/-! ### Values -/

/-- The number that a decimal stands for. -/
def value (d : Decimal) : ℚ :=
  (if d.negative then -(d.mantissa : ℚ) else d.mantissa) / powerOfTen d.scale

theorem powerOfTen_cast_pos (n : Nat) : (0 : ℚ) < powerOfTen n := Nat.cast_pos.2 (powerOfTen_pos n)

@[simp]
theorem value_neg (d : Decimal) : d.neg.value = -d.value := by
  cases sign : d.negative <;> simp [value, neg, sign, neg_div]

@[simp]
theorem value_one : one.value = 1 := by
  simp [value, one, ofNat, powerOfTen]

theorem abs_value (d : Decimal) : |d.value| = d.mantissa / powerOfTen d.scale := by
  rw [value, abs_div, Nat.abs_cast]
  split
  · rw [abs_neg, Nat.abs_cast]
  · rw [Nat.abs_cast]

theorem value_of_isZero {d : Decimal} (h : d.isZero = true) : d.value = 0 := by
  rw [← abs_eq_zero, abs_value, beq_iff_eq.1 h, Nat.cast_zero, zero_div]

/-- A decimal with more places is the same number. -/
theorem atScale_cast (d : Decimal) {scale : Nat} (covered : d.scale ≤ scale) :
    (d.atScale scale : ℚ) = d.value * powerOfTen scale := by
  have power : (powerOfTen scale : ℚ) = powerOfTen (scale - d.scale) * powerOfTen d.scale := by
    rw [← Nat.cast_mul, ← powerOfTen_add, Nat.sub_add_cancel covered]
  have positive := powerOfTen_cast_pos d.scale
  rw [atScale, value, power]
  split
  · push_cast
    field_simp
  · push_cast
    field_simp

theorem units_cast (d : Decimal) : (d.units : ℚ) = d.value * powerOfTen 28 := atScale_cast d d.scale_le

theorem units_eq_add_iff : c.units = a.units + b.units ↔ c.value = a.value + b.value := by
  rw [← Int.cast_inj (α := ℚ), Int.cast_add, units_cast, units_cast, units_cast, ← add_mul,
    mul_left_inj' (powerOfTen_cast_pos 28).ne']

theorem units_eq_sub_iff : c.units = a.units - b.units ↔ c.value = a.value - b.value := by
  rw [← Int.cast_inj (α := ℚ), Int.cast_sub, units_cast, units_cast, units_cast, ← sub_mul,
    mul_left_inj' (powerOfTen_cast_pos 28).ne']

/-! ### What fits -/

/-- Rounded to a whole number, this is a mantissa with a sign. -/
def Fits (x : ℚ) : Prop := |x| < limit - 1 / 2

theorem fits_abs_iff {x : ℚ} : Fits |x| ↔ Fits x := by
  rw [Fits, Fits, abs_abs]

/-- One half above the last mantissa, which is odd, is rounded up. -/
theorem halfEven_lt_limit_iff {n d : Nat} (positive : 0 < d) :
    halfEven n d < limit ↔ 2 * n < (2 * limit - 1) * d := by
  have parts := Nat.div_add_mod' n d
  have rest := Nat.mod_lt n positive
  simp only [halfEven]
  generalize n / d = q at *
  generalize n % d = r at *
  subst parts
  rcases Nat.lt_trichotomy q (limit - 1) with less | rfl | more
  · have room : (q + 1) * d ≤ (limit - 1) * d := Nat.mul_le_mul_right d less
    rw [Nat.add_mul, Nat.one_mul] at room
    simp only [limit] at *
    split <;> omega
  · simp only [limit, and_true]
    split <;> omega
  · have past : limit * d ≤ q * d := Nat.mul_le_mul_right d (by omega)
    simp only [limit] at *
    split <;> omega

theorem fits_div_iff {mantissa scale : Nat} :
    Fits (mantissa / powerOfTen scale) ↔ halfEven mantissa (powerOfTen scale) < limit := by
  have positive := powerOfTen_cast_pos scale
  have whole : ((2 * limit - 1 : Nat) : ℚ) = 2 * limit - 1 := by
    rw [Nat.cast_sub (by decide)]
    push_cast
    rfl
  rw [halfEven_lt_limit_iff (powerOfTen_pos scale), ← Nat.cast_lt (α := ℚ), Fits, abs_div, Nat.abs_cast,
    Nat.abs_cast, div_lt_iff₀ positive]
  push_cast
  rw [whole]
  constructor <;> intro h <;> linarith

/-- There is no rounded decimal exactly where not even the whole part fits. -/
theorem rounded_eq_none_iff {negative : Bool} {mantissa scale : Nat} :
    rounded negative mantissa scale = none ↔ ¬ Fits (mantissa / powerOfTen scale) := by
  rw [fits_div_iff, rounded, List.findSome?_eq_none_iff]
  simp only [fit?_eq_none_iff, List.mem_range]
  constructor
  · intro none fits
    exact none scale (Nat.lt_succ_self scale) ⟨fits, by simp⟩
  · rintro large dropped dropped_lt ⟨fits, -⟩
    -- Dropping fewer places leaves even more digits.
    have fewer : powerOfTen dropped ≤ powerOfTen scale := Nat.pow_le_pow_right (by decide) (by omega)
    rw [halfEven_lt_limit_iff (powerOfTen_pos _)] at fits large
    exact large (Nat.lt_of_lt_of_le fits (Nat.mul_le_mul_left _ fewer))

/-- What is no longer than a mantissa fits with any number of places. -/
theorem fits_of_lt {digits : Nat} (short : digits < limit) (scale : Nat) :
    Fits ((digits : ℚ) / powerOfTen scale) := by
  have digits_le : ((digits + 1 : Nat) : ℚ) ≤ limit := Nat.cast_le.2 short
  have places : (digits : ℚ) / powerOfTen scale ≤ digits :=
    div_le_self (Nat.cast_nonneg _) (Nat.one_le_cast.2 (powerOfTen_pos _))
  rw [Fits, abs_of_nonneg (div_nonneg (Nat.cast_nonneg _) (powerOfTen_cast_pos scale).le)]
  push_cast at digits_le
  linarith

theorem fits_value (d : Decimal) : Fits d.value := by
  rw [← fits_abs_iff, abs_value]
  exact fits_of_lt d.mantissa_lt d.scale

/-! ### Sums and products -/

/-- **There is no sum** exactly where the exact one does not fit. -/
theorem add_eq_none_iff : a.add b = none ↔ ¬ Fits (a.value + b.value) := by
  rw [add]
  split
  · next zero =>
    rw [value_of_isZero zero, zero_add]
    exact iff_of_false (Option.some_ne_none b) (not_not.2 (fits_value b))
  split
  · next zero =>
    rw [value_of_isZero zero, add_zero]
    exact iff_of_false (Option.some_ne_none a) (not_not.2 (fits_value a))
  · dsimp only
    have left := atScale_cast a (Nat.le_max_left a.scale b.scale)
    have right := atScale_cast b (Nat.le_max_right a.scale b.scale)
    generalize max a.scale b.scale = scale at *
    have positive := powerOfTen_cast_pos scale
    have size : |a.value + b.value| = ((a.atScale scale + b.atScale scale).natAbs : ℚ) / powerOfTen scale := by
      rw [Nat.cast_natAbs, Int.cast_abs, Int.cast_add, left, right, ← add_mul, abs_mul, abs_of_pos positive,
        mul_div_cancel_right₀ _ positive.ne']
    rw [rounded_eq_none_iff, ← size, fits_abs_iff]

/-- A difference is the sum with the other sign. -/
theorem sub_eq_none_iff : a.sub b = none ↔ ¬ Fits (a.value - b.value) := by
  rw [sub]
  split
  · next zeros =>
    obtain ⟨left, right⟩ := Bool.and_eq_true_iff.1 zeros
    have none : a.value - b.value = zero.value := by
      rw [value_of_isZero left, value_of_isZero right, value_of_isZero rfl, sub_zero]
    rw [none]
    exact iff_of_false (Option.some_ne_none b) (not_not.2 (fits_value zero))
  · rw [add_eq_none_iff, value_neg, sub_eq_add_neg]

/-- **There is no product** exactly where the exact one does not fit. -/
theorem mul_eq_none_iff : a.mul b = none ↔ ¬ Fits (a.value * b.value) := by
  have size : |a.value * b.value| = ((a.mantissa * b.mantissa : Nat) : ℚ) / powerOfTen (a.scale + b.scale) := by
    rw [abs_mul, abs_value, abs_value, powerOfTen_add, div_mul_div_comm, Nat.cast_mul, Nat.cast_mul]
  rw [← fits_abs_iff, size]
  simp only [mul]
  split
  · next factor =>
    have none : a.mantissa * b.mantissa = 0 := by simpa [isZero] using factor
    rw [none]
    exact iff_of_false (Option.some_ne_none _) (not_not.2 (fits_of_lt (by decide) _))
  split
  · next short =>
    obtain ⟨⟨shortLeft, shortRight⟩, -⟩ :
        (a.mantissa < 4294967296 ∧ b.mantissa < 4294967296) ∧ 47 < a.scale + b.scale := by
      simpa [isSmall] using short
    have digits : a.mantissa * b.mantissa < limit :=
      Nat.lt_of_le_of_lt (Nat.mul_le_mul (Nat.le_of_lt shortLeft) (Nat.le_of_lt shortRight)) (by decide)
    exact iff_of_false (Option.some_ne_none _) (not_not.2 (fits_of_lt digits _))
  · rw [Option.map_eq_none_iff, rounded_eq_none_iff]

end Decimal

end Daybook
