import Daybook.Proofs.Decimal.Exact

/-!
# Where rounding ends at zero

Sums and products lose last places only. So the sign of a sum is the sign of the exact sum
(`sign_units_add`), and a product is zero only where the exact product is at most half of the smallest
decimal above zero (`isZero_mul_iff`).
-/

namespace Daybook

namespace Decimal

/-! ### Rounding half to even -/

theorem halfEven_le (n d : Nat) : halfEven n d ≤ n / d + 1 := by
  simp only [halfEven]
  split <;> omega

theorem div_le_halfEven (n d : Nat) : n / d ≤ halfEven n d := by
  simp only [halfEven]
  split <;> omega

/-- Up to one half is rounded to nothing. -/
theorem halfEven_eq_zero_iff {n d : Nat} (positive : 0 < d) : halfEven n d = 0 ↔ 2 * n ≤ d := by
  by_cases below : n < d
  · simp only [halfEven, Nat.div_eq_of_lt below, Nat.mod_eq_of_lt below]
    split <;> omega
  · have whole : 1 ≤ n / d := (Nat.one_le_div_iff positive).2 (Nat.not_lt.1 below)
    have := div_le_halfEven n d
    omega

/-! ### Dropping last places -/

theorem fit?_eq_some_iff {negative : Bool} {mantissa scale : Nat} {d : Decimal} :
    fit? negative mantissa scale = some d ↔
      d.negative = negative ∧ d.mantissa = mantissa ∧ d.scale = scale := by
  rw [fit?]
  constructor
  · intro h
    split at h
    · cases h
      exact ⟨rfl, rfl, rfl⟩
    · cases h
  · rintro ⟨rfl, rfl, rfl⟩
    exact dif_pos ⟨d.mantissa_lt, d.scale_le⟩

theorem fit?_eq_none_iff {negative : Bool} {mantissa scale : Nat} :
    fit? negative mantissa scale = none ↔ ¬ (mantissa < limit ∧ scale ≤ maxScale) := by
  rw [fit?]
  split <;> simp_all

/-- A rounded decimal is what is left after dropping some places, and with fewer of them it would not
have fitted. -/
theorem exists_of_rounded {negative : Bool} {mantissa scale : Nat} {d : Decimal}
    (h : rounded negative mantissa scale = some d) :
    ∃ dropped ≤ scale,
      d.negative = negative ∧ d.mantissa = halfEven mantissa (powerOfTen dropped) ∧
      d.scale = scale - dropped ∧
      ∀ fewer < dropped, scale - fewer ≤ maxScale → limit ≤ halfEven mantissa (powerOfTen fewer) := by
  obtain ⟨before, dropped, after, all, fits, tooLong⟩ := List.findSome?_eq_some_iff.1 h
  rw [List.range_eq_range'] at all
  obtain ⟨count, count_le, earlier, rest⟩ := List.range'_eq_append_iff.1 all
  obtain ⟨here, some_left, -⟩ := List.range'_eq_cons_iff.1 rest.symm
  rw [Nat.zero_add, Nat.mul_one] at here
  subst here
  obtain ⟨sign, digits, places⟩ := fit?_eq_some_iff.1 fits
  refine ⟨count, by omega, sign, digits, places, fun fewer fewer_lt small => ?_⟩
  have skipped := fit?_eq_none_iff.1 (tooLong fewer (by
    rw [earlier, List.mem_range'_1]
    omega))
  exact Nat.not_lt.1 fun short => skipped ⟨short, small⟩

theorem negative_rounded {negative : Bool} {mantissa scale : Nat} {d : Decimal}
    (h : rounded negative mantissa scale = some d) : d.negative = negative := by
  obtain ⟨-, -, sign, -⟩ := exists_of_rounded h
  exact sign

/-- What is rounded is zero only where no more than half of the smallest step was there. -/
theorem isZero_rounded_iff {negative : Bool} {mantissa scale : Nat} {d : Decimal}
    (h : rounded negative mantissa scale = some d) :
    d.isZero = true ↔ 2 * mantissa ≤ powerOfTen (scale - maxScale) := by
  obtain ⟨dropped, dropped_le, -, digits, places, tooLong⟩ := exists_of_rounded h
  have enough : scale - maxScale ≤ dropped := by
    have := d.scale_le
    simp only [maxScale]
    omega
  rw [isZero, beq_iff_eq, digits, halfEven_eq_zero_iff (powerOfTen_pos dropped)]
  refine ⟨fun small => ?_, fun small => Nat.le_trans small (Nat.pow_le_pow_right (by decide) enough)⟩
  rcases Nat.eq_or_lt_of_le enough with least | more
  · rwa [least]
  -- With one place less dropped at most six digits' worth would be left, and that fits.
  · exfalso
    have long := tooLong (dropped - 1) (by omega) (by omega)
    have power : powerOfTen dropped = powerOfTen (dropped - 1) * 10 := by
      rw [← Nat.sub_add_cancel (show 1 ≤ dropped by omega)]
      exact powerOfTen_add _ 1
    have few : mantissa / powerOfTen (dropped - 1) < 6 := by
      have := powerOfTen_pos (dropped - 1)
      rw [Nat.div_lt_iff_lt_mul this]
      omega
    have := halfEven_le mantissa (powerOfTen (dropped - 1))
    simp only [limit] at long
    omega

/-! ### Sums -/

theorem natAbs_units (d : Decimal) : d.units.natAbs = d.mantissa * powerOfTen (28 - d.scale) := by
  cases h : d.negative <;>
    simp only [units, h, Bool.false_eq_true, if_true, if_false, Int.natAbs_neg, Int.natAbs_natCast]

theorem sign_units (d : Decimal) :
    d.units.sign = if d.negative then -(d.mantissa : Int).sign else (d.mantissa : Int).sign := by
  have power : ((powerOfTen (28 - d.scale) : Nat) : Int).sign = 1 :=
    Int.sign_eq_one_of_pos (Int.natCast_pos.2 (powerOfTen_pos _))
  have magnitude : ((d.mantissa * powerOfTen (28 - d.scale) : Nat) : Int).sign = (d.mantissa : Int).sign := by
    rw [Int.natCast_mul, Int.sign_mul, power, Int.mul_one]
  cases h : d.negative <;> simp only [units, h, Bool.false_eq_true, if_true, if_false, Int.sign_neg, magnitude]

/-- A decimal at some scale, counted in the smallest units. -/
theorem units_eq_atScale_mul (d : Decimal) {scale : Nat} (covered : d.scale ≤ scale) (small : scale ≤ 28) :
    d.units = d.atScale scale * powerOfTen (28 - scale) := by
  have power : powerOfTen (28 - d.scale) = powerOfTen (scale - d.scale) * powerOfTen (28 - scale) := by
    rw [← powerOfTen_add]
    congr 1
    omega
  cases h : d.negative <;>
    simp only [units, atScale, h, Bool.false_eq_true, if_true, if_false, power, Int.natCast_mul,
      Int.neg_mul, Int.mul_assoc]

/-- Where there are no more places than a decimal may have, only a zero is rounded to zero. -/
theorem sign_units_rounded {sum : Int} {scale : Nat} {d : Decimal} (small : scale ≤ 28)
    (h : rounded (decide (sum < 0)) sum.natAbs scale = some d) : d.units.sign = sum.sign := by
  have zero := isZero_rounded_iff h
  rw [show scale - maxScale = 0 from Nat.sub_eq_zero_of_le small, isZero, beq_iff_eq] at zero
  have zero : d.mantissa = 0 ↔ sum = 0 := by
    rw [zero]
    show 2 * sum.natAbs ≤ 1 ↔ _
    omega
  rw [sign_units, negative_rounded h]
  rcases Int.lt_trichotomy sum 0 with below | none | above
  · have digits : 0 < (d.mantissa : Int) := by omega
    rw [if_pos (decide_eq_true below), Int.sign_eq_one_of_pos digits, Int.sign_eq_neg_one_of_neg below]
  · rw [zero.2 none, none]
    rfl
  · have digits : 0 < (d.mantissa : Int) := by omega
    rw [if_neg (by simpa using Int.le_of_lt above), Int.sign_eq_one_of_pos digits, Int.sign_eq_one_of_pos above]

/-- **A sum has the sign of the exact sum.** -/
theorem sign_units_add {a b c : Decimal} (h : a.add b = some c) : c.units.sign = (a.units + b.units).sign := by
  rw [add] at h
  split at h
  · next zero => rw [← Option.some.inj h, isZero_iff.1 zero, Int.zero_add]
  split at h
  · next zero => rw [← Option.some.inj h, isZero_iff.1 zero, Int.add_zero]
  have small : max a.scale b.scale ≤ 28 := Nat.max_le.2 ⟨a.scale_le, b.scale_le⟩
  have power : ((powerOfTen (28 - max a.scale b.scale) : Nat) : Int).sign = 1 :=
    Int.sign_eq_one_of_pos (Int.natCast_pos.2 (powerOfTen_pos _))
  rw [sign_units_rounded small h, units_eq_atScale_mul a (Nat.le_max_left _ _) small,
    units_eq_atScale_mul b (Nat.le_max_right _ _) small, ← Int.add_mul, Int.sign_mul, power, Int.mul_one]

/-- A sum is below zero where the exact sum is. -/
theorem units_add_neg_iff {a b c : Decimal} (h : a.add b = some c) : c.units < 0 ↔ a.units + b.units < 0 := by
  rw [← Int.sign_eq_neg_one_iff_neg, sign_units_add h, Int.sign_eq_neg_one_iff_neg]

/-! ### Products -/

/-- Half of the smallest decimal, for the exact product and for the product of the digits. -/
theorem two_mul_natAbs_le_iff (a b : Decimal) :
    2 * (a.units * b.units).natAbs ≤ powerOfTen 28 ↔
      2 * (a.mantissa * b.mantissa) ≤ powerOfTen (a.scale + b.scale - 28) := by
  have := a.scale_le
  have := b.scale_le
  have unused : (a.units * b.units).natAbs
      = a.mantissa * b.mantissa * powerOfTen (56 - (a.scale + b.scale)) := by
    have power : powerOfTen (56 - (a.scale + b.scale))
        = powerOfTen (28 - a.scale) * powerOfTen (28 - b.scale) := by
      rw [← powerOfTen_add]
      congr 1
      omega
    rw [Int.natAbs_mul, natAbs_units, natAbs_units, power, Nat.mul_mul_mul_comm]
  rw [unused, ← Nat.mul_assoc]
  generalize a.mantissa * b.mantissa = digits
  by_cases many : 28 ≤ a.scale + b.scale
  · have power : powerOfTen 28
        = powerOfTen (a.scale + b.scale - 28) * powerOfTen (56 - (a.scale + b.scale)) := by
      rw [← powerOfTen_add]
      congr 1
      omega
    rw [power, Nat.mul_le_mul_right_iff (powerOfTen_pos _)]
  · have large : powerOfTen 28 ≤ powerOfTen (56 - (a.scale + b.scale)) :=
      Nat.pow_le_pow_right (by decide) (by omega)
    have smallest : 0 < powerOfTen 28 := powerOfTen_pos 28
    rw [show a.scale + b.scale - 28 = 0 by omega, show powerOfTen 0 = 1 from rfl]
    rcases Nat.eq_zero_or_pos digits with rfl | positive
    · simp
    · have := Nat.mul_le_mul (show 2 ≤ 2 * digits by omega) large
      omega

theorem isZero_abs (d : Decimal) : d.abs.isZero = d.isZero := rfl

/-- **A product is zero only where the exact product is no more than half of the smallest decimal.** -/
theorem isZero_mul_iff {a b c : Decimal} (h : a.mul b = some c) :
    c.isZero = true ↔ 2 * (a.units * b.units).natAbs ≤ powerOfTen 28 := by
  rw [two_mul_natAbs_le_iff]
  simp only [mul] at h
  split at h
  · next factor =>
    have none : a.mantissa * b.mantissa = 0 := by simpa [isZero] using factor
    rw [← Option.some.inj h, none]
    simp [isZero, zero, ofNat]
  split at h
  · next short =>
    -- Two mantissas of 32 bits make less than half of `10 ^ 20`, and at least 20 places are lost.
    obtain ⟨⟨shortLeft, shortRight⟩, places⟩ :
        (a.mantissa < 4294967296 ∧ b.mantissa < 4294967296) ∧ 47 < a.scale + b.scale := by
      simpa [isSmall] using short
    have digits := Nat.mul_le_mul (Nat.le_of_lt shortLeft) (Nat.le_of_lt shortRight)
    have lost : powerOfTen 20 ≤ powerOfTen (a.scale + b.scale - 28) :=
      Nat.pow_le_pow_right (by decide) (by omega)
    have bound : 2 * (4294967296 * 4294967296) ≤ powerOfTen 20 := by decide
    rw [← Option.some.inj h]
    exact iff_of_true rfl (by omega)
  · obtain ⟨product, roundedTo, rfl⟩ := Option.map_eq_some_iff.1 h
    rw [show (28 : Nat) = maxScale from rfl, ← isZero_rounded_iff roundedTo]
    split
    · rw [isZero_abs]
    · exact Iff.rfl

end Decimal

end Daybook
