import Daybook.Proofs.Decimal.Quotient

/-!
# Amounts that are not below zero

Sums and products of amounts that are not below zero are not below zero either, however they are rounded.
And what one of two such amounts is above the other is no longer than the longer of them, so that the
difference always fits (`exists_sub`), while a sum may not. An amount divided by a number of things always
fits as well (`exists_share`).
-/

namespace Daybook

namespace Decimal

variable {a b c : Decimal}

/-! ### Sums and products -/

theorem nonneg_of_negative (h : a.negative = false) : zero ≤ a := units_nonneg h

theorem nonneg_abs (a : Decimal) : zero ≤ a.abs := units_nonneg rfl

theorem nonneg_add (left : zero ≤ a) (right : zero ≤ b) (h : a.add b = some c) : zero ≤ c := by
  have left : 0 ≤ a.units := left
  have right : 0 ≤ b.units := right
  have sum : ¬ c.units < 0 := by
    rw [units_add_neg_iff h]
    omega
  exact Int.not_lt.1 sum

theorem nonneg_foldlM_add {values : List Decimal} {total final : Decimal} (start : zero ≤ total)
    (all : ∀ v ∈ values, zero ≤ v) (h : values.foldlM add total = some final) : zero ≤ final := by
  induction values generalizing total with
  | nil =>
    obtain rfl := Option.some.inj h
    exact start
  | cons v rest ih =>
    rw [List.foldlM_cons, Option.bind_eq_bind, Option.bind_eq_some_iff] at h
    obtain ⟨next, sum, h⟩ := h
    apply ih _ (fun w mem => all w (List.mem_cons_of_mem v mem)) h
    exact nonneg_add start (all v List.mem_cons_self) sum

/-- Only a zero can carry a sign that its value does not have. -/
theorem negative_of_nonneg (h : zero ≤ a) (some_value : a.isZero = false) : a.negative = false := by
  have h : 0 ≤ a.units := h
  apply negative_of_units_pos
  have : a.units ≠ 0 := by
    intro none
    rw [isZero_iff.2 none] at some_value
    cases some_value
  omega

theorem nonneg_mul (left : zero ≤ a) (right : zero ≤ b) (h : a.mul b = some c) : zero ≤ c := by
  simp only [mul] at h
  split at h
  · obtain rfl := Option.some.inj h
    exact Int.le_refl 0
  next factors =>
  obtain ⟨someLeft, someRight⟩ : a.isZero = false ∧ b.isZero = false := by simpa using factors
  split at h
  · obtain rfl := Option.some.inj h
    exact Int.le_refl 0
  · obtain ⟨product, roundedTo, rfl⟩ := Option.map_eq_some_iff.1 h
    split
    · exact nonneg_abs product
    · apply nonneg_of_negative
      rw [negative_rounded roundedTo, negative_of_nonneg left someLeft, negative_of_nonneg right someRight]
      rfl

/-! ### Differences -/

/-- What is no more than a whole number is not rounded to more. -/
theorem halfEven_le_of_le_mul {n d whole : Nat} (positive : 0 < d) (h : n ≤ whole * d) :
    halfEven n d ≤ whole := by
  have parts := Nat.div_add_mod n d
  have quotient : n / d ≤ whole := (Nat.div_le_iff_le_mul_add_pred positive).2 (by
    rw [Nat.mul_comm d]
    omega)
  rcases Nat.lt_or_eq_of_le quotient with less | same
  · exact Nat.le_trans (halfEven_le n d) less
  · -- Nothing is left over, so there is nothing to round up.
    have rest : n % d = 0 := by
      rw [same, Nat.mul_comm] at parts
      omega
    have down : ¬ (2 * (n % d) > d ∨ 2 * (n % d) = d ∧ n / d % 2 = 1) := by omega
    simp only [halfEven, if_neg down]
    exact quotient

/-- There is a rounded decimal if dropping some number of places is enough. -/
theorem exists_rounded {negative : Bool} {mantissa scale dropped : Nat} (dropped_le : dropped ≤ scale)
    (digits : halfEven mantissa (powerOfTen dropped) < limit) (places : scale - dropped ≤ maxScale) :
    ∃ d, rounded negative mantissa scale = some d := by
  rw [← Option.isSome_iff_exists, rounded, List.findSome?_isSome_iff]
  refine ⟨dropped, List.mem_range.2 (by omega), ?_⟩
  rw [fit?, dif_pos ⟨digits, places⟩]
  rfl

/-- What is no more than a decimal can be written with the places of that decimal. -/
theorem exists_rounded_of_le {mantissa scale : Nat} (covered : a.scale ≤ scale)
    (most : mantissa ≤ a.mantissa * powerOfTen (scale - a.scale)) (negative : Bool) :
    ∃ d, rounded negative mantissa scale = some d := by
  have digits := halfEven_le_of_le_mul (powerOfTen_pos _) most
  have places : scale - (scale - a.scale) = a.scale := by omega
  apply exists_rounded (Nat.sub_le scale a.scale) (Nat.lt_of_le_of_lt digits a.mantissa_lt)
  rw [places]
  exact a.scale_le

theorem atScale_of_nonneg (h : zero ≤ a) (some_value : a.isZero = false) (scale : Nat) :
    a.atScale scale = (a.mantissa * powerOfTen (scale - a.scale) : Nat) := by
  rw [atScale, negative_of_nonneg h some_value]
  rfl

theorem atScale_neg (a : Decimal) (scale : Nat) : a.neg.atScale scale = -a.atScale scale := by
  cases sign : a.negative <;>
    simp only [neg, atScale, sign, Bool.not_false, Bool.not_true, Bool.false_eq_true, if_true, if_false,
      Int.neg_neg]

/-- **A difference of two amounts that are not below zero always fits**: it is no longer than the longer of
the two. -/
theorem exists_sub (left : zero ≤ a) (right : zero ≤ b) : ∃ c, a.sub b = some c := by
  rw [sub]
  split
  · exact ⟨b, rfl⟩
  rw [add]
  split
  · exact ⟨_, rfl⟩
  next someLeft =>
  split
  · exact ⟨_, rfl⟩
  next someRight =>
  have fromLeft := atScale_of_nonneg left (eq_false_of_ne_true someLeft) (max a.scale b.scale)
  have fromRight := atScale_of_nonneg right (eq_false_of_ne_true someRight) (max a.scale b.scale)
  have most : (a.atScale (max a.scale b.scale) + b.neg.atScale (max a.scale b.scale)).natAbs
      ≤ a.mantissa * powerOfTen (max a.scale b.scale - a.scale) ∨
      (a.atScale (max a.scale b.scale) + b.neg.atScale (max a.scale b.scale)).natAbs
        ≤ b.mantissa * powerOfTen (max a.scale b.scale - b.scale) := by
    rw [atScale_neg, fromLeft, fromRight]
    omega
  rcases most with most | most
  · exact exists_rounded_of_le (Nat.le_max_left a.scale b.scale) most _
  · exact exists_rounded_of_le (Nat.le_max_right a.scale b.scale) most _

/-- The order of two amounts other than zero does not matter to their sum; a zero leaves the digits of the other
as they are. -/
theorem add_comm_of_not_isZero (left : a.isZero = false) (right : b.isZero = false) : a.add b = b.add a := by
  simp only [add, left, right, Bool.false_eq_true, if_false, Nat.max_comm a.scale, Int.add_comm (a.atScale _)]

/-- A sum of an amount below zero and one that is not always fits, as it is a difference. -/
theorem exists_add (below : a < zero) (above : zero ≤ b) : ∃ c, a.add b = some c := by
  have below : a.units < 0 := below
  have someLeft : a.isZero = false := by
    refine Bool.eq_false_iff.2 fun none => ?_
    rw [isZero_iff.1 none] at below
    exact Int.lt_irrefl 0 below
  have negative : a.negative = true := by
    by_contra positive
    exact Int.not_le.2 below (units_nonneg (Bool.eq_false_iff.2 positive))
  have same : a.abs.neg = a := by
    rw [abs, neg, Bool.not_false, ← negative]
  cases someRight : b.isZero with
  | true => exact ⟨a, by rw [add, someLeft, someRight]; rfl⟩
  | false =>
    obtain ⟨c, difference⟩ := exists_sub above (nonneg_abs a)
    rw [sub, someRight, Bool.false_and, if_neg Bool.false_ne_true, same] at difference
    exact ⟨c, by rw [add_comm_of_not_isZero someLeft someRight, difference]⟩

/-! ### Sums that are decimals -/

/-- **A sum fits where the exact sum is a decimal**, whatever its digits. -/
theorem exists_add_of_units_eq (h : c.units = a.units + b.units) : ∃ d, a.add b = some d := by
  rw [add]
  split
  · exact ⟨_, rfl⟩
  split
  · exact ⟨_, rfl⟩
  dsimp only
  have small : max a.scale b.scale ≤ 28 := Nat.max_le.2 ⟨a.scale_le, b.scale_le⟩
  rw [units_eq_atScale_mul a (Nat.le_max_left _ _) small, units_eq_atScale_mul b (Nat.le_max_right _ _) small,
    ← Int.add_mul] at h
  generalize max a.scale b.scale = scale at *
  generalize a.atScale scale + b.atScale scale = sum at *
  have digits : c.mantissa * powerOfTen (28 - c.scale) = sum.natAbs * powerOfTen (28 - scale) := by
    rw [← natAbs_units, h, Int.natAbs_mul, Int.natAbs_natCast]
  have := c.scale_le
  by_cases covered : c.scale ≤ scale
  · -- The sum has all the places of the decimal, and maybe some zeros behind them.
    have power : powerOfTen (28 - c.scale) = powerOfTen (scale - c.scale) * powerOfTen (28 - scale) := by
      rw [← powerOfTen_add]
      congr 1
      omega
    rw [power, ← Nat.mul_assoc, Nat.mul_left_inj (Nat.ne_of_gt (powerOfTen_pos _))] at digits
    exact exists_rounded_of_le covered (Nat.le_of_eq digits.symm) _
  · -- The sum is no longer than the decimal, so nothing has to be dropped.
    have power : powerOfTen (28 - scale) = powerOfTen (c.scale - scale) * powerOfTen (28 - c.scale) := by
      rw [← powerOfTen_add]
      congr 1
      omega
    rw [power, ← Nat.mul_assoc, Nat.mul_left_inj (Nat.ne_of_gt (powerOfTen_pos _))] at digits
    have shorter : sum.natAbs ≤ c.mantissa := by
      rw [digits]
      exact Nat.le_mul_of_pos_right _ (powerOfTen_pos _)
    have whole : halfEven sum.natAbs (powerOfTen 0) < limit := by
      rw [show powerOfTen 0 = 1 from rfl, halfEven_one]
      exact Nat.lt_of_le_of_lt shorter c.mantissa_lt
    exact exists_rounded (Nat.zero_le scale) whole small

/-! ### Shares -/

/-- No decimal is longer than the longest mantissa without places. -/
theorem natAbs_units_le (a : Decimal) : a.units.natAbs ≤ (limit - 1) * powerOfTen 28 := by
  have digits : a.mantissa ≤ limit - 1 := Nat.le_sub_one_of_lt a.mantissa_lt
  have power : powerOfTen (28 - a.scale) ≤ powerOfTen 28 := Nat.pow_le_pow_right (by decide) (by omega)
  rw [natAbs_units]
  exact Nat.mul_le_mul digits power

/-- **An amount can be divided by any number of things**, as long as there are any. -/
theorem exists_share (a : Decimal) {n : Nat} (some_things : 1 ≤ n) (fits : n < limit) :
    ∃ share, ((fit? false n 0).bind a.div) = some share := by
  have whole : fit? false n 0 = some ⟨false, n, 0, fits, by decide⟩ := by
    rw [fit?, dif_pos ⟨fits, by decide⟩]
  rw [whole, Option.bind_some]
  apply exists_div
  rw [natAbs_units ⟨false, n, 0, fits, by decide⟩]
  calc 2 * a.units.natAbs
      ≤ 2 * ((limit - 1) * powerOfTen 28) := Nat.mul_le_mul_left 2 (natAbs_units_le a)
    _ < (2 * limit - 1) * powerOfTen 28 := by
        rw [← Nat.mul_assoc]
        exact Nat.mul_lt_mul_of_pos_right (by decide) (powerOfTen_pos 28)
    _ ≤ (2 * limit - 1) * (n * powerOfTen 28) :=
        Nat.mul_le_mul_left _ (Nat.le_mul_of_pos_left _ some_things)

end Decimal

end Daybook
