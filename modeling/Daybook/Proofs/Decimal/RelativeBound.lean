import Daybook.Proofs.Decimal.Tolerance
import Daybook.Proofs.Decimal.Value
import Daybook.Statement.Booking
import Mathlib.Tactic.NormNum

/-!
# The tolerance as a relative bound

`withinTolerance` never takes a difference. It compares with an upper and a lower bound, and the upper one is the
smaller where the amount or the tolerance is below zero. In rational numbers it is one comparison all the same: the
difference is less than the tolerance's part of the amount, whatever the signs (`withinTolerance_iff_abs_lt`).
-/

namespace Daybook

open Decimal (Fits one)

variable {a b tolerance factor bound : Decimal}

/-! ### Bounds that are not rounded -/

/-- There is a result, and it is this number. -/
def IsExactly (result : Option Decimal) (x : ℚ) : Prop := ∃ d, result = some d ∧ d.value = x

/-- One with more and with less by the tolerance, and the amount times either of these, are neither rounded nor too
large. -/
structure HasExactBounds (a tolerance : Decimal) : Prop where
  more : IsExactly (one.add tolerance) (1 + tolerance.value)
  less : IsExactly (one.sub tolerance) (1 - tolerance.value)
  upper : IsExactly ((one.add tolerance).bind a.mul) (a.value * (1 + tolerance.value))
  lower : IsExactly ((one.sub tolerance).bind a.mul) (a.value * (1 - tolerance.value))

/-- The distance in units is the one of the values. -/
theorem natAbs_units_sub_lt_iff :
    (b.units - a.units).natAbs * one.units.natAbs < tolerance.units.natAbs * a.units.natAbs ↔
      |b.value - a.value| < |a.value| * |tolerance.value| := by
  have unit := Decimal.powerOfTen_cast_pos 28
  rw [← Nat.cast_lt (α := ℚ)]
  simp only [Nat.cast_mul, Nat.cast_natAbs, Int.cast_abs, Int.cast_sub, Decimal.units_cast, Decimal.value_one, one_mul]
  rw [← sub_mul, abs_mul, abs_mul, abs_mul, abs_of_pos unit, mul_mul_mul_comm, ← mul_assoc,
    mul_lt_mul_iff_left₀ unit, mul_lt_mul_iff_left₀ unit, mul_comm |tolerance.value|]

/-- A product is exact in units when it is in values. -/
theorem mulsExactly_of_value (product : a.mul factor = some bound) (exact : bound.value = a.value * factor.value) :
    a.MulsExactly factor := by
  refine ⟨bound, product, ?_⟩
  rw [← Int.cast_inj (α := ℚ)]
  push_cast
  rw [Decimal.units_cast, Decimal.units_cast, Decimal.units_cast, Decimal.units_cast, exact, Decimal.value_one]
  ring

theorem HasExactBounds.within_iff (exact : HasExactBounds a tolerance) :
    withinTolerance a b tolerance = true ↔ |b.value - a.value| < |a.value| * |tolerance.value| := by
  obtain ⟨more, isMore, more_value⟩ := exact.more
  obtain ⟨less, isLess, less_value⟩ := exact.less
  obtain ⟨upper, isUpper, upper_value⟩ := exact.upper
  obtain ⟨lower, isLower, lower_value⟩ := exact.lower
  rw [isMore, Option.bind_some] at isUpper
  rw [isLess, Option.bind_some] at isLower
  rw [← more_value] at upper_value
  rw [← less_value] at lower_value
  rw [← Decimal.value_one] at more_value less_value
  rw [withinTolerance_iff isMore isLess (Decimal.units_eq_add_iff.2 more_value) (Decimal.units_eq_sub_iff.2 less_value)
    (mulsExactly_of_value isUpper upper_value) (mulsExactly_of_value isLower lower_value), natAbs_units_sub_lt_iff]

/-! ### Bounds that do not fit -/

/-- The bounds fit: one with more and with less by the tolerance does, and so does the amount times what either of
these is rounded to. -/
structure HasBounds (a tolerance : Decimal) : Prop where
  more : Fits (1 + tolerance.value)
  less : Fits (1 - tolerance.value)
  upper : ∀ factor, one.add tolerance = some factor → Fits (a.value * factor.value)
  lower : ∀ factor, one.sub tolerance = some factor → Fits (a.value * factor.value)

/-- There is a bound where the sum fits, and the amount times what that is rounded to. -/
theorem exists_bound_iff {sum : Option Decimal} {x : ℚ} (fits_sum : sum = none ↔ ¬ Fits x) :
    (∃ bound, sum.bind a.mul = some bound) ↔
      Fits x ∧ ∀ factor, sum = some factor → Fits (a.value * factor.value) := by
  rw [← Option.ne_none_iff_exists']
  cases sum with
  | none => exact iff_of_false (fun fits => fits rfl) (fun fits => fits_sum.1 rfl fits.1)
  | some factor =>
    have fits : Fits x := not_not.1 fun large => Option.some_ne_none factor (fits_sum.2 large)
    rw [Option.bind_some, Ne, Decimal.mul_eq_none_iff, not_not]
    constructor
    · intro product
      exact ⟨fits, fun _ same => Option.some.inj same ▸ product⟩
    · rintro ⟨-, product⟩
      exact product factor rfl

/-- There are bounds exactly where they fit. -/
theorem hasBounds_iff :
    HasBounds a tolerance ↔
      (∃ upper, (one.add tolerance).bind a.mul = some upper) ∧
        ∃ lower, (one.sub tolerance).bind a.mul = some lower := by
  have more := Decimal.add_eq_none_iff (a := one) (b := tolerance)
  have less := Decimal.sub_eq_none_iff (a := one) (b := tolerance)
  rw [Decimal.value_one] at more less
  rw [exists_bound_iff more, exists_bound_iff less]
  constructor
  · rintro ⟨more, less, upper, lower⟩
    exact ⟨⟨more, upper⟩, less, lower⟩
  · rintro ⟨⟨more, upper⟩, less, lower⟩
    exact ⟨more, less, upper, lower⟩

theorem hasBounds_of_within (within : withinTolerance a b tolerance = true) : HasBounds a tolerance := by
  rw [withinTolerance] at within
  rw [hasBounds_iff]
  split at within
  · next upper lower isUpper isLower => exact ⟨⟨upper, isUpper⟩, lower, isLower⟩
  · cases within

/-- **Within a tolerance is less than this part of the amount away**, for either sign of the amount and of the
tolerance, where nothing is rounded; and where one of the bounds does not fit, nothing is within the tolerance. -/
theorem withinTolerance_iff_abs_lt :
    (∀ a b tolerance : Decimal, HasExactBounds a tolerance →
      (withinTolerance a b tolerance = true ↔ |b.value - a.value| < |a.value| * |tolerance.value|)) ∧
    (∀ a b tolerance : Decimal, ¬ HasBounds a tolerance → withinTolerance a b tolerance = false) := by
  refine ⟨fun a b tolerance exact => exact.within_iff, fun a b tolerance large => ?_⟩
  rw [← Bool.not_eq_true]
  exact fun within => large (hasBounds_of_within within)

/-- The largest decimal without places. -/
def largest : Decimal := (Decimal.fit? false 79228162514264337593543950335 0).getD .zero

/-- The tolerance of conversions is half a percent: a cent is within it for an amount of minus ten. Around the
largest amount nothing is. -/
theorem withinTolerance_at_minus_ten :
    (HasExactBounds (Decimal.ofNat 10).neg Draft.tolerance ∧
      withinTolerance (Decimal.ofNat 10).neg ⟨true, 1001, 2, by decide, by decide⟩ Draft.tolerance = true) ∧
    ¬ HasBounds largest Draft.tolerance ∧ withinTolerance largest largest Draft.tolerance = false := by
  have exact : HasExactBounds (Decimal.ofNat 10).neg Draft.tolerance :=
    { more := ⟨⟨false, 1005, 3, by decide, by decide⟩, by decide +kernel, by
        norm_num [Decimal.value, Draft.tolerance, powerOfTen]⟩
      less := ⟨⟨false, 995, 3, by decide, by decide⟩, by decide +kernel, by
        norm_num [Decimal.value, Draft.tolerance, powerOfTen]⟩
      upper := ⟨⟨true, 10050, 3, by decide, by decide⟩, by decide +kernel, by
        norm_num [Decimal.value, Decimal.neg, Decimal.ofNat, Draft.tolerance, powerOfTen]⟩
      lower := ⟨⟨true, 9950, 3, by decide, by decide⟩, by decide +kernel, by
        norm_num [Decimal.value, Decimal.neg, Decimal.ofNat, Draft.tolerance, powerOfTen]⟩ }
  have near : |Decimal.value ⟨true, 1001, 2, by decide, by decide⟩ - (Decimal.ofNat 10).neg.value|
      < |(Decimal.ofNat 10).neg.value| * |Draft.tolerance.value| := by
    norm_num [Decimal.value, Decimal.neg, Decimal.ofNat, Draft.tolerance, powerOfTen, abs_of_neg]
  have large : ¬ HasBounds largest Draft.tolerance := by
    have none : (one.add Draft.tolerance).bind largest.mul = none := by decide +kernel
    rw [hasBounds_iff, none]
    rintro ⟨⟨upper, isUpper⟩, -⟩
    cases isUpper
  exact ⟨⟨exact, (withinTolerance_iff_abs_lt.1 _ _ _ exact).2 near⟩, large,
    withinTolerance_iff_abs_lt.2 _ _ _ large⟩

end Daybook
