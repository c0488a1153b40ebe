import Daybook.Proofs.Decimal.Exact
import Daybook.Money

/-!
# Within a tolerance

`withinTolerance a b t` compares `b` with two products, `a` times one more and one less `t`. Where neither
product is rounded, it says that `b` differs from `a` by less than that part of `a`, whatever the sign of `a`
(`withinTolerance_iff`).
-/

namespace Daybook

namespace Decimal

/-- The product is neither rounded nor too large. -/
def MulsExactly (a b : Decimal) : Prop :=
  ∃ product, a.mul b = some product ∧ product.units * one.units = a.units * b.units

instance (a b : Decimal) : Decidable (a.MulsExactly b) :=
  match h : a.mul b with
  | none => isFalse (by simp [MulsExactly, h])
  | some product =>
    decidable_of_iff (product.units * one.units = a.units * b.units) (by simp [MulsExactly, h])

theorem units_one_pos : 0 < one.units := by decide

end Decimal

open Decimal (MulsExactly one)

variable {a b tolerance upper lower : Decimal}

/-- **Between the two bounds is less than the tolerance away.** -/
theorem withinTolerance_iff (isUpper : one.add tolerance = some upper) (isLower : one.sub tolerance = some lower)
    (exactUpper : upper.units = one.units + tolerance.units) (exactLower : lower.units = one.units - tolerance.units)
    (more : a.MulsExactly upper) (less : a.MulsExactly lower) :
    withinTolerance a b tolerance = true ↔
      (b.units - a.units).natAbs * one.units.natAbs < tolerance.units.natAbs * a.units.natAbs := by
  obtain ⟨most, mulUpper, exactMost⟩ := more
  obtain ⟨least, mulLower, exactLeast⟩ := less
  have one_pos := Decimal.units_one_pos
  -- Everything is compared in units times the units of one, where the bounds are whole.
  rw [exactUpper, Int.mul_add] at exactMost
  rw [exactLower, Int.mul_sub] at exactLeast
  have scaled (x y : Decimal) : x < y ↔ x.units * one.units < y.units * one.units :=
    (Int.mul_lt_mul_right one_pos).symm
  have scaled' (x y : Decimal) : x ≤ y ↔ x.units * one.units ≤ y.units * one.units :=
    (Int.mul_le_mul_right one_pos).symm
  rw [withinTolerance, isUpper, isLower, Option.bind_some, Option.bind_some, mulUpper, mulLower, ← Int.natAbs_mul,
    ← Int.natAbs_mul, Int.sub_mul, Int.mul_comm tolerance.units]
  dsimp only
  rw [apply_ite (· = true)]
  simp only [Bool.and_eq_true, decide_eq_true_eq, scaled, scaled', exactMost, exactLeast]
  generalize a.units * tolerance.units = part
  generalize a.units * one.units = middle
  generalize b.units * one.units = here
  split <;> omega

/-- Where a bound does not fit, nothing is within the tolerance. -/
theorem withinTolerance_of_overflow (isUpper : one.add tolerance = some upper) (isLower : one.sub tolerance = some lower)
    (overflow : a.mul upper = none ∨ a.mul lower = none) : withinTolerance a b tolerance = false := by
  rw [withinTolerance, isUpper, isLower, Option.bind_some, Option.bind_some]
  rcases overflow with none | none
  · rw [none]
  · rw [none]
    cases a.mul upper <;> rfl

end Daybook
