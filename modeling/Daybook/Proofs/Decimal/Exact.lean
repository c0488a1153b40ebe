import Daybook.Decimal.Arithmetic
import Mathlib.Algebra.BigOperators.Group.List.Basic
import Mathlib.Algebra.Order.Ring.Int

/-!
# Exact sums

Adding two decimals may round. `AddsExactly total values` says that adding values to a total one after
the other never does, and then the value of the result is the sum of the values (`units_of_foldlM_add`).
Multiplying by one is always exact (`units_of_mul_one`).
-/

namespace Daybook

namespace Decimal

/-- The values of decimals together. -/
def unitsOf (values : List Decimal) : Int := (values.map units).sum

@[simp]
theorem unitsOf_nil : unitsOf [] = 0 := rfl

@[simp]
theorem unitsOf_cons (d : Decimal) (values : List Decimal) :
    unitsOf (d :: values) = d.units + unitsOf values := by
  rw [unitsOf, List.map_cons, List.sum_cons]
  rfl

@[simp]
theorem unitsOf_append (values more : List Decimal) :
    unitsOf (values ++ more) = unitsOf values + unitsOf more := by
  rw [unitsOf, List.map_append, List.sum_append]
  rfl

@[simp]
theorem units_zero : zero.units = 0 := rfl

/-! ### Sums -/

/-- No sum is rounded when values are added to a total one after the other. -/
def AddsExactly (total : Decimal) : List Decimal → Prop
  | [] => True
  | d :: rest => ∀ next, total.add d = some next →
      next.units = total.units + d.units ∧ AddsExactly next rest

instance (total : Decimal) : (values : List Decimal) → Decidable (AddsExactly total values)
  | [] => isTrue trivial
  | d :: rest =>
    match h : total.add d with
    | none => isTrue fun next added => by simp [h] at added
    | some sum =>
      have := instDecidableAddsExactly sum rest
      if exact : sum.units = total.units + d.units ∧ AddsExactly sum rest then
        isTrue fun next added => by
          obtain rfl : sum = next := Option.some.inj (h.symm.trans added)
          exact exact
      else
        isFalse fun all => exact (all sum h)

/-- **Where no sum is rounded, the value of the total is the sum of the values.** -/
theorem units_of_foldlM_add {total final : Decimal} {values : List Decimal}
    (exact : AddsExactly total values) (h : values.foldlM add total = some final) :
    final.units = total.units + unitsOf values := by
  induction values generalizing total with
  | nil =>
    cases h
    rw [unitsOf_nil, Int.add_zero]
  | cons d rest ih =>
    rw [List.foldlM_cons] at h
    obtain ⟨next, added, h⟩ := Option.bind_eq_some_iff.1 h
    obtain ⟨sum, exact⟩ := exact next added
    rw [ih exact h, sum, unitsOf_cons, Int.add_assoc]

theorem units_of_sum {values : List Decimal} {final : Decimal} (exact : AddsExactly zero values)
    (h : sum values = some final) : final.units = unitsOf values := by
  rw [units_of_foldlM_add exact h, units_zero, Int.zero_add]

/-- Values are added up from left to right, and no partial sum is rounded or too large. -/
def HasExactSum (values : List Decimal) : Prop := (sum values).isSome = true ∧ AddsExactly zero values

instance (values : List Decimal) : Decidable (HasExactSum values) := inferInstanceAs (Decidable (_ ∧ _))

theorem HasExactSum.exists_sum {values : List Decimal} (exact : HasExactSum values) :
    ∃ total, sum values = some total ∧ total.units = unitsOf values := by
  obtain ⟨total, added⟩ := Option.isSome_iff_exists.1 exact.1
  exact ⟨total, added, units_of_sum exact.2 added⟩

/-- The order of values does not matter to their sum where that is exact. -/
theorem unitsOf_perm {values more : List Decimal} (same : values.Perm more) : unitsOf values = unitsOf more :=
  (same.map units).sum_eq

/-! ### Products with one -/

theorem halfEven_one (n : Nat) : halfEven n 1 = n := by
  have whole : ¬ (2 * (n % 1) > 1 ∨ 2 * (n % 1) = 1 ∧ n / 1 % 2 = 1) := by omega
  show (if 2 * (n % 1) > 1 ∨ 2 * (n % 1) = 1 ∧ n / 1 % 2 = 1 then n / 1 + 1 else n / 1) = n
  rw [if_neg whole, Nat.div_one]

/-- What is a decimal already is not rounded. -/
theorem rounded_self (d : Decimal) : rounded d.negative d.mantissa d.scale = some d := by
  rw [rounded, List.range_succ_eq_map, List.findSome?_cons]
  have first : fit? d.negative (halfEven d.mantissa (powerOfTen 0)) (d.scale - 0) = some d := by
    rw [show powerOfTen 0 = 1 from rfl, halfEven_one, Nat.sub_zero, fit?, dif_pos ⟨d.mantissa_lt, d.scale_le⟩]
  rw [first]

theorem units_of_mul_one {d product : Decimal} (h : d.mul one = some product) :
    product.units = d.units := by
  rw [mul] at h
  by_cases isZero : d.isZero = true
  · rw [if_pos (by rw [isZero]; rfl)] at h
    rw [isZero_iff.1 isZero, ← Option.some.inj h]
    rfl
  -- No factor is zero, and the scales are too small for the short cut of `mul`: the product is rounded.
  · have notZero : (d.isZero || one.isZero) = false := by
      rw [Bool.not_eq_true] at isZero
      rw [isZero]
      rfl
    have few : ¬ d.scale + one.scale > 47 := by
      have := d.scale_le
      show ¬ d.scale + 0 > 47
      omega
    rw [notZero] at h
    simp only [Bool.false_eq_true, if_false, few, decide_false, Bool.and_false] at h
    have same : rounded (d.negative != one.negative) (d.mantissa * one.mantissa) (d.scale + one.scale)
        = some d := by
      show rounded (d.negative != false) (d.mantissa * 1) (d.scale + 0) = some d
      rw [Bool.bne_false, Nat.mul_one, Nat.add_zero, rounded_self]
    rw [same, Option.map_some] at h
    rw [← Option.some.inj h]
    split
    · next short => simp [isZero] at short
    · rfl

end Decimal

end Daybook
