/-!
# Decimal amounts

A decimal is a sign, a whole mantissa and a number of places after the point: the value is
`± mantissa / 10 ^ scale`. Trailing zeros are part of a decimal (`1.50` is not `1.5`), and so is the
sign of a zero; neither changes its value.

Mantissas stay below `2 ^ 96` and scales at or below 28, and both bounds are fields of the type.
Every decimal is therefore a whole number of units of `10 ^ -28` (`Decimal.units`), and comparing two
decimals is comparing those integers.
-/

namespace Daybook

/-- A one with so many zeros behind it. -/
def powerOfTen (n : Nat) : Nat := Nat.pow 10 n

theorem powerOfTen_pos (n : Nat) : 0 < powerOfTen n := Nat.pow_pos (by decide)

theorem powerOfTen_add (m n : Nat) : powerOfTen (m + n) = powerOfTen m * powerOfTen n :=
  Nat.pow_add 10 m n

/-- A signed decimal number with a fixed number of places. -/
structure Decimal where
  /-- The sign, which a zero may carry too. -/
  negative : Bool
  /-- The digits, read as one whole number. -/
  mantissa : Nat
  /-- How many of the digits stand after the point. -/
  scale : Nat
  mantissa_lt : mantissa < 79228162514264337593543950336
  scale_le : scale ≤ 28
  deriving DecidableEq, Repr

namespace Decimal

/-- The first whole number that is no mantissa, `2 ^ 96`. -/
def limit : Nat := 79228162514264337593543950336

def maxScale : Nat := 28

/-- The decimal with these three parts, if mantissa and scale are within bounds. -/
def fit? (negative : Bool) (mantissa scale : Nat) : Option Decimal :=
  if h : mantissa < limit ∧ scale ≤ maxScale then
    some ⟨negative, mantissa, scale, h.1, h.2⟩
  else
    none

/-- A small whole number as a decimal without places. -/
def ofNat (n : Nat) (h : n < 79228162514264337593543950336 := by decide) : Decimal :=
  ⟨false, n, 0, h, Nat.zero_le _⟩

def zero : Decimal := ofNat 0

def one : Decimal := ofNat 1

def hundred : Decimal := ofNat 100

instance : Inhabited Decimal := ⟨zero⟩

/-! ### Value and order -/

/-- The value, counted in units of `10 ^ -28`. -/
def units (d : Decimal) : Int :=
  let magnitude : Int := (d.mantissa * powerOfTen (28 - d.scale) : Nat)
  if d.negative then -magnitude else magnitude

/-- Zero of any sign and scale. -/
def isZero (d : Decimal) : Bool := d.mantissa == 0

/-- A decimal is zero when its value is. -/
theorem isZero_iff {d : Decimal} : d.isZero = true ↔ d.units = 0 := by
  have power := Nat.ne_of_gt (powerOfTen_pos (28 - d.scale))
  cases h : d.negative <;> simp only [isZero, units, h, beq_iff_eq, Bool.false_eq_true, if_true, if_false,
    Int.neg_eq_zero, Int.natCast_eq_zero, Nat.mul_eq_zero, power, or_false]

/-- Order by value: sign of zero and trailing zeros do not matter. -/
instance : LT Decimal := ⟨fun a b => a.units < b.units⟩

instance : LE Decimal := ⟨fun a b => a.units ≤ b.units⟩

instance (a b : Decimal) : Decidable (a < b) := inferInstanceAs (Decidable (a.units < b.units))

instance (a b : Decimal) : Decidable (a ≤ b) := inferInstanceAs (Decidable (a.units ≤ b.units))

/-- Equality of values, as opposed to equality of digits. -/
def sameValue (a b : Decimal) : Bool := a.units == b.units

/-! ### Sign -/

/-- The other sign, also of a zero. -/
def neg (d : Decimal) : Decimal := { d with negative := !d.negative }

def abs (d : Decimal) : Decimal := { d with negative := false }

instance : Neg Decimal := ⟨neg⟩

@[simp]
theorem units_neg (d : Decimal) : d.neg.units = -d.units := by
  cases h : d.negative <;> simp only [neg, units, h, Bool.not_false, Bool.not_true, Bool.false_eq_true,
    if_true, if_false, Int.neg_neg]

@[simp]
theorem units_abs (d : Decimal) : d.abs.units = d.units.natAbs := by
  cases h : d.negative <;> simp only [abs, units, h, Bool.false_eq_true, if_true, if_false, Int.natAbs_neg,
    Int.natAbs_natCast]

/-! ### Written form -/

/-- The digits of a whole number, with zeros in front up to a width. -/
def paddedDigits (width n : Nat) : List Char :=
  let digits := Nat.toDigits 10 n
  List.replicate (width - digits.length) '0' ++ digits

/-- The characters of a decimal: sign, whole part, and exactly `scale` places after the point. -/
def toChars (d : Decimal) : List Char :=
  let whole := Nat.toDigits 10 (d.mantissa / powerOfTen d.scale)
  let places := if d.scale = 0 then [] else '.' :: paddedDigits d.scale (d.mantissa % powerOfTen d.scale)
  (if d.negative then ['-'] else []) ++ whole ++ places

def text (d : Decimal) : String := String.ofList d.toChars

end Decimal

end Daybook
