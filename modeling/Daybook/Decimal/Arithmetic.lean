import Daybook.Decimal.Basic

/-!
# Checked decimal arithmetic

Sums and products are exact whenever the exact result has a mantissa and a scale within bounds. One
that does not loses as few trailing places as it must, rounded half to even; when even the whole
part does not fit there is no result. Every rounding of this module goes through `halfEven`, and
sums and products share `rounded`.
-/

namespace Daybook

namespace Decimal

/-! ### Rounding -/

/-- The whole number nearest to `n / d`, the even one of two equally near. -/
def halfEven (n d : Nat) : Nat :=
  let q := n / d
  let r := n % d
  if 2 * r > d ∨ (2 * r = d ∧ q % 2 = 1) then q + 1 else q

/-- The decimal for `± mantissa / 10 ^ scale` with the fewest last places dropped. -/
def rounded (negative : Bool) (mantissa scale : Nat) : Option Decimal :=
  (List.range (scale + 1)).findSome? fun dropped =>
    fit? negative (halfEven mantissa (powerOfTen dropped)) (scale - dropped)

/-- At most `places` places after the point, rounded half to even. A zero keeps its sign, and what only
becomes a zero here has none; what needs no rounding stays as it is. -/
def round (places : Nat) (d : Decimal) : Decimal :=
  if d.scale ≤ places then
    d
  else
    let mantissa := halfEven d.mantissa (powerOfTen (d.scale - places))
    (fit? (d.negative && (d.isZero || mantissa != 0)) mantissa places).getD d

/-! ### Sums -/

/-- The value as a whole number of units of `10 ^ -scale`, for a scale at least its own. -/
def atScale (d : Decimal) (scale : Nat) : Int :=
  let magnitude : Int := (d.mantissa * powerOfTen (scale - d.scale) : Nat)
  if d.negative then -magnitude else magnitude

/-- The sum at the larger of the two scales. A zero on either side leaves the other operand as it is,
digits and all; any other zero sum is unsigned. -/
def add (a b : Decimal) : Option Decimal :=
  if a.isZero then
    some b
  else if b.isZero then
    some a
  else
    let scale := max a.scale b.scale
    let sum := a.atScale scale + b.atScale scale
    rounded (decide (sum < 0)) sum.natAbs scale

/-- The difference. Subtracting a zero, or from a zero, is as in `add`, and a zero subtracted from
a zero keeps its own sign. -/
def sub (a b : Decimal) : Option Decimal :=
  if a.isZero && b.isZero then some b else a.add b.neg

/-! ### Products -/

/-- Fits in 32 bits. -/
def isSmall (d : Decimal) : Bool := decide (d.mantissa < 4294967296)

/-- The product. A zero factor gives the plain zero. Two short mantissas with more than 47 places
between them give it too, and never a negative zero. -/
def mul (a b : Decimal) : Option Decimal :=
  if a.isZero || b.isZero then
    some zero
  else
    let short := a.isSmall && b.isSmall
    let scale := a.scale + b.scale
    if short && decide (scale > 47) then
      some zero
    else
      (rounded (a.negative != b.negative) (a.mantissa * b.mantissa) scale).map fun product =>
        if short && product.isZero then product.abs else product

/-! ### Quotients -/

/-- A quotient under way: the digits found, what is left to divide, the places so far (negative
while whole digits are still missing), and whether anything was ever left over. -/
structure Quotient where
  digits : Nat
  rest : Nat
  scale : Int
  inexact : Bool

/-- How many places one round may add: at most nine, within the largest scale and the mantissa. -/
def Quotient.room (q : Quotient) : Nat :=
  ((List.range 10).reverse.find? fun (p : Nat) =>
    decide (q.scale + p ≤ 28) && decide (q.digits * powerOfTen p < limit)).getD 0

/-- One digit less, rounded half to even; something left over breaks a tie upwards. -/
def Quotient.shortened (q : Quotient) : Option Quotient :=
  if q.scale < 1 then
    none
  else
    let digits := q.digits / 10
    let last := q.digits % 10
    let up := last > 5 ∨ (last = 5 ∧ (q.rest > 0 ∨ digits % 2 = 1))
    some { q with digits := if up then digits + 1 else digits, scale := q.scale - 1 }

/-- The quotient cut to what fits. -/
def Quotient.bounded (q : Quotient) : Option Quotient :=
  if q.digits < limit then some q else q.shortened

/-- The digits rounded by what is left of the dividend. -/
def Quotient.settled (q : Quotient) (divisor : Nat) : Option Quotient :=
  let up := 2 * q.rest > divisor ∨ (2 * q.rest = divisor ∧ q.digits % 2 = 1)
  Quotient.bounded { q with digits := if up then q.digits + 1 else q.digits, rest := 0 }

/-- Long division by rounds of up to nine places, until nothing is left over or no place is. Each
round adds a place, and there are 57 between the smallest and the largest scale. -/
def Quotient.divide (divisor : Nat) : Nat → Quotient → Option Quotient
  | 0, _ => none
  | rounds + 1, q =>
    if q.rest = 0 then
      if q.scale ≥ 0 then
        some q
      else
        let p := min 9 (-q.scale).toNat
        if q.digits * powerOfTen p < limit then
          divide divisor rounds { q with digits := q.digits * powerOfTen p, scale := q.scale + p }
        else
          none
    else
      let p := q.room
      if p < 9 ∧ q.scale + p < 0 then
        none
      else if p = 0 then
        Quotient.settled { q with inexact := true } divisor
      else
        let next : Quotient :=
          { digits := q.digits * powerOfTen p + q.rest * powerOfTen p / divisor
            rest := q.rest * powerOfTen p % divisor
            scale := q.scale + p
            inexact := true }
        if next.digits < limit then divide divisor rounds next else next.shortened

/-- The quotient with `count` zeros less at its end, if it has that many after the point. -/
def Quotient.strip (count : Nat) (q : Quotient) : Quotient :=
  if q.scale ≥ count ∧ q.digits % powerOfTen count = 0 then
    { q with digits := q.digits / powerOfTen count, scale := q.scale - count }
  else
    q

/-- Strips eight zeros at a time while the low 32 bits of the digits are clear. -/
def Quotient.stripEights : Nat → Quotient → Quotient
  | 0, q => q
  | rounds + 1, q =>
    if q.digits % 4294967296 = 0 ∧ q.scale ≥ 8 ∧ q.digits % powerOfTen 8 = 0 then
      stripEights rounds (q.strip 8)
    else
      q

/-- An inexact quotient gives up zeros at its end: eights as above, then four, two and one, each at
most once. -/
def Quotient.trimmed (q : Quotient) : Quotient :=
  if q.inexact then (((q.stripEights 4).strip 4).strip 2).strip 1 else q

/-- The quotient, if the divisor is not zero and the result fits. -/
def div (a b : Decimal) : Option Decimal :=
  if b.isZero then
    none
  else if a.isZero then
    some zero
  else do
    let start : Quotient :=
      { digits := a.mantissa / b.mantissa
        rest := a.mantissa % b.mantissa
        scale := (a.scale : Int) - b.scale
        inexact := false }
    let q ← start.divide b.mantissa 64
    let q := q.trimmed
    fit? ((a.negative != b.negative) && q.digits != 0) q.digits q.scale.toNat

/-! ### Sums of many -/

/-- The sum from left to right, if every partial sum fits. -/
def sum (values : List Decimal) : Option Decimal :=
  values.foldlM add zero

end Decimal

end Daybook
