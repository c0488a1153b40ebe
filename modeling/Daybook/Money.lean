import Daybook.Currency
import Daybook.Decimal.Arithmetic

/-!
# Money

Money is an amount in a currency. An exchange rate says what so many units of one currency are worth in
another; it is used as the worth of a single unit, which must come out as a number other than zero.
-/

namespace Daybook

/-- An amount in a currency. -/
structure Money where
  amount : Decimal
  currency : Currency
  deriving DecidableEq, Repr

namespace Money

def zero (currency : Currency) : Money := ⟨.zero, currency⟩

def isZero (m : Money) : Bool := m.amount.isZero

def neg (m : Money) : Money := ⟨m.amount.neg, m.currency⟩

def text (m : Money) : String := m.amount.text ++ " " ++ m.currency.code

end Money

/-- What `rate` per `units` is per unit, unless that does not fit or is rounded to zero. -/
def unitRate? (rate units : Decimal) : Option Decimal :=
  match rate.div units with
  | some perUnit => if perUnit.isZero then none else some perUnit
  | none => none

/-- So many units of one currency are worth an amount of another. -/
structure ExchangeRate where
  pair : CurrencyPair
  rate : Decimal
  units : Decimal
  deriving DecidableEq, Repr

def ExchangeRate.perUnit? (r : ExchangeRate) : Option Decimal := unitRate? r.rate r.units

/-- Whether `b` lies strictly between `a` less and `a` plus a part of it. Where one of the two bounds
does not fit, nothing lies between them. -/
def withinTolerance (a b tolerance : Decimal) : Bool :=
  match (Decimal.one.add tolerance).bind a.mul, (Decimal.one.sub tolerance).bind a.mul with
  | some more, some less =>
    if less ≤ more then
      decide (less < b) && decide (b < more)
    else
      decide (more < b) && decide (b < less)
  | _, _ => false

end Daybook
