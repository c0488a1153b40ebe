import Daybook.Problem

/-!
# Exchange rates in force

A basket holds at most one rate for two currencies, quoted in the direction in which it was last set. A
pair without a rate of its own is converted by the inverse of the pair read the other way.
-/

namespace Daybook

/-- What so many units are worth. -/
structure Quote where
  rate : Decimal
  units : Decimal
  deriving DecidableEq, Repr

def Quote.perUnit (q : Quote) : Except Problem Decimal :=
  match unitRate? q.rate q.units with
  | some perUnit => .ok perUnit
  | none => .error (.rateOutOfRange q.rate q.units)

/-- The rates in force, by pair. -/
structure Basket where
  quotes : SortedMap CurrencyPair Quote
  deriving DecidableEq

namespace Basket

def empty : Basket := ⟨.empty⟩

/-- The basket with a rate in place of any other between the two currencies. -/
def set (b : Basket) (r : ExchangeRate) : Basket :=
  ⟨(b.quotes.erase r.pair.swap).insert r.pair ⟨r.rate, r.units⟩⟩

def setAll (b : Basket) (rates : List ExchangeRate) : Basket := rates.foldl set b

def get? (b : Basket) (pair : CurrencyPair) : Option Quote := b.quotes.get? pair

@[simp]
theorem get?_empty (p : CurrencyPair) : empty.get? p = none := rfl

/-- Setting a rate puts it under its pair, clears the pair read the other way, and leaves all others. -/
theorem get?_set (b : Basket) (r : ExchangeRate) (p : CurrencyPair) :
    (b.set r).get? p
      = if r.pair = p then some ⟨r.rate, r.units⟩ else if r.pair.swap = p then none else b.get? p := by
  rw [get?, set, SortedMap.get?_insert, SortedMap.get?_erase]
  rfl

/-- What one unit of a currency is worth in another. -/
def rate (b : Basket) (pair : CurrencyPair) : Except Problem Decimal :=
  if pair.source = pair.target then
    .ok .one
  else
    match b.get? pair, b.get? pair.swap with
    | some quote, _ => quote.perUnit
    | none, some quote => do
      let perUnit ← quote.perUnit
      match Decimal.one.div perUnit with
      | some inverse => .ok inverse
      | none => .error (.inverseOutOfRange pair.swap)
    | none, none => .error (.missingRate pair)

def convert (b : Basket) (money : Money) (target : Currency) : Except Problem Money := do
  let rate ← b.rate ⟨money.currency, target⟩
  match money.amount.mul rate with
  | some amount => .ok ⟨amount, target⟩
  | none => .error (.conversionOverflow money target)

end Basket

end Daybook
