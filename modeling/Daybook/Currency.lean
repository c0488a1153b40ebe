import Daybook.SortedMap

/-!
# Currencies

The currencies that a ledger may use, in the alphabetical order of their codes.
-/

namespace Daybook

inductive Currency where
  | chf
  | czk
  | eur
  | gbp
  | jpy
  | nok
  | pln
  | usd
  deriving DecidableEq, Repr

namespace Currency

def all : List Currency := [chf, czk, eur, gbp, jpy, nok, pln, usd]

def code : Currency → String
  | chf => "CHF"
  | czk => "CZK"
  | eur => "EUR"
  | gbp => "GBP"
  | jpy => "JPY"
  | nok => "NOK"
  | pln => "PLN"
  | usd => "USD"

def ofCode? (code : String) : Option Currency := all.find? (·.code == code)

/-- The place of a currency in the order. -/
def rank (c : Currency) : Nat := c.ctorIdx

/-- There are eight places. -/
theorem rank_lt (c : Currency) : c.rank < 8 := by cases c <;> decide

/-- No two currencies share a place. -/
theorem eq_of_rank_eq {a b : Currency} (h : a.rank = b.rank) : a = b := by
  revert h
  cases a <;> cases b <;> decide

theorem mem_all (c : Currency) : c ∈ all := by cases c <;> decide

theorem ofCode?_code (c : Currency) : ofCode? c.code = some c := by cases c <;> decide

end Currency

/-- Two currencies, of which one is quoted in the other. -/
structure CurrencyPair where
  source : Currency
  target : Currency
  deriving DecidableEq, Repr

namespace CurrencyPair

/-- The place of a pair in the order by source and then by target. -/
def rank (p : CurrencyPair) : Nat := p.source.rank * 8 + p.target.rank

/-- No two pairs share a place. -/
theorem eq_of_rank_eq {a b : CurrencyPair} (h : a.rank = b.rank) : a = b := by
  unfold rank at h
  have below := a.target.rank_lt
  have below' := b.target.rank_lt
  have source : a.source = b.source := Currency.eq_of_rank_eq (by omega)
  have target : a.target = b.target := Currency.eq_of_rank_eq (by omega)
  cases a
  cases b
  cases source
  cases target
  rfl

instance : KeyOrder CurrencyPair where
  below a b := decide (a.rank < b.rank)
  below_trans h h' := decide_eq_true (Nat.lt_trans (of_decide_eq_true h) (of_decide_eq_true h'))
  below_self a := decide_eq_false (Nat.lt_irrefl a.rank)
  eq_of_not_below h h' :=
    eq_of_rank_eq
      (Nat.le_antisymm (Nat.not_lt.1 (of_decide_eq_false h')) (Nat.not_lt.1 (of_decide_eq_false h)))

def swap (p : CurrencyPair) : CurrencyPair := ⟨p.target, p.source⟩

def text (p : CurrencyPair) : String := p.source.code ++ "/" ++ p.target.code

end CurrencyPair

end Daybook
