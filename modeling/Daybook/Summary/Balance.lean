import Daybook.Ledger

/-!
# What a ledger is worth

Cash and shares of all accounts, in the default currency.
-/

namespace Daybook

/-- What all accounts are worth. -/
structure BalanceSummary where
  currency : Currency
  cash : Decimal
  equity : Decimal
  total : Decimal
  /-- How many accounts are kept in another currency. -/
  converted : Nat
  deriving DecidableEq, Repr

/-- What an account is worth, in its own currency: the balance, or the market value of its shares. -/
def Account.worth (a : Account) : Money :=
  match a.reference.kind with
  | .equity => ⟨(a.state.totals.map EquityTotals.marketValue).getD .zero, a.currency⟩
  | .asset | .liability => ⟨a.state.balance, a.currency⟩

namespace BalanceSummary

def overflow : Error := .plain (.figureOverflow "balances")

/-- The summary with one more account; the total is left for the end. -/
def step (l : Ledger) (s : BalanceSummary) (a : Account) : Except Error BalanceSummary := do
  let value ← (l.convert a.worth s.currency).mapError (.during (.valueAccount a.reference))
  let converted := if a.currency = s.currency then s.converted else s.converted + 1
  match a.reference.kind with
  | .equity =>
    let equity ← orError (s.equity.add value.amount) overflow
    .ok { s with equity, converted }
  | .asset | .liability =>
    let cash ← orError (s.cash.add value.amount) overflow
    .ok { s with cash, converted }

def ofLedger (l : Ledger) : Except Error BalanceSummary := do
  let start : BalanceSummary := ⟨l.defaultCurrency, .zero, .zero, .zero, 0⟩
  let s ← l.accounts.accounts.foldlM (step l) start
  let total ← orError (s.cash.add s.equity) overflow
  .ok { s with total }

end BalanceSummary

end Daybook
