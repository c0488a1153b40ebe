import Daybook.Account.Registry

/-!
# Valuation

Works out the derived figures of every position of a registry, and the totals of every account that
holds shares. Accounts and companies are taken in order, and the first figure that does not fit is the
one that is told.
-/

namespace Daybook

/-- A position with its figures, and the totals with it. -/
def revalueInto (method : CostBasis) (account : AccountRef) (totals : EquityTotals)
    (company : String) (p : Position) : Except Error (Position × EquityTotals) :=
  orError
    (do
      let p ← p.revalue method
      let totals ← totals.add p
      some (p, totals))
    (.plain (.valuationOverflow company account))

/-- The state of an account with the figures of its shares. -/
def Account.revalued (method : CostBasis) (a : Account) : Except Error AccountState :=
  match a.state.shares with
  | none => .ok a.state
  | some shares => do
    let (shares, totals) ← shares.revise (revalueInto method a.reference) {}
    .ok { a.state with shares := some shares, totals := some totals }

def Registry.revalue (method : CostBasis) (r : Registry) : Except Error Registry :=
  r.modifyAll (Account.revalued method)

end Daybook
