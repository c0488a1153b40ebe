import Daybook.Summary.Balance
import Daybook.Summary.Budget

/-!
# Reports

A report is the printed form of a ledger: its accounts with their positions, what all of it is worth,
the month so far, and what is left of the budget. Each part is a list of lines. A part that cannot be
worked out ends the report; the parts before it stand.
-/

namespace Daybook

namespace Report

/-- A figure with two places. -/
def figure (d : Decimal) : String := (d.round 2).text

def figureIn (currency : Currency) (d : Decimal) : String := figure d ++ " " ++ currency.code

def position (company : String) (p : Position) : String :=
  "  " ++ company ++ " shares=" ++ p.held.text ++ " basis=" ++ figure p.costBasis ++ " value="
    ++ figure p.marketValue ++ " return=" ++ figure p.totalReturn ++ " dividends="
    ++ figure p.dividends

def account (a : Account) : List String :=
  let status := if a.state.active then "" else " (closed)"
  let head := a.reference.text ++ " " ++ (Money.mk a.state.balance a.currency).text ++ status
  let shares := (a.state.shares.map SortedMap.entries).getD []
  head :: shares.map fun (company, p) => position company p

def balance (l : Ledger) : Except Error (List String) := do
  let s ← BalanceSummary.ofLedger l
  .ok ["", "cash " ++ figureIn s.currency s.cash ++ ", equity " ++ figureIn s.currency s.equity
    ++ ", total " ++ figureIn s.currency s.total ++ " (" ++ toString s.converted ++ " converted)"]

def month (s : PeriodSummary) : Except Error (List String) := do
  let net ← s.net
  let ratio ← s.expenseRatio
  .ok ["this month: expenses " ++ figure s.expenses ++ " revenues " ++ figure s.revenues ++ " net "
    ++ figure net ++ " (" ++ (ratio.round 1).text ++ "% spent)"]

/-- The line of the budget, if there is one. -/
def budget (l : Ledger) (s : PeriodSummary) : Except Error (List String) :=
  match l.config.budget with
  | none => .ok []
  | some b => do
    let left ← b.available s
    let cap ← b.dailyCap s l.now
    .ok ["budget: " ++ figure left ++ " left, " ++ figure cap ++ " per day"]

/-- Lines, and the error after them if there is one. -/
abbrev Partial := List String × Option Error

/-- The lines so far, and then those of a part and of what follows it. -/
def followed {α : Type} (lines : List String) (part : Except Error α) (next : α → Partial) :
    Partial :=
  match part with
  | .error e => (lines, some e)
  | .ok value =>
    let (more, e) := next value
    (lines ++ more, e)

def ofLedger (l : Ledger) (items : List Item) : Partial :=
  followed (l.accounts.accounts.flatMap account) (balance l) fun worth =>
    followed worth (PeriodSummary.month l items l.now) fun s =>
      followed [] (month s) fun spent =>
        followed spent (budget l s) fun left => (left, none)

end Report

end Daybook
