import Daybook.Summary.Period

/-!
# What is left of a budget

The limit of a budget less the expenses of a period, and what that leaves for each day to the end of the
month.
-/

namespace Daybook

namespace Budget

def overflow : Error := .plain (.figureOverflow "the budget")

/-- The limit for the revenues of a period. -/
def limit? (b : Budget) (s : PeriodSummary) : Option Decimal :=
  match b with
  | fixed limit => some limit
  | percent part => (s.revenues.mul part).bind (·.div .hundred)

/-- What is left to spend in a period. -/
def available (b : Budget) (s : PeriodSummary) : Except Error Decimal :=
  orError ((b.limit? s).bind (·.sub s.expenses)) overflow

/-- The days from a day to the end of its month, the day itself included. -/
def daysLeft (today : Date) : Except Error Nat := do
  let next ← PeriodSummary.nextMonth today
  .ok (max 1 (next.number - today.number).toNat)

/-- What may be spent on each day to the end of the month. -/
def dailyCap (b : Budget) (s : PeriodSummary) (now : Timestamp) : Except Error Decimal := do
  let days ← daysLeft now.date
  let left ← b.available s
  PeriodSummary.perDay left days

end Budget

def Ledger.budget (l : Ledger) : Except Error Budget := orError l.config.budget (.plain .noBudget)

end Daybook
