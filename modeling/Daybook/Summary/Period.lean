import Daybook.Ledger

/-!
# Expenses and revenues of a period

A period includes its beginning and excludes its end. What counts after the time of the ledger is left
out, as it is in the ledger itself. All figures are in the default currency.
-/

namespace Daybook

/-- Expenses and revenues of a period. -/
structure PeriodSummary where
  currency : Currency
  start : Timestamp
  stop : Timestamp
  /-- Money spent, without sign. -/
  expenses : Decimal
  revenues : Decimal
  deriving DecidableEq, Repr

namespace PeriodSummary

/-! ### Collecting -/

/-- Money of a transaction in the default currency. -/
def valueOf (l : Ledger) (t : Transaction) (money : Money) : Except Error Decimal :=
  ((l.inDefaultCurrency money).mapError (.during (.valueTransaction t.location))).map Money.amount

/-- The money on tracked accounts of some legs of a transaction. -/
def ownedValue (l : Ledger) (t : Transaction) (legs : List Leg) : Except Error Decimal :=
  (legs.filterMap Leg.posting?).foldlM
    (fun total posting => do
      let value ← valueOf l t posting.2
      orError (total.add value) (.overflow t.location))
    .zero

/-- What an expense counts as: what it is tagged to count as, or else the money spent. -/
def expenseValue (l : Ledger) (t : Transaction) : Except Error Decimal :=
  (match t.tags.calculateAs? with
    | some money => valueOf l t money
    | none => ownedValue l t t.ins).map Decimal.abs

/-- Whether a transaction counts in a period. -/
def covers (l : Ledger) (start stop : Timestamp) (t : Transaction) : Bool :=
  decide (start ≤ t.effectiveDate) && decide (t.effectiveDate < stop) &&
    decide (t.effectiveDate ≤ l.now)

/-- The summary with one more transaction. -/
def addTransaction (l : Ledger) (s : PeriodSummary) (t : Transaction) :
    Except Error PeriodSummary :=
  if covers l s.start s.stop t then
    match t.kind with
    | .expense => do
      let value ← expenseValue l t
      let expenses ← orError (s.expenses.add value) (.overflow t.location)
      .ok { s with expenses }
    | .revenue => do
      let value ← ownedValue l t t.outs
      let revenues ← orError (s.revenues.add value) (.overflow t.location)
      .ok { s with revenues }
    | .transfer | .equity | .dividend _ => .ok s
  else
    .ok s

def addItem (l : Ledger) (s : PeriodSummary) : Item → Except Error PeriodSummary
  | .transaction t => s.addTransaction l t
  | _ => .ok s

/-- The expenses and revenues of a period, in the order of the items. -/
def collect (l : Ledger) (items : List Item) (start stop : Timestamp) :
    Except Error PeriodSummary :=
  items.foldlM (addItem l) ⟨l.defaultCurrency, start, stop, .zero, .zero⟩

/-- The first day of the next month, where the calendar has one. -/
def nextMonth (date : Date) : Except Error Date :=
  orError date.nextMonthStart? (.plain (.noNextMonth date))

/-- The expenses and revenues of the month of a timestamp. -/
def month (l : Ledger) (items : List Item) (time : Timestamp) : Except Error PeriodSummary := do
  let next ← nextMonth time.date
  collect l items (.midnight time.date.monthStart) (.midnight next)

/-! ### Figures -/

def net (s : PeriodSummary) : Except Error Decimal :=
  orError (s.revenues.sub s.expenses) (.plain .differenceOverflow)

/-- Expenses in percent of the revenues; 100 without revenues. -/
def expenseRatio (s : PeriodSummary) : Except Error Decimal :=
  if s.revenues.isZero then
    .ok .hundred
  else
    orError ((s.expenses.div s.revenues).bind (·.mul .hundred))
      (.plain (.figureOverflow "the expense ratio"))

/-- The days of the period, at least one. -/
def days (s : PeriodSummary) : Nat := max 1 (s.start.daysUntil s.stop).toNat

/-- An amount divided by a number of days. -/
def perDay (amount : Decimal) (days : Nat) : Except Error Decimal :=
  orError ((Decimal.fit? false days 0).bind amount.div) (.plain .quotientOverflow)

def dailyAverage (s : PeriodSummary) : Except Error Decimal := perDay s.expenses s.days

end PeriodSummary

end Daybook
