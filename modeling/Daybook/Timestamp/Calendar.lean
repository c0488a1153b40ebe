/-!
# Calendar days

Days of the proleptic Gregorian calendar, for years from -262143 to 262142. A `Date` is a valid day.
-/

namespace Daybook

/-- A year with a 29th of February. -/
def isLeapYear (year : Int) : Bool :=
  year % 4 == 0 && (year % 100 != 0 || year % 400 == 0)

def daysInMonth (year : Int) (month : Nat) : Nat :=
  if month = 2 then (if isLeapYear year then 29 else 28)
  else if month = 4 ∨ month = 6 ∨ month = 9 ∨ month = 11 then 30
  else 31

/-- A day of the calendar. -/
structure Date where
  year : Int
  month : Nat
  day : Nat
  year_le : -262143 ≤ year ∧ year ≤ 262142
  month_le : 1 ≤ month ∧ month ≤ 12
  day_le : 1 ≤ day ∧ day ≤ daysInMonth year month
  deriving DecidableEq, Repr

namespace Date

/-- The day with this year, month and day of the month, if there is one. -/
def ofParts? (year : Int) (month day : Nat) : Option Date :=
  if h : (-262143 ≤ year ∧ year ≤ 262142) ∧ (1 ≤ month ∧ month ≤ 12) ∧
      (1 ≤ day ∧ day ≤ daysInMonth year month) then
    some ⟨year, month, day, h.1, h.2.1, h.2.2⟩
  else
    none

def epoch : Date := ⟨1970, 1, 1, by decide, by decide, by decide⟩

/-- The days before the first of January of a year, counted from the year 0. -/
def daysBeforeYear (year : Int) : Int :=
  let y := year - 1
  365 * year + y / 4 - y / 100 + y / 400

/-- The days of a year before a month. -/
def daysBeforeMonth (year : Int) : Nat → Nat
  | 0 | 1 => 0
  | month + 2 => daysBeforeMonth year (month + 1) + daysInMonth year (month + 1)

/-- The number of a day: consecutive days have consecutive numbers. -/
def number (d : Date) : Int := daysBeforeYear d.year + daysBeforeMonth d.year d.month + d.day

def monthStart (d : Date) : Date :=
  ⟨d.year, d.month, 1, d.year_le, d.month_le, Nat.le_refl 1, Nat.le_trans d.day_le.1 d.day_le.2⟩

/-- The first day of the following month, unless the calendar ends before it. -/
def nextMonthStart? (d : Date) : Option Date :=
  if d.month = 12 then ofParts? (d.year + 1) 1 1 else ofParts? d.year (d.month + 1) 1

/-! ### Written form -/

/-- A number with zeros in front up to two digits. -/
def twoDigits (n : Nat) : String := (if n < 10 then "0" else "") ++ toString n

def fourDigits (n : Nat) : String :=
  let digits := toString n
  String.ofList (List.replicate (4 - digits.length) '0') ++ digits

/-- A year with at least four digits; one outside 0 to 9999 has a sign. -/
def yearText (year : Int) : String :=
  if year < 0 then "-" ++ fourDigits year.natAbs
  else if year > 9999 then "+" ++ fourDigits year.natAbs
  else fourDigits year.natAbs

def text (d : Date) : String :=
  yearText d.year ++ "-" ++ twoDigits d.month ++ "-" ++ twoDigits d.day

end Date

end Daybook
