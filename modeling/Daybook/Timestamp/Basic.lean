import Daybook.Timestamp.Calendar

/-!
# Timestamps

A timestamp is a minute of a calendar day. Timestamps are ordered by time, through the number of their
slot on a calendar in which every month has 31 days.
-/

namespace Daybook

/-- A minute of a day. -/
structure Timestamp where
  date : Date
  hour : Nat
  minute : Nat
  hour_lt : hour < 24
  minute_lt : minute < 60
  deriving DecidableEq, Repr

namespace Timestamp

/-- The minute of a day at this time, if there is such a time. -/
def ofParts? (date : Date) (hour minute : Nat) : Option Timestamp :=
  if h : hour < 24 ∧ minute < 60 then some ⟨date, hour, minute, h.1, h.2⟩ else none

def midnight (date : Date) : Timestamp := ⟨date, 0, 0, by decide, by decide⟩

/-- The first minute of 1970, which timeless things count as. -/
def epoch : Timestamp := midnight Date.epoch

instance : Inhabited Timestamp := ⟨epoch⟩

/-- The number of a minute on a calendar in which every month has 31 days. -/
def slot (t : Timestamp) : Int :=
  (((t.date.year * 12 + t.date.month) * 31 + t.date.day) * 24 + t.hour) * 60 + t.minute

instance : LT Timestamp := ⟨fun a b => a.slot < b.slot⟩

instance : LE Timestamp := ⟨fun a b => a.slot ≤ b.slot⟩

instance (a b : Timestamp) : Decidable (a < b) := inferInstanceAs (Decidable (a.slot < b.slot))

instance (a b : Timestamp) : Decidable (a ≤ b) := inferInstanceAs (Decidable (a.slot ≤ b.slot))

/-- The minutes from the first day of the calendar. -/
def minutes (t : Timestamp) : Int := (t.date.number * 24 + t.hour) * 60 + t.minute

/-- The whole days from one timestamp to another; a part of a day does not count, in either
direction. -/
def daysUntil (start stop : Timestamp) : Int := (stop.minutes - start.minutes).tdiv 1440

/-- The time of day, to the second. -/
def timeText (t : Timestamp) : String :=
  Date.twoDigits t.hour ++ ":" ++ Date.twoDigits t.minute ++ ":00"

def text (t : Timestamp) : String := t.date.text ++ " " ++ t.timeText

/-- Day and time, with a `T` between. -/
def isoText (t : Timestamp) : String := t.date.text ++ "T" ++ t.timeText

end Timestamp

end Daybook
