import Daybook.Transaction

/-!
# Items

Items are what the statements of a ledger mean, in the order in which they are written.
-/

namespace Daybook

structure Opening where
  timestamp : Timestamp
  account : AccountRef
  balance : Money
  tags : SortedSet String
  location : Location
  deriving DecidableEq

structure Closing where
  timestamp : Timestamp
  account : AccountRef
  location : Location
  deriving DecidableEq, Repr

/-- What is known of an account at some time. -/
inductive Assertion where
  | cash (money : Money)
  /-- The price of one share in an equity account. -/
  | sharePrice (company : String) (price : Money)
  deriving DecidableEq, Repr

structure BalanceEntry where
  account : AccountRef
  assertion : Assertion
  location : Location
  deriving DecidableEq, Repr

/-- What is known of accounts at a time. -/
structure BalanceAssertion where
  timestamp : Timestamp
  entries : List BalanceEntry
  location : Location
  deriving DecidableEq, Repr

structure RateSet where
  timestamp : Timestamp
  rates : List ExchangeRate
  location : Location
  deriving DecidableEq, Repr

structure Setting where
  key : String
  value : String
  location : Location
  deriving DecidableEq, Repr

/-- A named list of labels, for display. -/
structure Group where
  name : String
  members : List String
  location : Location
  deriving DecidableEq, Repr

/-- The meaning of a statement. -/
inductive Item where
  | opening (opening : Opening)
  | closing (closing : Closing)
  | balance (assertion : BalanceAssertion)
  | transaction (transaction : Transaction)
  | rates (rates : RateSet)
  | setting (setting : Setting)
  | group (group : Group)
  deriving DecidableEq

namespace Item

/-- The time of an item. Settings and groups are timeless, and come before everything else. -/
def timestamp : Item → Timestamp
  | opening o => o.timestamp
  | closing c => c.timestamp
  | balance b => b.timestamp
  | transaction t => t.timestamp
  | rates r => r.timestamp
  | setting _ | group _ => .epoch

/-- When an item counts. -/
def effectiveDate : Item → Timestamp
  | transaction t => t.effectiveDate
  | item => item.timestamp

def location : Item → Location
  | opening o => o.location
  | closing c => c.location
  | balance b => b.location
  | transaction t => t.location
  | rates r => r.location
  | setting s => s.location
  | group g => g.location

end Item

end Daybook
