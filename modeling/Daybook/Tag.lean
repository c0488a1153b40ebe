import Daybook.Money
import Daybook.SortedMap
import Daybook.Timestamp.Basic

/-!
# Tags

Tags are what the `with` part of a statement adds to it. Where a tag can have one value only, the first
such tag counts; labels are collected from all tags.
-/

namespace Daybook

/-- A number of shares of a company. -/
structure ShareCount where
  company : String
  count : Decimal
  deriving DecidableEq, Repr

/-- One line of tags. -/
inductive Tag where
  | labels (names : List String)
  | fee (money : Money)
  | shares (shares : ShareCount)
  /-- Who earns the fee. -/
  | intermediary (name : String)
  | rate (rate : ExchangeRate)
  /-- When the statement counts, if not at its own time. -/
  | effectiveDate (timestamp : Timestamp)
  /-- What an expense counts as in summaries. -/
  | calculateAs (money : Money)
  /-- A label on a line of its own. -/
  | flag (name : String)
  deriving DecidableEq, Repr

/-- The tags of a statement, in order. -/
abbrev Tags := List Tag

namespace Tags

/-- The first fee. -/
def fee? (tags : Tags) : Option Money := tags.findSome? fun | .fee money => some money | _ => none

def shares? (tags : Tags) : Option ShareCount :=
  tags.findSome? fun | .shares shares => some shares | _ => none

def intermediary? (tags : Tags) : Option String :=
  tags.findSome? fun | .intermediary name => some name | _ => none

def rate? (tags : Tags) : Option ExchangeRate :=
  tags.findSome? fun | .rate rate => some rate | _ => none

def effectiveDate? (tags : Tags) : Option Timestamp :=
  tags.findSome? fun | .effectiveDate timestamp => some timestamp | _ => none

def calculateAs? (tags : Tags) : Option Money :=
  tags.findSome? fun | .calculateAs money => some money | _ => none

/-- The labels of one tag. -/
def labelsOf : Tag → List String
  | .labels names => names
  | .flag name => [name]
  | _ => []

/-- All labels and flags. -/
def labels (tags : Tags) : SortedSet String := .ofList (tags.flatMap labelsOf)

def hasFlag (tags : Tags) (name : String) : Bool := tags.contains (.flag name)

end Tags

end Daybook
