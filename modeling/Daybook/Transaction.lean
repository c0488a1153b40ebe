import Daybook.Account.Reference
import Daybook.Source.Location
import Daybook.Tag

/-!
# Transactions

A transaction moves money from the legs on its way in to the legs on its way out. A leg is on a tracked
account, with an amount, or stands for somebody outside the ledger, without one.
-/

namespace Daybook

/-- Who is at the end of a leg. -/
inductive Owner where
  | owned (account : AccountRef)
  /-- Somebody whose balance is not tracked. -/
  | external (label : String)
  deriving DecidableEq, Repr

def Owner.text : Owner → String
  | .owned account => account.text
  | .external label => label

/-- One end of a transaction. -/
structure Leg where
  owner : Owner
  /-- The amount, which legs on tracked accounts have. -/
  money : Option Money
  location : Location
  deriving DecidableEq, Repr

namespace Leg

def onAccount (account : AccountRef) (money : Money) (location : Location) : Leg :=
  ⟨.owned account, some money, location⟩

def outside (label : String) (location : Location) : Leg := ⟨.external label, none, location⟩

def account? (leg : Leg) : Option AccountRef :=
  match leg.owner with
  | .owned account => some account
  | .external _ => none

def label? (leg : Leg) : Option String :=
  match leg.owner with
  | .owned _ => none
  | .external label => some label

def isOwned (leg : Leg) : Bool := leg.account?.isSome

/-- The amount, zero without money. -/
def value (leg : Leg) : Decimal := (leg.money.map Money.amount).getD .zero

def currency? (leg : Leg) : Option Currency := leg.money.map Money.currency

/-- Account and money of a leg that has both. -/
def posting? (leg : Leg) : Option (AccountRef × Money) :=
  match leg.owner, leg.money with
  | .owned account, some money => some (account, money)
  | _, _ => none

end Leg

/-- The word that a transaction is written with. -/
inductive Keyword where
  | expense
  | revenue
  | transfer
  | dividend
  deriving DecidableEq, Repr

namespace Keyword

def text : Keyword → String
  | expense => "ex"
  | revenue => "rx"
  | transfer => "tx"
  | dividend => "dividend"

def ofText? : String → Option Keyword
  | "ex" => some expense
  | "rx" => some revenue
  | "tx" => some transfer
  | "dividend" => some dividend
  | _ => none

end Keyword

/-- What a transaction is. -/
inductive TransactionKind where
  | expense
  | revenue
  /-- Cash moved between tracked accounts. -/
  | transfer
  /-- Shares bought, sold or moved. -/
  | equity
  | dividend (company : String)
  deriving DecidableEq, Repr

/-- Where a transaction comes from. -/
inductive Origin where
  | ledger
  /-- A dividend, which is revenue too; it is counted but not applied again. -/
  | dividendRevenue
  /-- The fee of a transfer, which is an expense. -/
  | transferFee
  deriving DecidableEq, Repr

/-- Money moving between accounts, or in and out of them. -/
structure Transaction where
  kind : TransactionKind
  timestamp : Timestamp
  ins : List Leg
  outs : List Leg
  tags : Tags
  origin : Origin
  location : Location
  deriving DecidableEq, Repr

namespace Transaction

/-- When the transaction counts. -/
def effectiveDate (t : Transaction) : Timestamp := t.tags.effectiveDate?.getD t.timestamp

def legs (t : Transaction) : List Leg := t.ins ++ t.outs

def postings (t : Transaction) : List (AccountRef × Money) := t.legs.filterMap Leg.posting?

def counterparty? (t : Transaction) : Option String := t.legs.findSome? Leg.label?

end Transaction

end Daybook
