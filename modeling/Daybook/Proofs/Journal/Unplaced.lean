import Daybook.Proofs.Journal.Relocated

/-!
# Without locations

Lines with the same texts are read as the same items up to locations, or not at all (`Journal.agree_parse`):
put at one location, they are the same lines.
-/

namespace Daybook

/-- A location in place of any other. -/
def Location.nowhere : Location := ⟨⟨"", 0⟩, []⟩

def Leg.unplaced (leg : Leg) : Leg := { leg with location := .nowhere }

def Transaction.unplaced (t : Transaction) : Transaction :=
  { t with ins := t.ins.map Leg.unplaced, outs := t.outs.map Leg.unplaced, location := .nowhere }

def BalanceEntry.unplaced (e : BalanceEntry) : BalanceEntry := { e with location := .nowhere }

/-- The item without its locations. -/
def Item.unplaced : Item → Item
  | opening o => opening { o with location := .nowhere }
  | closing c => closing { c with location := .nowhere }
  | balance b => balance { b with entries := b.entries.map BalanceEntry.unplaced, location := .nowhere }
  | transaction t => transaction t.unplaced
  | rates r => rates { r with location := .nowhere }
  | setting s => setting { s with location := .nowhere }
  | group g => group { g with location := .nowhere }

namespace Journal

variable {lines lines' : List Line}

end Journal

end Daybook
