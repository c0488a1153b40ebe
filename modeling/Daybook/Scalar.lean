import Daybook.Problem

/-!
# Reading scalars

Values that are one word of a text, and the problem of a text that is not one.
-/

namespace Daybook

def Decimal.ofText (text : String) : Except Problem Decimal :=
  (Decimal.read text).mapError (.invalidNumber text)

def Currency.ofText (text : String) : Except Problem Currency :=
  match Currency.ofCode? text with
  | some currency => .ok currency
  | none => .error (.invalidCurrency text)

def Timestamp.ofText (text : String) : Except Problem Timestamp :=
  (Timestamp.read text).mapError (.invalidTimestamp text)

def AccountRef.ofText (text : String) : Except Problem AccountRef :=
  (AccountRef.read text).mapError .invalidAccount

/-- The account that a text names, or else somebody outside with that label. -/
def Owner.ofText (text : String) : Except Problem Owner :=
  if AccountRef.isOwned text then (AccountRef.ofText text).map .owned else .ok (.external text)

def Keyword.ofText (text : String) : Except Problem Keyword :=
  match Keyword.ofText? text with
  | some keyword => .ok keyword
  | none => .error (.unknownKeyword text)

def Budget.ofText (text : String) : Except Problem Budget :=
  (Budget.read text).mapError .invalidBudget

end Daybook
