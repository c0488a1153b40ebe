import Daybook.Text.Hidden
import Daybook.Text.Mark
import Daybook.Transaction

/-!
# Notices

What is worth telling about the reading of a ledger and about its replay, beside the result. Only an
account that does not hold what was asserted is worth a warning.
-/

namespace Daybook

/-- Something worth telling. -/
inductive Notice where
  | alreadyIncluded (name : String)
  | patternRegistered (keyword : Keyword) (accounts : List String)
  | feeBooked (location : Location) (fee : Money) (intermediary : String)
  | unknownSetting (location : Location) (key : String)
  | ratesSkipped (location : Location)
  | itemSkipped (location : Location) (effective : Timestamp)
  | sharesBooked (location : Location) (shares : ShareCount) (price : Decimal) (holder : AccountRef)
  /-- An account does not hold what was asserted at a time. -/
  | drift (location : Location) (account : AccountRef) (asserted : Money) (time : Timestamp)
      (computed : Decimal)
  deriving DecidableEq, Repr

namespace Notice

def isWarning : Notice → Bool
  | drift .. => true
  | _ => false

/-- How a character is shown between quotation marks: hidden characters and marks by their code points. -/
def escaped (c : Char) : List Char :=
  if c = '"' then ['\\', '"']
  else if c = '\\' then ['\\', '\\']
  else if c = '\t' then ['\\', 't']
  else if c = '\n' then ['\\', 'n']
  else if c = '\r' then ['\\', 'r']
  else if c = '\x00' then ['\\', '0']
  else if Text.isHidden c || Text.isMark c then
    ['\\', 'u', '\x7b'] ++ Nat.toDigits 16 c.toNat ++ ['\x7d']
  else [c]

/-- A text between quotation marks. -/
def quoted (s : String) : String :=
  String.ofList ('"' :: (s.toList.flatMap escaped ++ ['"']))

def message : Notice → String
  | alreadyIncluded name => name ++ " already included, skipping"
  | patternRegistered keyword accounts =>
    "registered " ++ keyword.text ++ " pattern for \x7b" ++ ", ".intercalate (accounts.map quoted)
      ++ "\x7d"
  | feeBooked location fee intermediary =>
    location.text ++ ": transfer fee of " ++ fee.text ++ " paid to " ++ intermediary
      ++ " booked as expense"
  | unknownSetting location key => location.text ++ ": keeping unknown setting `" ++ key ++ "'"
  | ratesSkipped location => location.text ++ ": rates not effective yet, skipping"
  | itemSkipped location effective =>
    location.text ++ ": not effective until " ++ effective.text ++ ", skipping"
  | sharesBooked location shares price holder =>
    location.text ++ ": " ++ shares.count.text ++ " shares of " ++ shares.company ++ " at "
      ++ price.text ++ " via " ++ holder.text
  | drift location account asserted time computed =>
    location.text ++ ": " ++ account.text ++ " holds " ++ asserted.text ++ " as of " ++ time.text
      ++ ", computed " ++ computed.text

end Notice

end Daybook
