import Daybook.Decimal.Reader
import Daybook.Text.Blank

/-!
# Budgets

A budget limits what may be spent in a month, to a fixed amount or to a part of the month's revenues. It
is written `<limit> $` or `<limit> %`.
-/

namespace Daybook

/-- A limit to the expenses of a month. -/
inductive Budget where
  /-- An amount of the default currency. -/
  | fixed (limit : Decimal)
  /-- So many percent of the revenues. -/
  | percent (limit : Decimal)
  deriving DecidableEq, Repr

namespace Budget

inductive ReadError where
  | noKind (text : String)
  | badLimit (limit : String) (why : Decimal.ReadError)
  | unknownKind (kind : String)
  deriving DecidableEq, Repr

def ReadError.message : ReadError → String
  | .noKind text => "invalid budget `" ++ text ++ "', expected `<limit> <%|$>'"
  | .badLimit limit why => "invalid budget limit `" ++ limit ++ "': " ++ why.message
  | .unknownKind kind => "invalid budget kind `" ++ kind ++ "', expected `%' or `$'"

/-- Reads a budget: a limit, a blank, and the kind. -/
def read (text : String) : Except ReadError Budget :=
  match Text.splitFirst? Text.isBlank text.toList with
  | none => .error (.noKind text)
  | some (limit, kind) =>
    match Decimal.readChars (Text.trim limit) with
    | .error why => .error (.badLimit (String.ofList limit) why)
    | .ok value =>
      match Text.trim kind with
      | ['$'] => .ok (.fixed value)
      | ['%'] => .ok (.percent value)
      | other => .error (.unknownKind (String.ofList other))

end Budget

end Daybook
