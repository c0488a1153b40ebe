import Daybook.Decimal.Reader
import Daybook.Grammar.Attempts
import Daybook.Item
import Daybook.Settings.Budget
import Daybook.Source.Expansion
import Daybook.Timestamp.Reader

/-!
# Problems

A `Problem` is one cause for which a ledger, or a question about it, is refused. An `Error` is a problem
together with where it lies: in the writing of a line, in the meaning of a line, or nowhere in
particular. Every cause has one wording, in `Problem.message`.
-/

namespace Daybook

/-! ### Causes -/

/-- A cause of refusal. -/
inductive Problem where
  -- the language
  /-- The text is no ledger; `text` is the line where reading stopped, if there is one. -/
  | refused (refusal : Grammar.Refusal) (text : Option String)
  /-- A part that the grammar promises is not there. -/
  | missingPart (what : String)
  /-- A part of a line cannot be read; `raw` is that part. -/
  | inPart (raw : String) (why : Problem)
  -- scalars
  | invalidCurrency (code : String)
  | invalidNumber (text : String) (why : Decimal.ReadError)
  | invalidTimestamp (text : String) (why : Timestamp.ReadError)
  | invalidAccount (why : AccountRef.ReadError)
  | invalidBudget (why : Budget.ReadError)
  | unknownKeyword (text : String)
  | rateNotPositive
  | rateOutOfRange (rate units : Decimal)
  -- tags, legs and entries
  | malformedTag (key text : String)
  | unknownTag (key : String)
  | legWithoutAmount (label : String)
  | entryWithoutPrice (account : AccountRef)
  | entryWithPrice (account : AccountRef)
  -- transactions
  | amountOverflow
  | externalLegCount (what : String) (count : Nat)
  | noOwnedLeg (what : String)
  | expenseNotNegative (owner : Owner) (value : Decimal)
  | transferNotOwned (owner : Owner)
  | transferTooShort
  | transferOneSided
  | negativeFee (fee : Money)
  | feeWithoutIntermediary (fee : Money)
  | feeCurrency (fee source : Currency)
  | unbalanced (left : Money) (fee : Decimal)
  | conversionLegCount
  | conversionWithoutRate (source target : Owner)
  | rateDoesNotApply (rate transfer : CurrencyPair)
  | discrepancy (source target : Owner) (given taken converted : Money)
  | equityLegCount (count : Nat)
  | equityCurrencies (currencies : List Currency)
  | noShares (company : String)
  | equityOneSided
  | noEquityAccount (source target : Owner)
  | shareDirection (shares : ShareCount) (source target : Owner)
  | dividendFromCash (account : AccountRef)
  | dividendNotPositive (money : Money)
  -- accounts
  | accountExists (account : AccountRef) (opened : Location)
  | closeUnknown (account : AccountRef)
  | unknownAccount (account : AccountRef)
  | accountCurrency (account : AccountRef) (kept given : Currency)
  | noPosition (company : String) (account : AccountRef)
  | cannotHoldShares (account : AccountRef)
  -- rates and valuation
  | missingRate (pair : CurrencyPair)
  | inverseOutOfRange (pair : CurrencyPair)
  | conversionOverflow (money : Money) (target : Currency)
  | dividendValue (money : Money) (held : Currency) (why : Problem)
  | valuationOverflow (company : String) (account : AccountRef)
  -- transactions that no statement writes
  | equityWithoutShares
  | equityWithoutEnds
  | equitySourceNotOwned
  | equityTargetNotOwned
  | dividendWithoutSource
  | dividendWithoutTarget
  | dividendToOutside
  -- figures
  | figureOverflow (what : String)
  | noNextMonth (date : Date)
  | noBudget
  /-- An unchecked difference of figures does not fit. -/
  | differenceOverflow
  /-- An unchecked quotient of figures does not fit. -/
  | quotientOverflow
  deriving DecidableEq, Repr

def Problem.message : Problem → String
  | refused refusal text => refusal.message ++ " in `" ++ text.getD "end of input" ++ "`"
  | missingPart what => "invalid next token, expected " ++ what
  | inPart raw why => raw ++ ": " ++ why.message
  | invalidCurrency code => "invalid currency: " ++ code
  | invalidNumber text why => "invalid number '" ++ text ++ "': " ++ why.message
  | invalidTimestamp text why => "invalid timestamp '" ++ text ++ "': " ++ why.message
  | invalidAccount why => why.message
  | invalidBudget why => why.message
  | unknownKeyword text => "unknown transaction keyword: " ++ text
  | rateNotPositive => "rate and units must be positive"
  | rateOutOfRange rate units =>
    "rate " ++ rate.text ++ " per " ++ units.text ++ " units is out of range"
  | malformedTag key text => "malformed `" ++ key ++ ":` tag: " ++ text
  | unknownTag key => "unknown tag `" ++ key ++ "`"
  | legWithoutAmount label => "expected `<amount> <currency>` after account: " ++ label
  | entryWithoutPrice account =>
    "balance of " ++ account.text ++ " must name a company and a share price"
  | entryWithPrice account => "balance of " ++ account.text ++ " must be an amount"
  | amountOverflow => "amount overflow"
  | externalLegCount what count =>
    what ++ " needs exactly one external account, found " ++ toString count
  | noOwnedLeg what => what ++ " needs at least one owned account"
  | expenseNotNegative owner value =>
    "expense from " ++ owner.text ++ " must be negative, got " ++ value.text
  | transferNotOwned owner => "invalid account for transfer (not owned): " ++ owner.text
  | transferTooShort => "transfer needs at least two accounts"
  | transferOneSided => "transfer needs a source (negative) and a destination leg"
  | negativeFee fee => "fee must not be negative: " ++ fee.text
  | feeWithoutIntermediary fee => "fee of " ++ fee.text ++ " without an intermediary"
  | feeCurrency fee source => "mismatched fee currency: " ++ fee.code ++ " != " ++ source.code
  | unbalanced left fee =>
    "amounts are not balanced: " ++ left.text ++ " left over (fee " ++ fee.text ++ " "
      ++ left.currency.code ++ ")"
  | conversionLegCount => "cross-currency transfer needs exactly one source and one destination"
  | conversionWithoutRate source target =>
    "no rate on transfer from " ++ source.text ++ " to " ++ target.text
  | rateDoesNotApply rate transfer =>
    "rate " ++ rate.text ++ " does not apply to transfer from " ++ transfer.source.code ++ " to "
      ++ transfer.target.code
  | discrepancy source target given taken converted =>
    "discrepancy in transfer from " ++ source.text ++ " to " ++ target.text ++ ": " ++ given.text
      ++ " != " ++ taken.text ++ " (== " ++ converted.text ++ ")"
  | equityLegCount count =>
    "equity transaction needs exactly two accounts, found " ++ toString count
  | equityCurrencies currencies =>
    "currencies do not match on equity transaction: "
      ++ " != ".intercalate (currencies.map Currency.code)
  | noShares company => "amount of shares of " ++ company ++ " must not be 0"
  | equityOneSided => "equity transaction needs a source (negative) and a destination leg"
  | noEquityAccount source target =>
    "equity transaction from " ++ source.text ++ " to " ++ target.text ++ " has no equity account"
  | shareDirection shares source target =>
    "share count " ++ shares.count.text ++ " of " ++ shares.company
      ++ " does not match a transfer from " ++ source.text ++ " to " ++ target.text
  | dividendFromCash account => "dividend source must be an equity account: " ++ account.text
  | dividendNotPositive money => "dividend must be positive, got " ++ money.text
  | accountExists account opened =>
    "account " ++ account.text ++ " already exists, opened at " ++ opened.text
  | closeUnknown account => "cannot close unknown account " ++ account.text
  | unknownAccount account => "unknown account " ++ account.text
  | accountCurrency account kept given =>
    "mismatched currency: " ++ account.text ++ " is kept in " ++ kept.code ++ ", got " ++ given.code
  | noPosition company account =>
    "company " ++ company ++ " does not exist in account " ++ account.text
  | cannotHoldShares account => account.text ++ " cannot hold shares"
  | missingRate pair => "no currency pair " ++ pair.text
  | inverseOutOfRange pair => "rate " ++ pair.text ++ " is out of range"
  | conversionOverflow money target =>
    "amount overflow converting " ++ money.text ++ " to " ++ target.code
  | dividendValue money held why =>
    "cannot value dividend of " ++ money.text ++ " in " ++ held.code ++ ": " ++ why.message
  | valuationOverflow company account =>
    "amount overflow valuing " ++ company ++ " in " ++ account.text
  | equityWithoutShares => "equity transaction without shares"
  | equityWithoutEnds => "equity transaction without source or destination"
  | equitySourceNotOwned => "equity source is not an owned account"
  | equityTargetNotOwned => "equity destination is not an owned account"
  | dividendWithoutSource => "dividend without an equity account"
  | dividendWithoutTarget => "dividend without a destination"
  | dividendToOutside => "dividend paid to an external account"
  | figureOverflow what => "amount overflow computing " ++ what
  | noNextMonth date => "no month after " ++ date.text
  | noBudget => "no budget"
  | differenceOverflow => "Subtraction overflowed"
  | quotientOverflow => "Division overflowed"

/-! ### Errors -/

/-- What could not be done because of a problem. -/
inductive Context where
  | valueAccount (account : AccountRef)
  | valueTransaction (location : Location)
  deriving DecidableEq, Repr

def Context.message : Context → String
  | valueAccount account => "cannot value " ++ account.text
  | valueTransaction location => "cannot value transaction at " ++ location.text

/-- A problem and where it lies. -/
inductive Error where
  /-- In the writing of a line. -/
  | writing (location : Location) (why : Problem)
  /-- In the meaning of a line. -/
  | meaning (location : Location) (why : Problem)
  /-- Nowhere in particular. -/
  | plain (why : Problem)
  /-- In what was being done. -/
  | during (context : Context) (why : Problem)
  /-- In a source that cannot be read. -/
  | loading (why : LoadFault)
  deriving DecidableEq, Repr

namespace Error

def message : Error → String
  | writing location why => location.text ++ ": syntax error: " ++ why.message
  | meaning location why => location.text ++ ": " ++ why.message
  | plain why => why.message
  | during context why => context.message ++ ": " ++ why.message
  | loading why => why.message

def location? : Error → Option Location
  | writing location _ | meaning location _ => some location
  | plain _ | during _ _ | loading _ => none

def overflow (location : Location) : Error := meaning location .amountOverflow

/-- A problem that lies nowhere in particular, in the writing of a line. -/
def locatedAt (location : Location) : Error → Error
  | plain why => writing location why
  | error => error

end Error

/-- The value of an option, or else an error. -/
def orError {α : Type} (value : Option α) (error : Error) : Except Error α :=
  match value with
  | some value => .ok value
  | none => .error error

/-- A result whose problem lies nowhere in particular. -/
def plainly {α : Type} (result : Except Problem α) : Except Error α := result.mapError .plain

end Daybook
