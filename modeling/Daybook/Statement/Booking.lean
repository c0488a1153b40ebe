import Daybook.Notice
import Daybook.Problem

/-!
# Booking transactions

A transaction is written as a list of legs with tags, its *draft*. Booking checks the draft by the rules
of its keyword and sorts the legs into the ones that money comes from, which are negative, and the ones
that it goes to.

* An expense takes money from tracked accounts and gives it to one party outside.
* A revenue comes from one party outside.
* A transfer is between tracked accounts. In one currency it must balance; between two currencies it
  needs a rate that explains it. A fee is paid on top of what arrives, and booked as an expense of its
  own.
* A transfer with shares buys, sells or moves them, in one currency.
* A dividend is paid by an equity account. It is booked twice: as the payment, and as revenue.
-/

namespace Daybook

/-- A transaction as it is written. -/
structure Draft where
  timestamp : Timestamp
  legs : List Leg
  tags : Tags
  location : Location
  deriving DecidableEq, Repr

/-- What a statement is booked as, and what is worth telling about it. -/
structure Booked where
  transactions : List Transaction
  notices : List Notice := []
  deriving DecidableEq, Repr

/-- Nothing, if a condition holds, or else an error. -/
def require (condition : Bool) (error : Error) : Except Error Unit :=
  if condition then .ok () else .error error

namespace Draft

/-! ### Parts of a draft -/

def error (d : Draft) (why : Problem) : Error := .meaning d.location why

/-- The legs that money comes from: the negative ones. -/
def sources (d : Draft) : List Leg := d.legs.filter fun leg => decide (leg.value < .zero)

/-- The legs that are not negative. -/
def targets (d : Draft) : List Leg := d.legs.filter fun leg => !decide (leg.value < .zero)

def currencies (d : Draft) : List Currency :=
  Currency.all.filter fun c => d.legs.any fun leg => decide (leg.currency? = some c)

def feeAmount (d : Draft) : Decimal := (d.tags.fee?.map Money.amount).getD .zero

/-- The transaction that a draft is written for. -/
def toTransaction (d : Draft) (kind : TransactionKind) (ins outs : List Leg) : Transaction :=
  { kind, timestamp := d.timestamp, ins, outs, tags := d.tags, origin := .ledger
    location := d.location }

def posting (d : Draft) (leg : Leg) : Except Error (AccountRef × Money) :=
  orError leg.posting? (d.error (.missingPart "amount"))

/-! ### Expenses and revenues -/

/-- The one party outside, and the legs on tracked accounts. -/
def party (d : Draft) (what : String) : Except Error (Leg × List Leg) :=
  let owned := d.legs.filter Leg.isOwned
  match d.legs.filter (!·.isOwned) with
  | [party] =>
    if owned.isEmpty then .error (d.error (.noOwnedLeg what)) else .ok (party, owned)
  | external => .error (d.error (.externalLegCount what external.length))

/-- Books an expense: every account must give money. -/
def expense (d : Draft) : Except Error Booked := do
  let (payee, owned) ← d.party "expense"
  match owned.find? fun leg => decide (.zero ≤ leg.value) with
  | some leg => .error (.meaning leg.location (.expenseNotNegative leg.owner leg.value))
  | none => .ok { transactions := [d.toTransaction .expense owned [payee]] }

/-- Books a revenue. Accounts may also give money. -/
def revenue (d : Draft) : Except Error Booked := do
  let (payer, owned) ← d.party "revenue"
  let ins := owned.filter fun leg => decide (leg.value < .zero)
  let outs := owned.filter fun leg => !decide (leg.value < .zero)
  .ok { transactions := [d.toTransaction .revenue (ins ++ [payer]) outs] }

/-! ### Checks of transfers -/

/-- A fee is not negative, is earned by somebody, and is in the currency of the source. -/
def checkFee (d : Draft) (source : Currency) : Except Error Unit :=
  match d.tags.fee? with
  | none => .ok ()
  | some fee =>
    if fee.amount < .zero then .error (d.error (.negativeFee fee))
    else if d.tags.intermediary?.isNone then .error (d.error (.feeWithoutIntermediary fee))
    else if fee.currency ≠ source then .error (d.error (.feeCurrency fee.currency source))
    else .ok ()

/-- Legs in one currency and the fee on top sum to zero. -/
def checkBalanced (d : Draft) (currency : Currency) : Except Error Unit :=
  match Decimal.sum (d.legs.map Leg.value ++ [d.feeAmount]) with
  | none => .error (.overflow d.location)
  | some left =>
    require left.isZero (d.error (.unbalanced ⟨left, currency⟩ d.feeAmount))

/-- How far what arrives may be from what the rate says, as a part of it. -/
def tolerance : Decimal := ⟨false, 5, 3, by decide, by decide⟩

/-- What an amount in the currency of the source is worth in that of the target. The rate may be quoted
in either direction. -/
def convert (d : Draft) (rate : ExchangeRate) (transfer : CurrencyPair) (amount : Decimal) :
    Except Error Decimal := do
  let perUnit ← orError rate.perUnit? (d.error (.rateOutOfRange rate.rate rate.units))
  if rate.pair = transfer then
    orError (amount.mul perUnit) (.overflow d.location)
  else if rate.pair = transfer.swap then
    orError (amount.div perUnit) (.overflow d.location)
  else
    .error (d.error (.rateDoesNotApply rate.pair transfer))

/-- Between two currencies, one leg gives and one receives, and what is received is near enough to what
the rate makes of what is given without the fee. -/
def checkConversion (d : Draft) : Except Error Unit :=
  match d.sources, d.targets with
  | [source], [target] => do
    let (_, given) ← d.posting source
    let (_, taken) ← d.posting target
    let rate ← orError d.tags.rate? (d.error (.conversionWithoutRate source.owner target.owner))
    let amount ← orError (given.amount.abs.sub d.feeAmount) (.overflow d.location)
    let converted ← d.convert rate ⟨given.currency, taken.currency⟩ amount
    require (withinTolerance converted taken.amount tolerance)
      (d.error (.discrepancy source.owner target.owner given taken
        ⟨converted.round 4, taken.currency⟩))
  | _, _ => .error (d.error .conversionLegCount)

/-! ### Transfers of cash -/

/-- The expense that the fee of a transfer is: the first source pays it to the intermediary. It keeps
the labels and the effective date of the transfer. -/
def feeExpense (d : Draft) (fee : Money) (intermediary : String) (account : AccountRef)
    (sourceLocation : Location) : Transaction :=
  { kind := .expense
    timestamp := d.timestamp
    ins := [.onAccount account fee.neg sourceLocation]
    outs := [.outside intermediary d.location]
    tags := .labels d.tags.labels.toList :: (d.tags.effectiveDate?.map Tag.effectiveDate).toList
    origin := .transferFee
    location := d.location }

/-- Books a transfer that has been checked. A fee other than zero is taken out of the first source. -/
def splitFee (d : Draft) (source : Leg) (sources : List Leg) : Except Error Booked := do
  let (account, money) ← d.posting source
  match d.tags.fee? with
  | none => .ok { transactions := [d.toTransaction .transfer (source :: sources) d.targets] }
  | some fee =>
    if fee.isZero then
      .ok { transactions := [d.toTransaction .transfer (source :: sources) d.targets] }
    else
      let rest ← orError (money.amount.add fee.amount) (.overflow d.location)
      let intermediary ← orError d.tags.intermediary? (d.error (.feeWithoutIntermediary fee))
      let source := { source with money := some ⟨rest, money.currency⟩ }
      .ok
        { transactions :=
            [d.toTransaction .transfer (source :: sources) d.targets,
              d.feeExpense fee intermediary account source.location]
          notices := [.feeBooked d.location fee intermediary] }

def cashTransfer (d : Draft) : Except Error Booked :=
  match d.sources, d.targets with
  | source :: sources, _ :: _ => do
    let (_, money) ← d.posting source
    d.checkFee money.currency
    if d.currencies.length = 1 then d.checkBalanced money.currency else d.checkConversion
    d.splitFee source sources
  | _, _ => .error (d.error .transferOneSided)

/-! ### Transfers of shares -/

/-- A leg on an account that holds shares. -/
def isEquity (leg : Leg) : Bool := decide (leg.account?.map AccountRef.kind = some .equity)

/-- The legs of a transfer of shares: one gives and one receives, and one at least is on an equity
account. Shares come in where the target is one, and go out where it is not. -/
def checkShares (d : Draft) (shares : ShareCount) : Except Error (Leg × Leg) :=
  match d.sources, d.targets with
  | [source], [target] =>
    if !isEquity target && !isEquity source then
      .error (d.error (.noEquityAccount source.owner target.owner))
    else if isEquity target != decide (.zero < shares.count) then
      .error (d.error (.shareDirection shares source.owner target.owner))
    else
      .ok (source, target)
  | _, _ => .error (d.error .equityOneSided)

def shareTransfer (d : Draft) (shares : ShareCount) : Except Error Booked := do
  require (d.legs.length == 2) (d.error (.equityLegCount d.legs.length))
  require (d.currencies.length == 1) (d.error (.equityCurrencies d.currencies))
  require (!shares.count.isZero) (d.error (.noShares shares.company))
  let (source, target) ← d.checkShares shares
  let (_, money) ← d.posting source
  d.checkFee money.currency
  d.checkBalanced money.currency
  .ok { transactions := [d.toTransaction .equity [source] [target]] }

def transfer (d : Draft) : Except Error Booked :=
  match d.legs.find? (!·.isOwned) with
  | some leg => .error (.meaning leg.location (.transferNotOwned leg.owner))
  | none =>
    if d.legs.length < 2 then
      .error (d.error .transferTooShort)
    else
      match d.tags.shares? with
      | some shares => d.shareTransfer shares
      | none => d.cashTransfer

end Draft

/-! ### Dividends -/

/-- A dividend as it is written. -/
structure DividendDraft where
  timestamp : Timestamp
  /-- The account that holds the shares. -/
  account : AccountRef
  company : String
  /-- Where account and company are written. -/
  sourceLocation : Location
  /-- The account that the money goes to. -/
  cash : Leg
  tags : Tags
  location : Location
  deriving DecidableEq, Repr

/-- The leg on the account that pays the dividend. -/
def DividendDraft.source (d : DividendDraft) (money : Money) : Leg :=
  .onAccount d.account money.neg d.sourceLocation

/-- The amount of a dividend, which an equity account pays and which is positive. -/
def DividendDraft.money (d : DividendDraft) : Except Error Money :=
  if d.account.kind ≠ .equity then
    .error (.meaning d.sourceLocation (.dividendFromCash d.account))
  else
    match d.cash.money with
    | none => .error (.meaning d.location (.missingPart "amount"))
    | some money =>
      if money.amount ≤ .zero then
        .error (.meaning d.cash.location (.dividendNotPositive money))
      else
        .ok money

/-- Books a dividend of a checked amount: the payment, and the same as revenue. -/
def DividendDraft.book (d : DividendDraft) (money : Money) : Booked :=
  let paid : Transaction :=
    { kind := .dividend d.company
      timestamp := d.timestamp
      ins := [d.source money]
      outs := [d.cash]
      tags := d.tags
      origin := .ledger
      location := d.location }
  { transactions := [paid, { paid with kind := .revenue, origin := .dividendRevenue }] }

end Daybook
