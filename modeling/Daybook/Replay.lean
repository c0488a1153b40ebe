import Daybook.Account.Valuation
import Daybook.Basket
import Daybook.Settings.Config

/-!
# Replay

Items are replayed on the books: the accounts, and the exchange rates in force. Whatever an item names
is checked before anything changes, so an item that is refused for what it names leaves no trace.

`Books.apply` is one item, and `replay` is all of them, one after the other. What counts only later than
the time of the computation is skipped.
-/

namespace Daybook

/-! ### Steps that tell -/

/-- The result of steps, and what they told up to the one that failed. -/
structure Told (α : Type) where
  result : Except Error α
  notices : List Notice

/-- Takes one step after the other. -/
def foldTelling {σ α : Type} (step : σ → α → Except Error (σ × List Notice)) (state : σ) :
    List α → Told σ
  | [] => ⟨.ok state, []⟩
  | x :: rest =>
    match step state x with
    | .error e => ⟨.error e, []⟩
    | .ok (state, notices) =>
      let later := foldTelling step state rest
      { later with notices := notices ++ later.notices }

/-! ### Books -/

/-- Accounts and exchange rates. -/
structure Books where
  accounts : Registry
  basket : Basket
  deriving DecidableEq

namespace Books

/-- Refuses an account that is unknown, or kept in another currency. -/
def check (b : Books) (account : AccountRef) (currency : Currency) (location : Location) :
    Except Error Account := do
  let found ← b.accounts.lookup account location
  if found.currency = currency then
    .ok found
  else
    .error (.meaning location (.accountCurrency account found.currency currency))

/-- Refuses an account that is unknown, or that holds nothing of a company. -/
def checkPosition (b : Books) (account : AccountRef) (company : String) (location : Location) :
    Except Error Account := do
  let found ← b.accounts.lookup account location
  match found.position? company with
  | some _ => .ok found
  | none => .error (.meaning location (.noPosition company account))

def checkLegs (b : Books) : List Leg → Except Error Unit
  | [] => .ok ()
  | leg :: rest =>
    match leg.posting? with
    | none => b.checkLegs rest
    | some (account, money) => do
      let _ ← b.check account money.currency leg.location
      b.checkLegs rest

def modify (b : Books) (account : AccountRef) (f : AccountState → AccountState) : Books :=
  { b with accounts := b.accounts.modify account f }

/-- The books with an amount added to the balance of an account. -/
def credit (b : Books) (account : AccountRef) (amount : Decimal) (location : Location) :
    Except Error Books :=
  match b.accounts.get? account with
  | none => .ok b
  | some found => do
    let balance ← orError (found.state.balance.add amount) (.overflow location)
    .ok (b.modify account fun state => { state with balance })

def creditLegs (b : Books) : List Leg → Except Error Books
  | [] => .ok b
  | leg :: rest =>
    match leg.posting? with
    | none => b.creditLegs rest
    | some (account, money) => do
      let b ← b.credit account money.amount leg.location
      b.creditLegs rest

/-- The books with another position of an account. A company that the account holds nothing of yet
starts with an empty position. -/
def modifyPosition (b : Books) (account : AccountRef) (company : String)
    (f : Position → Except Error Position) : Except Error Books :=
  match (b.accounts.get? account).bind (·.state.shares) with
  | none => .error (.plain (.cannotHoldShares account))
  | some shares => do
    let p ← f ((shares.get? company).getD .empty)
    .ok (b.modify account fun state => { state with shares := some (shares.insert company p) })

/-! ### Balances -/

/-- Refuses an entry that names something unknown. -/
def checkEntry (b : Books) (e : BalanceEntry) : Except Error Unit :=
  match e.assertion with
  | .cash money => do
    let _ ← b.check e.account money.currency e.location
    .ok ()
  | .sharePrice company price => do
    let _ ← b.check e.account price.currency e.location
    let _ ← b.checkPosition e.account company e.location
    .ok ()

def checkEntries (b : Books) : List BalanceEntry → Except Error Unit
  | [] => .ok ()
  | e :: rest => do
    b.checkEntry e
    b.checkEntries rest

/-- The warning that an asserted balance is not what was computed, if it is not. -/
def drift? (b : Books) (time : Timestamp) (e : BalanceEntry) (money : Money) : List Notice :=
  match b.accounts.get? e.account with
  | none => []
  | some found =>
    if found.state.balance.sameValue money.amount then []
    else [.drift e.location e.account money time found.state.balance]

/-- The books with what an entry says in place of what was computed. -/
def assertEntry (time : Timestamp) (b : Books) (e : BalanceEntry) :
    Except Error (Books × List Notice) :=
  match e.assertion with
  | .cash money =>
    .ok (b.modify e.account fun state => { state with balance := money.amount }, b.drift? time e money)
  | .sharePrice company price => do
    let b ← b.modifyPosition e.account company fun p => .ok { p with price := price.amount }
    .ok (b, [])

def assertEntries (time : Timestamp) (b : Books) :
    List BalanceEntry → Except Error (Books × List Notice)
  | [] => .ok (b, [])
  | e :: rest => do
    let (b, notices) ← assertEntry time b e
    let (b, more) ← assertEntries time b rest
    .ok (b, notices ++ more)

def balance (b : Books) (a : BalanceAssertion) : Except Error (Books × List Notice) := do
  b.checkEntries a.entries
  assertEntries a.timestamp b a.entries

/-! ### Shares -/

/-- What a transfer of shares moves: money between two accounts, and shares. -/
structure ShareMove where
  shares : ShareCount
  source : AccountRef
  given : Money
  sourceLocation : Location
  target : AccountRef
  taken : Money
  targetLocation : Location
  deriving DecidableEq, Repr

namespace ShareMove

/-- The move that a transaction stands for, from its first legs. -/
def ofTransaction (t : Transaction) : Except Error ShareMove := do
  let shares ← orError t.tags.shares? (.plain .equityWithoutShares)
  match t.ins, t.outs with
  | sourceLeg :: _, targetLeg :: _ =>
    let (source, given) ← orError sourceLeg.posting? (.plain .equitySourceNotOwned)
    let (target, taken) ← orError targetLeg.posting? (.plain .equityTargetNotOwned)
    .ok
      { shares, source, given, sourceLocation := sourceLeg.location
        target, taken, targetLocation := targetLeg.location }
  | _, _ => .error (.plain .equityWithoutEnds)

/-- The account whose shares are counted: the target if that can hold shares, else the source. -/
def holder (m : ShareMove) : AccountRef := if m.target.kind = .equity then m.target else m.source

/-- The worth of the shares, which is what moves on the account of the holder. -/
def value (m : ShareMove) : Decimal :=
  (if m.target.kind = .equity then m.taken.amount else m.given.amount).abs

def price? (m : ShareMove) : Option Decimal := (m.value.div m.shares.count).map Decimal.abs

/-- Shares go from one equity account to another. -/
def isBetweenHolders (m : ShareMove) : Bool :=
  decide (m.source.kind = .equity) && decide (m.target.kind = .equity)

end ShareMove

/-- The position with a leg, and the price of the leg. -/
def recordAt (location : Location) (price : Decimal) (leg : ShareLeg) (p : Position) :
    Except Error Position := do
  let p ← orError (p.record leg) (.overflow location)
  .ok { p with price }

/-- Applies a transfer of shares: the cash, the shares of the holder, and for shares that go from one
equity account to another also those of the source. -/
def equity (b : Books) (t : Transaction) : Except Error (Books × List Notice) := do
  let m ← ShareMove.ofTransaction t
  let price ← orError m.price? (.overflow t.location)
  let b ← b.credit m.source m.given.amount m.sourceLocation
  let b ← b.credit m.target m.taken.amount m.targetLocation
  let fee := (t.tags.fee?.map Money.amount).getD .zero
  let leg : ShareLeg := ⟨m.value, m.shares.count, fee, t.effectiveDate⟩
  let b ← b.modifyPosition m.holder m.shares.company (recordAt t.location price leg)
  let b ←
    if m.isBetweenHolders then
      let back : ShareLeg := ⟨m.value, m.shares.count.neg, .zero, t.effectiveDate⟩
      b.modifyPosition m.source m.shares.company (recordAt t.location price back)
    else
      .ok b
  .ok (b, [.sharesBooked t.location m.shares price m.holder])

/-! ### Dividends -/

/-- Applies a dividend: the cash, and the earnings of the position in the currency of its account. -/
def dividend (b : Books) (t : Transaction) (company : String) : Except Error Books := do
  let source ← orError (t.ins.head?.bind Leg.account?) (.plain .dividendWithoutSource)
  let cash ← orError t.outs.head? (.plain .dividendWithoutTarget)
  let (account, money) ← orError cash.posting? (.plain .dividendToOutside)
  let _ ← b.check account money.currency cash.location
  let holder ← b.checkPosition source company t.location
  let earned ← (b.basket.convert money holder.currency).mapError fun why =>
    .meaning t.location (.dividendValue money holder.currency why)
  let b ← b.credit account money.amount cash.location
  b.modifyPosition source company fun p =>
    orError (p.addDividend earned.amount) (.overflow t.location)

/-! ### Items -/

/-- Applies a transaction. Revenue that a dividend is has been applied with the dividend. -/
def transaction (b : Books) (t : Transaction) : Except Error (Books × List Notice) :=
  if t.origin = .dividendRevenue then
    .ok (b, [])
  else
    match t.kind with
    | .expense | .revenue | .transfer => do
      b.checkLegs t.legs
      let b ← b.creditLegs t.legs
      .ok (b, [])
    | .equity => do
      b.checkLegs t.legs
      b.equity t
    | .dividend company => do
      let b ← b.dividend t company
      .ok (b, [])

/-- Sets exchange rates, unless they are from after the time of the computation and such rates do not
count. -/
def setRates (o : Options) (b : Books) (r : RateSet) : Books × List Notice :=
  if o.ratePolicy = .gated ∧ o.now < r.timestamp then
    (b, [.ratesSkipped r.location])
  else
    ({ b with basket := b.basket.setAll r.rates }, [])

/-- Applies an item. Accounts are opened and closed before, and settings and groups change nothing. -/
def apply (o : Options) (b : Books) : Item → Except Error (Books × List Notice)
  | .setting _ | .opening _ | .closing _ | .group _ => .ok (b, [])
  | .rates r => .ok (b.setRates o r)
  | .balance a =>
    if o.now < a.timestamp then .ok (b, [.itemSkipped a.location a.timestamp]) else b.balance a
  | .transaction t =>
    if o.now < t.effectiveDate then
      .ok (b, [.itemSkipped t.location t.effectiveDate])
    else
      b.transaction t

end Books

/-! ### Order -/

/-- Items in the order in which they count; those that count at the same time stay in their order. -/
def chronological (items : List Item) : List Item :=
  items.mergeSort fun a b => decide (a.effectiveDate ≤ b.effectiveDate)

def replay (o : Options) (b : Books) (items : List Item) : Told Books :=
  foldTelling (Books.apply o) b (chronological items)

end Daybook
