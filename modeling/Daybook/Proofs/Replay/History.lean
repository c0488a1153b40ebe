import Daybook.Proofs.Replay.Evolution

/-!
# The history of one account

Which items change the balance of an account, and which change one of its positions, can be told from
each item alone: `Item.balanceEffects` and `Item.shareEvents` look at no other account. The history of an
account is what its items say of it, one after the other, as far as they count at the time of the
computation.
-/

namespace Daybook

/-! ### Transactions -/

/-- Shares against money: who gives and who takes it, and how much each. -/
structure Trade where
  source : AccountRef
  given : Decimal
  target : AccountRef
  taken : Decimal
  shares : ShareCount
  fee : Decimal
  time : Timestamp
  deriving DecidableEq

namespace Trade

/-- The account that the shares are counted on: the target if that is an equity account, else the source. -/
def holder (x : Trade) : AccountRef := if x.target.kind = .equity then x.target else x.source

/-- The worth of the shares: the amount on the holder, without sign. -/
def value (x : Trade) : Decimal := (if x.target.kind = .equity then x.taken else x.given).abs

def price? (x : Trade) : Option Decimal := (x.value.div x.shares.count).map Decimal.abs

/-- The equity account that shares leave for another. -/
def mover? (x : Trade) : Option AccountRef :=
  if x.source.kind = .equity ∧ x.target.kind = .equity then some x.source else none

/-- The legs on an account: the shares of the holder, and the same shares the other way where they come
from another equity account. -/
def legsOn (a : AccountRef) (x : Trade) : List ShareLeg :=
  (if x.holder = a then [⟨x.value, x.shares.count, x.fee, x.time⟩] else []) ++
    if x.mover? = some a then [⟨x.value, x.shares.count.neg, .zero, x.time⟩] else []

end Trade

namespace Transaction

/-- The legs whose amounts are added to balances. The revenue that a dividend is has been added with the
dividend, of which only the cash counts. -/
def countedLegs (t : Transaction) : List Leg :=
  match t.kind with
  | .expense | .transfer | .equity => t.legs
  | .revenue => if t.origin = .dividendRevenue then [] else t.legs
  | .dividend _ => t.outs

/-- The exchange of shares that a transaction is. -/
def trade? (t : Transaction) : Option Trade :=
  if t.kind = .equity then do
    let shares ← t.tags.shares?
    let (source, given) ← t.ins.head?.bind Leg.posting?
    let (target, taken) ← t.outs.head?.bind Leg.posting?
    some
      { source, given := given.amount, target, taken := taken.amount, shares
        fee := (t.tags.fee?.map Money.amount).getD .zero, time := t.effectiveDate }
  else
    none

/-- The account, the company and the money of a dividend. -/
def dividend? (t : Transaction) : Option (AccountRef × String × Money) :=
  match t.kind with
  | .dividend company => do
    let source ← t.ins.head?.bind Leg.account?
    let (_, money) ← t.outs.head?.bind Leg.posting?
    some (source, company, money)
  | _ => none

/-- What a transaction does to the position of an account in a company as a trade. -/
def tradeEvents (a : AccountRef) (company : String) (t : Transaction) : List ShareEvent :=
  match t.trade? with
  | some x => if x.shares.company = company then (x.legsOn a).map (.traded · x.price?) else []
  | none => []

/-- What it does as a dividend, by the rates in force. -/
def dividendEvents (rates : Basket) (currency : Currency) (a : AccountRef) (company : String)
    (t : Transaction) : List ShareEvent :=
  match t.dividend? with
  | some (source, payer, money) =>
    if source = a ∧ payer = company then
      [.earned ((rates.convert money currency).toOption.map Money.amount)]
    else []
  | none => []

/-- What a transaction does to the position of an account in a company, by the rates in force. -/
def shareEvents (rates : Basket) (currency : Currency) (a : AccountRef) (company : String)
    (t : Transaction) : List ShareEvent :=
  t.tradeEvents a company ++ t.dividendEvents rates currency a company

variable {t : Transaction}

/-- All legs count, but for those of dividends. -/
theorem countedLegs_of_direct (direct : t.origin ≠ .dividendRevenue)
    (noDividend : ∀ company, t.kind ≠ .dividend company) : t.countedLegs = t.legs := by
  rw [countedLegs]
  split
  · rfl
  · rfl
  · rfl
  · exact if_neg direct
  · next company kind => exact absurd kind (noDividend company)

theorem trade?_eq_none (h : t.kind ≠ .equity) : t.trade? = none := if_neg h

theorem dividend?_eq_none (h : ∀ company, t.kind ≠ .dividend company) : t.dividend? = none := by
  rw [dividend?]
  split
  · next company kind => exact absurd kind (h company)
  · rfl

theorem shareEvents_of_trade {x : Trade} (kind : t.kind = .equity) (trade : t.trade? = some x)
    (rates : Basket) (currency : Currency) (a : AccountRef) (company : String) :
    t.shareEvents rates currency a company
      = if x.shares.company = company then (x.legsOn a).map (.traded · x.price?) else [] := by
  have noDividend : t.dividend? = none := by
    apply dividend?_eq_none
    intro company dividend
    rw [kind] at dividend
    cases dividend
  rw [shareEvents, tradeEvents, dividendEvents, trade, noDividend]
  exact List.append_nil _

theorem shareEvents_of_dividend {source : AccountRef} {payer : String} {money : Money}
    (kind : t.kind = .dividend payer) (dividend : t.dividend? = some (source, payer, money))
    (rates : Basket) (currency : Currency) (a : AccountRef) (company : String) :
    t.shareEvents rates currency a company
      = if source = a ∧ payer = company then
          [.earned ((rates.convert money currency).toOption.map Money.amount)]
        else [] := by
  have noTrade : t.trade? = none := by
    apply trade?_eq_none
    intro equity
    rw [kind] at equity
    cases equity
  rw [shareEvents, tradeEvents, dividendEvents, noTrade, dividend]
  rfl

theorem shareEvents_of_cash (noTrade : t.kind ≠ .equity) (noDividend : ∀ company, t.kind ≠ .dividend company)
    (rates : Basket) (currency : Currency) (a : AccountRef) (company : String) :
    t.shareEvents rates currency a company = [] := by
  rw [shareEvents, tradeEvents, dividendEvents, trade?_eq_none noTrade, dividend?_eq_none noDividend]
  rfl

end Transaction

/-! ### Items -/

namespace BalanceEntry

/-- The balance that an entry asserts of an account. -/
def replacement? (a : AccountRef) (e : BalanceEntry) : Option BalanceEffect :=
  match e.assertion with
  | .cash money => if e.account = a then some (.replace money.amount) else none
  | .sharePrice _ _ => none

/-- The price that an entry asserts of a position. -/
def pricing? (a : AccountRef) (company : String) (e : BalanceEntry) : Option ShareEvent :=
  match e.assertion with
  | .cash _ => none
  | .sharePrice c price => if e.account = a ∧ c = company then some (.priced price.amount) else none

end BalanceEntry

namespace Item

/-- What an item does to the balance of an account. -/
def balanceEffects (a : AccountRef) : Item → List BalanceEffect
  | transaction t => Leg.effectsOn a t.countedLegs
  | balance s => s.entries.filterMap (BalanceEntry.replacement? a)
  | _ => []

/-- What an item does to the position of an account in a company, by the rates in force. -/
def shareEvents (rates : Basket) (currency : Currency) (a : AccountRef) (company : String) :
    Item → List ShareEvent
  | transaction t => t.shareEvents rates currency a company
  | balance s => s.entries.filterMap (BalanceEntry.pricing? a company)
  | _ => []

/-- The rates in force after an item. -/
def ratesAfter (o : Options) (rates : Basket) : Item → Basket
  | .rates r => if o.ratePolicy = .gated ∧ o.now < r.timestamp then rates else rates.setAll r.rates
  | _ => rates

/-- Whether an item counts at a time. -/
def countsAt (now : Timestamp) (i : Item) : Bool := decide (i.effectiveDate ≤ now)

end Item

/-! ### Lists of items -/

/-- Items, each with the rates in force before it. -/
def withRates (o : Options) (rates : Basket) : List Item → List (Basket × Item)
  | [] => []
  | i :: rest => (rates, i) :: withRates o (i.ratesAfter o rates) rest

/-- What items that count at a time do to the balance of an account. -/
def balanceHistory (now : Timestamp) (a : AccountRef) (items : List Item) : List BalanceEffect :=
  (items.filter (Item.countsAt now)).flatMap (Item.balanceEffects a)

/-- What items do to the position of an account in a company, each by the rates in force before it. -/
def shareHistory (o : Options) (rates : Basket) (currency : Currency) (a : AccountRef)
    (company : String) (items : List Item) : List ShareEvent :=
  ((withRates o rates items).filter fun (_, i) => i.countsAt o.now).flatMap fun (rates, i) =>
    i.shareEvents rates currency a company

theorem balanceHistory_cons (now : Timestamp) (a : AccountRef) (i : Item) (rest : List Item) :
    balanceHistory now a (i :: rest)
      = (if i.effectiveDate ≤ now then i.balanceEffects a else []) ++ balanceHistory now a rest := by
  by_cases counts : i.effectiveDate ≤ now <;> simp [balanceHistory, Item.countsAt, counts]

theorem shareHistory_cons (o : Options) (rates : Basket) (currency : Currency) (a : AccountRef)
    (company : String) (i : Item) (rest : List Item) :
    shareHistory o rates currency a company (i :: rest)
      = (if i.effectiveDate ≤ o.now then i.shareEvents rates currency a company else []) ++
        shareHistory o (i.ratesAfter o rates) currency a company rest := by
  by_cases counts : i.effectiveDate ≤ o.now <;> simp [shareHistory, withRates, Item.countsAt, counts]

end Daybook
