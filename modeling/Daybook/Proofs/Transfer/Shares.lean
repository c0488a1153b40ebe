import Daybook.Proofs.Replay.Balance
import Daybook.Proofs.Replay.Shares
import Daybook.Proofs.Transfer.Acceptance
import Daybook.Proofs.Transfer.Checks

/-!
# Transfers of shares

A transfer with shares is accepted exactly if it is a deal (`Draft.Deal`): two ends in one currency, one of them on
an equity account, shares that come in where the target is one and go out where it is not, and a proper fee with
which the amounts balance. Each leg that the replay records of it then has a value and a fee that are not negative
and a count other than zero, and shares come in on the holder exactly if that is the target
(`Journal.TransferIn.isAccepted_iff_deal`).
-/

namespace Daybook

namespace Draft

variable {d : Draft} {shares : ShareCount}

/-! ### Deals -/

/-- Shares against money between two accounts. -/
structure Deal (d : Draft) (shares : ShareCount) extends Ends d where
  currency : given.currency = taken.currency
  equity : source.kind = .equity ∨ target.kind = .equity
  direction : if target.kind = .equity then .zero < shares.count else shares.count < .zero
  fee : d.HasProperFee given.currency
  sum : given.amount.units + taken.amount.units + d.feeAmount.units = 0

theorem Ends.unitsOf_amounts (e : d.Ends) : Decimal.unitsOf d.amounts
    = e.given.amount.units + e.taken.amount.units + d.feeAmount.units := by
  have values : (d.legs.map Leg.value).Perm [e.given.amount, e.taken.amount] := e.legs.map Leg.value
  rw [amounts, Decimal.unitsOf_append, Decimal.unitsOf_perm values]
  simp only [Decimal.unitsOf_cons, Decimal.unitsOf_nil, Int.add_zero]

/-- The shares go the right way where their number, which is not zero, is above zero exactly if the target is an
equity account. -/
theorem direction_iff {isTarget : Prop} [Decidable isTarget] {count : Decimal} (some : count.isZero = false) :
    decide isTarget = decide (.zero < count) ↔ if isTarget then .zero < count else count < .zero := by
  have other : count.units ≠ 0 := fun none => Bool.false_ne_true (some.symm.trans (Decimal.isZero_iff.2 none))
  have above : .zero < count ↔ 0 < count.units := Iff.rfl
  have below : count < .zero ↔ count.units < 0 := Iff.rfl
  rw [decide_eq_decide, above, below]
  split
  · next isTarget => exact ⟨fun same => same.1 isTarget, fun into => iff_of_true isTarget into⟩
  · next others =>
    constructor
    · intro same
      have := mt same.2 others
      omega
    · intro out
      exact iff_of_false others (by omega)

/-- A number of shares with a direction is not zero. -/
theorem Deal.count_ne_zero (deal : d.Deal shares) : shares.count.isZero = false := by
  have direction := deal.direction
  refine Bool.eq_false_iff.2 fun none => ?_
  have none := Decimal.isZero_iff.1 none
  split at direction
  · have into : 0 < shares.count.units := direction
    omega
  · have out : shares.count.units < 0 := direction
    omega

theorem Deal.checkShares (deal : d.Deal shares) : d.checkShares shares = .ok (deal.giving, deal.taking) := by
  have source : isEquity deal.giving = decide (deal.source.kind = .equity) := isEquity_of_posting? deal.posting?_giving
  have target : isEquity deal.taking = decide (deal.target.kind = .equity) := isEquity_of_posting? deal.posting?_taking
  have holder : (!isEquity deal.taking && !isEquity deal.giving) = false := by
    rw [source, target]
    rcases deal.equity with equity | equity <;> simp [equity]
  have direction : (isEquity deal.taking != decide (.zero < shares.count)) = false := by
    rw [target, bne_eq_false_iff_eq]
    exact (direction_iff deal.count_ne_zero).2 deal.direction
  rw [Draft.checkShares, deal.sources_eq, deal.targets_eq]
  dsimp only
  rw [holder, direction]
  rfl

theorem Deal.shareTransfer (deal : d.Deal shares) (exact : Decimal.HasExactSum d.amounts) :
    d.shareTransfer shares = .ok { transactions := [d.toTransaction .equity [deal.giving] [deal.taking]] } := by
  have single : (d.currencies.length == 1) = true := beq_iff_eq.2 (deal.length_currencies_iff.2 deal.currency)
  have two : (d.legs.length == 2) = true := beq_iff_eq.2 deal.length
  have balanced : d.checkBalanced deal.given.currency = .ok () := by
    rw [checkBalanced_eq_ok_iff exact, deal.unitsOf_amounts]
    exact deal.sum
  have some : (!shares.count.isZero) = true := by rw [deal.count_ne_zero]; rfl
  simp only [Draft.shareTransfer, bind_eq_ok_iff, require_eq_ok_iff, deal.checkShares, Except.ok.injEq, Prod.exists,
    Prod.mk.injEq, posting_ok]
  exact ⟨(), two, (), single, (), some, _, _, ⟨rfl, rfl⟩, _, _, deal.posting?_giving, (), checkFee_eq_ok_iff.2 deal.fee,
    (), balanced, rfl⟩

/-- **A transfer of shares is booked if it is a deal**, and then it is one transaction between the two ends. -/
theorem shareTransfer_eq_ok_iff (complete : ∀ leg ∈ d.legs, leg.Complete)
    (owned : ∀ leg ∈ d.legs, leg.isOwned = true) (exact : Decimal.HasExactSum d.amounts) {b : Booked} :
    d.shareTransfer shares = .ok b ↔
      ∃ deal : d.Deal shares, b = { transactions := [d.toTransaction .equity [deal.giving] [deal.taking]] } := by
  constructor
  · intro booked
    obtain ⟨source, target, account, money, gives, takes, holder, direction, some, single, posted, proper, balanced, -⟩ :=
      shareTransfer_ok booked
    obtain ⟨e, rfl, rfl⟩ := exists_ends complete owned gives takes
    obtain ⟨rfl, rfl⟩ := Prod.mk.inj (Option.some.inj (posted.symm.trans e.posting?_giving))
    rw [checkBalanced_eq_ok_iff exact, e.unitsOf_amounts] at balanced
    rw [isEquity_of_posting? e.posting?_giving, isEquity_of_posting? e.posting?_taking] at holder
    rw [isEquity_of_posting? e.posting?_taking, direction_iff some] at direction
    -- The check refuses two ends of which neither is an equity account.
    have equity : e.source.kind = .equity ∨ e.target.kind = .equity := by
      by_cases target : e.target.kind = .equity
      · exact .inr target
      · exact .inl (of_decide_eq_true (holder (decide_eq_false target)))
    let deal : d.Deal shares :=
      ⟨e, e.length_currencies_iff.1 single, equity, direction, checkFee_eq_ok_iff.1 proper, balanced⟩
    exact ⟨deal, Except.ok.inj (booked.symm.trans (deal.shareTransfer exact))⟩
  · rintro ⟨deal, rfl⟩
    exact deal.shareTransfer exact

theorem transfer_eq_ok_iff_deal (complete : ∀ leg ∈ d.legs, leg.Complete) (tagged : d.tags.shares? = some shares)
    (exact : Decimal.HasExactSum d.amounts) {b : Booked} : d.transfer = .ok b ↔
      ∃ deal : d.Deal shares, b = { transactions := [d.toTransaction .equity [deal.giving] [deal.taking]] } := by
  constructor
  · intro booked
    obtain ⟨owned, -, ⟨shares', tagged', booked⟩ | ⟨untagged, -⟩⟩ := transfer_ok booked
    · obtain rfl := Option.some.inj (tagged.symm.trans tagged')
      exact (shareTransfer_eq_ok_iff complete owned exact).1 booked
    · cases tagged.symm.trans untagged
  · rintro ⟨deal, rfl⟩
    rw [transfer_eq deal.owned (by rw [deal.length]), tagged]
    exact deal.shareTransfer exact

/-! ### What is recorded of a deal -/

/-- The exchange that a deal is. -/
def Deal.trade (deal : d.Deal shares) : Trade where
  source := deal.source
  given := deal.given.amount
  target := deal.target
  taken := deal.taken.amount
  shares := shares
  fee := d.feeAmount
  time := (d.toTransaction .equity [deal.giving] [deal.taking]).effectiveDate

theorem Deal.trade?_eq (deal : d.Deal shares) (tagged : d.tags.shares? = some shares) :
    (d.toTransaction .equity [deal.giving] [deal.taking]).trade? = some deal.trade := by
  refine (if_pos rfl).trans ?_
  show d.tags.shares?.bind _ = _
  rw [tagged]
  rfl

/-- Shares come in on the holder exactly if that is the target. -/
theorem Deal.count_pos_iff (deal : d.Deal shares) :
    .zero < deal.trade.holderLeg.shares ↔ deal.trade.holder = deal.trade.target := by
  have direction := deal.direction
  show .zero < shares.count ↔ (if deal.target.kind = .equity then deal.target else deal.source) = deal.target
  split at direction
  · next isTarget =>
    rw [if_pos isTarget]
    exact iff_of_true direction rfl
  · next others =>
    rw [if_neg others]
    have out : shares.count.units < 0 := direction
    refine iff_of_false (Int.not_lt.2 (Int.le_of_lt out)) fun same => others ?_
    -- The holder is an equity account, and so not the target.
    rw [← same]
    exact deal.equity.resolve_right others

end Draft

/-- What the replay may take for granted of shares that come in or go out: value and fee are not negative, and there
are some. -/
structure ShareLeg.IsProper (leg : ShareLeg) : Prop where
  value : .zero ≤ leg.value
  fee : .zero ≤ leg.fee
  shares : leg.shares.isZero = false

theorem Trade.isProper_of_mem_legsOn {x : Trade} {a : AccountRef} {leg : ShareLeg} (fee : .zero ≤ x.fee)
    (some : x.shares.count.isZero = false) (mem : leg ∈ x.legsOn a) : leg.IsProper := by
  rcases List.mem_append.1 mem with mem | mem
  · split at mem
    · obtain rfl := List.mem_singleton.1 mem
      exact ⟨Decimal.nonneg_abs _, fee, some⟩
    · cases mem
  · split at mem
    · obtain rfl := List.mem_singleton.1 mem
      exact ⟨Decimal.nonneg_abs _, Decimal.nonneg_of_negative rfl, some⟩
    · cases mem

/-! ### Transfers of a ledger -/

namespace Journal.TransferIn

variable {lines : List Line} {shares : ShareCount}

/-- **A transfer with shares is accepted exactly if it is a deal**, where no partial sum is rounded or too large. It is
then one item. Whenever the replay applies it, the legs that it adds to an account are those of its trade; they all
have a value and a fee that are not negative and a count other than zero, and the count of the holder is above zero
exactly if the holder is the target. -/
theorem isAccepted_iff_deal (t : TransferIn lines) (tagged : t.draft.tags.shares? = some shares)
    (exact : Decimal.HasExactSum t.draft.amounts) :
    (t.IsAccepted ↔ Nonempty (t.draft.Deal shares)) ∧
      ∀ is, t.Emits is → ∃ (x : Transaction) (trade : Trade), is = [.transaction x] ∧ x.kind = .equity ∧
        x.trade? = some trade ∧ (.zero < trade.holderLeg.shares ↔ trade.holder = trade.target) ∧
        ∀ (b b' : Books) (notices : List Notice), b.transaction x = .ok (b', notices) →
          ∀ a company, b'.legsOf a company
              = b.legsOf a company ++ (if trade.shares.company = company then trade.legsOn a else []) ∧
            ∀ leg ∈ trade.legsOn a, leg.IsProper := by
  have booked_iff (b : Booked) := @Draft.transfer_eq_ok_iff_deal t.draft shares t.complete tagged exact b
  constructor
  · rw [t.isAccepted_iff]
    constructor
    · rintro ⟨b, booked⟩
      obtain ⟨deal, -⟩ := (booked_iff b).1 booked
      exact ⟨deal⟩
    · rintro ⟨deal⟩
      have booked := (booked_iff _).2 ⟨deal, rfl⟩
      exact ⟨_, booked⟩
  · intro is emits
    obtain ⟨b, booked, rfl⟩ := t.emits_iff.1 emits
    obtain ⟨deal, rfl⟩ := (booked_iff b).1 booked
    refine ⟨_, deal.trade, rfl, rfl, deal.trade?_eq tagged, deal.count_pos_iff, ?_⟩
    intro b b' notices applied a company
    have regular := (Draft.regular_of_transfer [] booked List.mem_cons_self).1
    have trade := deal.trade?_eq tagged
    refine ⟨?_, fun leg mem => Trade.isProper_of_mem_legsOn deal.fee.nonneg_feeAmount deal.count_ne_zero mem⟩
    rw [Books.legsOf_of_transaction regular applied, Item.tradeIn?_of_trade trade]
    split
    · exact congrArg _ (List.append_nil _)
    · rfl

/-- The purchase of the household as it is written. -/
def housePurchaseDraft : Draft where
  timestamp := housePurchase.timestamp
  legs := housePurchase.ins ++ housePurchase.outs
  tags := housePurchase.tags
  location := housePurchase.location

/-- The shares that the household pays for come in on the account of the broker. -/
theorem isAccepted_housePurchase : ∃ t : TransferIn houseBook, t.IsAccepted ∧ t.Emits [.transaction housePurchase] ∧
    ∃ trade, housePurchase.trade? = some trade ∧ trade.holder = trade.target ∧ .zero < trade.holderLeg.shares := by
  have found : transferAt? houseBook 5 = some ([], housePurchaseDraft) := by decide +kernel
  obtain ⟨t, patterns, own⟩ := exists_of_transferAt? found
  have draft : t.draft = housePurchaseDraft := by
    rw [TransferIn.draft, patterns, own]
    rfl
  have deal : t.draft.Deal ⟨"ACME", (usd 10).amount⟩ := by
    rw [draft]
    exact
      { source := houseBank
        given := (usd 1010).neg
        sourceAt := houseLine 22
        target := houseBroker
        taken := usd 1000
        targetAt := houseLine 23
        legs := List.Perm.refl _
        given_neg := by decide
        taken_nonneg := by decide
        currency := rfl
        equity := .inr rfl
        direction := by decide
        fee := by decide
        sum := by decide +kernel }
  obtain ⟨iff, emitted⟩ := t.isAccepted_iff_deal (by rw [draft]; rfl) (by rw [draft]; decide +kernel)
  have booked : t.draft.transfer = .ok { transactions := [housePurchase] } := by
    rw [draft]
    rfl
  have emits := t.emits_iff.2 ⟨_, booked, rfl⟩
  obtain ⟨x, trade, only, -, traded, into, -⟩ := emitted _ emits
  obtain rfl := Item.transaction.inj (List.singleton_inj.1 only)
  have bought : .zero < trade.holderLeg.shares := by
    obtain rfl := Option.some.inj traded
    decide
  exact ⟨t, iff.2 ⟨deal⟩, emits, trade, traded, into.1 bought, bought⟩

end Journal.TransferIn

end Daybook
