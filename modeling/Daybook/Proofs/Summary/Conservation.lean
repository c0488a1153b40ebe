import Daybook.Proofs.Replay.Total
import Daybook.Proofs.Summary.Collected

/-!
# Money is conserved

Reading, replaying and summing up go separate ways over the same items: a transfer is checked and its fee
split off when it is read, the replay leaves out the revenue that a dividend is and everything in the
future, and a summary selects and values transactions by itself. In the end they agree. In a ledger that
is kept in one currency all balances together are what the accounts were opened with, plus revenues, less
expenses, less the fees of trades (`balances_eq_openings_add_net`).
-/

namespace Daybook

open PeriodSummary

/-! ### Ledgers without conversions and corrections -/

/-- All accounts of a ledger are kept in its default currency, and what counts of its items neither
asserts a balance, nor counts an expense as anything but the money spent, nor takes money out of an
account with a revenue. The revenue that a dividend is may do that: it is not applied. -/
structure IsPlain (l : Ledger) (now : Timestamp) (items : List Item) : Prop where
  currency : ∀ opening, .opening opening ∈ items → opening.balance.currency = l.defaultCurrency
  noAssertion : NoAssertion now items
  noCalculateAs : ∀ t, .transaction t ∈ items → t.effectiveDate ≤ now → t.kind = .expense →
    t.tags.calculateAs? = none
  noGiving : ∀ t, .transaction t ∈ items → t.effectiveDate ≤ now → t.kind = .revenue →
    t.origin ≠ .dividendRevenue → ∀ leg ∈ t.legs, leg.isOwned = true → ¬ leg.value < .zero

/-- No sum of amounts is rounded: not where a transfer is checked and its fee split off, not in the
balance of any account, and not in the summary of a period. -/
structure NoRounding (lines : List Line) (l : Ledger) (now : Timestamp) (items : List Item)
    (start stop : Timestamp) : Prop where
  transfers : ∀ d, .transfer d ∈ Journal.written lines → d.IsExact
  balances : ∀ opening, .opening opening ∈ items → Decimal.AddsExactly opening.balance.amount
    ((countedLegs now (chronological items)).filterMap (Leg.amountOn? opening.account))
  summary : SumsExactly l start stop items

section

variable {lines : List Line} {j : Journal} {o : Options} {l : Ledger}

theorem now_of_compute {items : List Item} (h : (Ledger.compute o items).result = .ok l) :
    l.now = o.now := by
  obtain ⟨_, _, _, _, _, _, now⟩ := Ledger.exists_of_compute h
  exact now

/-- A window around everything that counts is no window at all. -/
theorem covers_iff {t : Transaction} {start stop : Timestamp} (now : l.now = o.now)
    (early : start ≤ t.effectiveDate) (late : o.now < stop) :
    covers l start stop t = true ↔ t.effectiveDate ≤ o.now := by
  rw [covers, now, Bool.and_eq_true, Bool.and_eq_true, decide_eq_true_eq, decide_eq_true_eq, decide_eq_true_eq]
  constructor
  · rintro ⟨_, counts⟩
    exact counts
  · intro counts
    exact ⟨⟨early, Int.lt_of_le_of_lt counts late⟩, counts⟩

/-! ### Currencies -/

/-- What counts in a plain ledger is in the default currency. -/
theorem IsPlain.currency_of_countedLegs (plain : IsPlain l o.now j.items) (read : Journal.parse lines = .ok j)
    (computed : (Ledger.compute o j.items).result = .ok l) {t : Transaction}
    (mem : .transaction t ∈ j.items) (counts : t.effectiveDate ≤ o.now) :
    ∀ leg ∈ t.countedLegs, leg.IsIn l.defaultCurrency := by
  intro leg inLegs a m posted
  obtain ⟨opening, opened, _, currency⟩ := isOn_of_compute read computed mem counts leg inLegs a m posted
  rw [← currency]
  exact plain.currency opening (Item.mem_filterMap_opening?.1 opened)

theorem IsPlain.currency_of_ins (plain : IsPlain l o.now j.items) (read : Journal.parse lines = .ok j)
    (computed : (Ledger.compute o j.items).result = .ok l) {t : Transaction}
    (mem : .transaction t ∈ j.items) (counts : t.effectiveDate ≤ o.now) (kind : t.kind = .expense) :
    ∀ leg ∈ t.ins, leg.IsIn l.defaultCurrency := by
  intro leg inLegs
  have counted : leg ∈ t.countedLegs := by
    rw [Transaction.countedLegs, kind]
    exact List.mem_append_left _ inLegs
  exact plain.currency_of_countedLegs read computed mem counts leg counted

/-- A revenue that is a dividend goes where the dividend goes, and the replay has looked at that. -/
theorem IsPlain.currency_of_outs (plain : IsPlain l o.now j.items) (read : Journal.parse lines = .ok j)
    (computed : (Ledger.compute o j.items).result = .ok l) {t : Transaction}
    (mem : .transaction t ∈ j.items) (counts : t.effectiveDate ≤ o.now) (kind : t.kind = .revenue) :
    ∀ leg ∈ t.outs, leg.IsIn l.defaultCurrency := by
  intro leg inLegs
  by_cases mirror : t.origin = .dividendRevenue
  · obtain ⟨paid, company, beside, dividend, outs, date⟩ := mirrors_of_parse read mem mirror
    have counted : leg ∈ paid.countedLegs := by
      rw [Transaction.countedLegs, dividend]
      show leg ∈ paid.outs
      rw [outs]
      exact inLegs
    rw [← date] at counts
    exact plain.currency_of_countedLegs read computed beside counts leg counted
  · have counted : leg ∈ t.countedLegs := by
      rw [Transaction.countedLegs, kind]
      show leg ∈ if t.origin = .dividendRevenue then [] else t.legs
      rw [if_neg mirror]
      exact List.mem_append_right _ inLegs
    exact plain.currency_of_countedLegs read computed mem counts leg counted

/-! ### Conservation -/

theorem totalOf_gained (now : Timestamp) (items : List Item) :
    totalOf now Transaction.gained items
      = totalOf now Transaction.earned items - totalOf now Transaction.spent items
        - totalOf now Transaction.tradeFee items := by
  rw [totalOf, totalOf, totalOf, totalOf]
  generalize items.filter (Item.countsAt now) = counted
  induction counted with
  | nil => rfl
  | cons i rest ih =>
    simp only [List.map_cons, List.sum_cons, ih]
    cases i <;> simp only [Transaction.gained] <;> omega

/-- **Conservation of money**: in a plain ledger without rounding, all balances together are what the
accounts were opened with, plus revenues, less expenses, less the fees of trades. -/
theorem balances_eq_openings_add_net {start stop : Timestamp} {s : PeriodSummary}
    (read : Journal.parse lines = .ok j) (computed : (Ledger.compute o j.items).result = .ok l)
    (collected : collect l j.items start stop = .ok s)
    (early : ∀ t, .transaction t ∈ j.items → start ≤ t.effectiveDate) (late : o.now < stop)
    (plain : IsPlain l o.now j.items) (exact : NoRounding lines l o.now j.items start stop) :
    (l.accounts.accounts.map (·.state.balance.units)).sum
      = ((j.items.filterMap Item.opening?).map (·.balance.amount.units)).sum
        + s.revenues.units - s.expenses.units - totalOf o.now Transaction.tradeFee j.items := by
  -- The summary, the booking and the replay, each by itself.
  have now := now_of_compute computed
  obtain ⟨revenues, expenses⟩ := units_of_collect collected
    (fun t mem => covers_iff now (early t mem) late) plain.noCalculateAs
    (fun t mem counts kind => plain.currency_of_outs read computed mem counts kind)
    (fun t mem counts kind => plain.currency_of_ins read computed mem counts kind) exact.summary
  have flow := flow_of_parse read exact.transfers plain.noGiving
    fun t mem counts => plain.currency_of_countedLegs read computed mem counts
  have balances := units_of_balances read computed plain.noAssertion exact.balances
  rw [balances, flow, totalOf_gained, revenues, expenses]
  omega

end

/-! ### The household -/

def Written.transfer? : Written → Option Draft
  | transfer d => some d
  | _ => none

theorem isExact_of_houseBook {d : Draft} (h : .transfer d ∈ Journal.written houseBook) : d.IsExact := by
  have all : ∀ d ∈ (Journal.written houseBook).filterMap Written.transfer?, d.IsExact := by
    decide +kernel
  exact all d (List.mem_filterMap.2 ⟨_, h, rfl⟩)

theorem isPlain_houseItems {l : Ledger} (currency : l.defaultCurrency = .usd) :
    IsPlain l houseOptions.now houseItems where
  currency := by
    intro opening mem
    have all : ∀ o ∈ houseItems.filterMap Item.opening?, o.balance.currency = .usd := by decide
    rw [currency]
    exact all opening (Item.mem_filterMap_opening?.2 mem)
  noAssertion := by
    intro s mem
    simp [houseItems, houseDividend] at mem
  noCalculateAs := Item.forall_transaction_iff.2 (by decide)
  noGiving := Item.forall_transaction_iff.2 (by decide)

/-- The household has what it started with and its salary and dividend, less both fees. -/
theorem balances_of_household :
    ∃ j l s, Journal.parse houseBook = .ok j ∧ (Ledger.compute houseOptions j.items).result = .ok l ∧
      collect l j.items (day2021 1 1) (day2021 5 1) = .ok s ∧
      (l.accounts.accounts.map (·.state.balance.units)).sum = (Decimal.ofNat 8035).units := by
  obtain ⟨j, read, items⟩ := exists_journal_of_houseBook
  have computed : ∃ l ∈ (Ledger.compute houseOptions houseItems).result.toOption,
      l.defaultCurrency = .usd ∧
      (collect l houseItems (day2021 1 1) (day2021 5 1)).toOption
        = some ⟨.usd, day2021 1 1, day2021 5 1, .ofNat 5, .ofNat 3050⟩ ∧
      SumsExactly l (day2021 1 1) (day2021 5 1) houseItems := by
    simp only [Ledger.compute, replay, chronological_houseItems]
    decide +kernel
  obtain ⟨l, computed, currency, collected, summary⟩ := computed
  rw [← items] at computed collected summary
  have balances : ∀ opening, .opening opening ∈ j.items → Decimal.AddsExactly opening.balance.amount
      ((countedLegs houseOptions.now (chronological j.items)).filterMap (Leg.amountOn? opening.account)) := by
    have all : ∀ opening ∈ houseItems.filterMap Item.opening?,
        Decimal.AddsExactly opening.balance.amount
          ((countedLegs houseOptions.now houseItems).filterMap (Leg.amountOn? opening.account)) := by
      decide +kernel
    intro opening mem
    rw [items] at mem
    rw [items, chronological_houseItems]
    exact all opening (Item.mem_filterMap_opening?.2 mem)
  have early : ∀ t, .transaction t ∈ j.items → day2021 1 1 ≤ t.effectiveDate := by
    rw [items]
    exact Item.forall_transaction_iff.2 (by decide)
  have computed := toOption_eq_some_iff.1 computed
  have collected := toOption_eq_some_iff.1 collected
  have plain : IsPlain l houseOptions.now j.items := items ▸ isPlain_houseItems currency
  have exact : NoRounding houseBook l houseOptions.now j.items (day2021 1 1) (day2021 5 1) :=
    ⟨fun d => isExact_of_houseBook, balances, summary⟩
  refine ⟨j, l, _, read, computed, collected, ?_⟩
  rw [balances_eq_openings_add_net read computed collected early (by decide) plain exact, items]
  decide +kernel

end Daybook
