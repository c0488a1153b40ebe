import Daybook.Proofs.Journal.Flow
import Daybook.Proofs.Replay.Balance
import Mathlib.Data.List.Nodup

/-!
# All balances together

Every amount that the replay adds to a balance is on a leg of some transaction, and the account of the leg
has been opened. So as long as no sum is rounded and no balance is asserted, all balances together are
what the accounts were opened with, and what the transactions move (`units_of_balances`).
-/

namespace Daybook

/-! ### Accounts of legs -/

/-- Money that a leg puts on a tracked account is on one of the accounts opened so, and in its currency. -/
def Leg.IsOn (openings : List Opening) (leg : Leg) : Prop :=
  ∀ a m, leg.posting? = some (a, m) → ∃ o ∈ openings, o.account = a ∧ o.balance.currency = m.currency

namespace Books

variable {b b' : Books}

theorem isOn_of_check {leg : Leg} {a : AccountRef} {m : Money} {location : Location} {found : Account}
    (posted : leg.posting? = some (a, m)) (h : b.check a m.currency location = .ok found) :
    leg.IsOn b.accounts.openings := by
  intro a' m' posted'
  rw [posted] at posted'
  cases posted'
  obtain ⟨known, currency⟩ := check_ok h
  exact ⟨found.opening, List.mem_map_of_mem (Registry.mem_of_get? known),
    Registry.reference_of_get? known, currency⟩

theorem isOn_of_checkLegs {legs : List Leg} {u : Unit} (h : b.checkLegs legs = .ok u) :
    ∀ leg ∈ legs, leg.IsOn b.accounts.openings := by
  induction legs with
  | nil =>
    intro leg mem
    cases mem
  | cons leg rest ih =>
    intro leg' mem
    rw [checkLegs] at h
    split at h
    · next outside =>
      rcases List.mem_cons.1 mem with rfl | mem
      · intro a m posted
        rw [outside] at posted
        cases posted
      · exact ih h leg' mem
    · next account money owned =>
      obtain ⟨found, checked, h⟩ := bind_eq_ok_iff.1 h
      rcases List.mem_cons.1 mem with rfl | mem
      · exact isOn_of_check owned checked
      · exact ih h leg' mem

theorem isOn_of_transaction {t : Transaction} {notices : List Notice} (regular : t.Regular)
    (h : b.transaction t = .ok (b', notices)) : ∀ leg ∈ t.countedLegs, leg.IsOn b.accounts.openings := by
  cases applied_of_transaction h with
  | mirror mirror =>
    intro leg mem
    rw [Transaction.countedLegs, regular.mirror mirror] at mem
    simp only [mirror, if_true] at mem
    cases mem
  | cash direct _ noDividend checked _ =>
    rw [Transaction.countedLegs_of_direct direct noDividend]
    exact isOn_of_checkLegs checked
  | equity direct kind checked _ =>
    rw [Transaction.countedLegs_of_direct direct (by simp [kind])]
    exact isOn_of_checkLegs checked
  | @dividend company _ _ kind paid =>
    obtain ⟨_, cashLeg, _, outs⟩ := regular.dividend company kind
    simp only [dividend, outs, bind_eq_ok_iff, orError_eq_ok_iff, List.head?_cons, Option.some.injEq] at paid
    obtain ⟨_, _, _, rfl, ⟨account, money⟩, takes, found, checked, _⟩ := paid
    intro leg mem
    rw [Transaction.countedLegs, kind] at mem
    simp only [outs] at mem
    obtain rfl := List.mem_singleton.1 mem
    exact isOn_of_check takes checked

end Books

/-- What counts is on the accounts that were open before the replay. -/
theorem isOn_of_foldTelling {o : Options} {items : List Item} {b books : Books}
    (regular : ∀ t, .transaction t ∈ items → t.Regular)
    (run : (foldTelling (Books.apply o) b items).result = .ok books) {t : Transaction}
    (mem : .transaction t ∈ items) (counts : t.effectiveDate ≤ o.now) :
    ∀ leg ∈ t.countedLegs, leg.IsOn b.accounts.openings := by
  obtain ⟨s, next, notices, openings, applied⟩ :=
    Books.exists_transaction_of_foldTelling regular run mem counts
  rw [← openings]
  exact Books.isOn_of_transaction (regular t mem) applied

/-- In a ledger that is computed, what counts is on accounts that its items open. -/
theorem isOn_of_compute {lines : List Line} {j : Journal} {o : Options} {l : Ledger}
    (read : Journal.parse lines = .ok j) (computed : (Ledger.compute o j.items).result = .ok l)
    {t : Transaction} (mem : .transaction t ∈ j.items) (counts : t.effectiveDate ≤ o.now) :
    ∀ leg ∈ t.countedLegs, leg.IsOn (j.items.filterMap Item.opening?) := by
  obtain ⟨registry, books, opened, played, _, _, _⟩ := Ledger.exists_of_compute computed
  rw [← Registry.openings_of_ofItems opened]
  exact isOn_of_foldTelling (fun t mem => regular_of_parse read (mem_chronological.1 mem)) played
    (mem_chronological.2 mem) counts

/-! ### One account -/

def Item.countedLegs : Item → List Leg
  | transaction t => t.countedLegs
  | _ => []

/-- The legs of all items that count at a time. -/
def countedLegs (now : Timestamp) (items : List Item) : List Leg :=
  (items.filter (Item.countsAt now)).flatMap Item.countedLegs

theorem countedLegs_cons (now : Timestamp) (i : Item) (rest : List Item) :
    countedLegs now (i :: rest)
      = (if i.effectiveDate ≤ now then i.countedLegs else []) ++ countedLegs now rest := by
  by_cases counts : i.effectiveDate ≤ now <;> simp [countedLegs, Item.countsAt, counts]

theorem exists_of_mem_countedLegs {now : Timestamp} {items : List Item} {leg : Leg}
    (h : leg ∈ countedLegs now items) :
    ∃ t, .transaction t ∈ items ∧ t.effectiveDate ≤ now ∧ leg ∈ t.countedLegs := by
  obtain ⟨i, mem, inLegs⟩ := List.mem_flatMap.1 h
  obtain ⟨mem, counts⟩ := List.mem_filter.1 mem
  cases i with
  | transaction t => exact ⟨t, mem, of_decide_eq_true counts, inLegs⟩
  | _ => cases inLegs

/-- No balance is asserted by a time. -/
def NoAssertion (now : Timestamp) (items : List Item) : Prop :=
  ∀ s, .balance s ∈ items → s.timestamp ≤ now → ∀ e ∈ s.entries, ∀ money, e.assertion ≠ .cash money

/-- Without assertions of balances, a history is nothing but additions. -/
theorem balanceHistory_eq_effectsOn {now : Timestamp} {items : List Item}
    (noAssertion : NoAssertion now items) (a : AccountRef) :
    balanceHistory now a items = Leg.effectsOn a (countedLegs now items) := by
  induction items with
  | nil => rfl
  | cons i rest ih =>
    have later := ih fun s mem => noAssertion s (List.mem_cons_of_mem _ mem)
    rw [balanceHistory_cons, countedLegs_cons, Leg.effectsOn_append, later]
    congr 1
    by_cases counts : i.effectiveDate ≤ now
    · rw [if_pos counts, if_pos counts]
      cases i with
      | balance s =>
        show s.entries.filterMap (BalanceEntry.replacement? a) = []
        refine List.filterMap_eq_nil_iff.2 fun e mem => ?_
        have noCash := noAssertion s List.mem_cons_self counts e mem
        rw [BalanceEntry.replacement?]
        split
        · next money cash => exact absurd cash (noCash money)
        · rfl
      | _ => rfl
    · rw [if_neg counts, if_neg counts]
      rfl

/-- Without assertions and without rounding, an account ends with what it was opened with and what was
added to it. -/
theorem units_of_balance {now : Timestamp} {a : AccountRef} {items : List Item} {opening final : Decimal}
    (noAssertion : NoAssertion now items)
    (exact : Decimal.AddsExactly opening ((countedLegs now items).filterMap (Leg.amountOn? a)))
    (h : (balanceHistory now a items).foldlM BalanceEffect.apply opening = some final) :
    final.units
      = opening.units + Decimal.unitsOf ((countedLegs now items).filterMap (Leg.amountOn? a)) := by
  rw [balanceHistory_eq_effectsOn noAssertion, Leg.effectsOn, List.foldlM_map] at h
  exact Decimal.units_of_foldlM_add exact h

/-! ### All accounts -/

/-- One leg is on one account. -/
theorem sum_amountOn? {accounts : List AccountRef} (nodup : accounts.Nodup) {leg : Leg}
    (known : ∀ a m, leg.posting? = some (a, m) → a ∈ accounts) :
    (accounts.map fun a => Decimal.unitsOf (Leg.amountOn? a leg).toList).sum = Leg.net [leg] := by
  cases posted : leg.posting? with
  | none =>
    have nothing (a : AccountRef) : leg.amountOn? a = none := by rw [Leg.amountOn?, posted]; rfl
    simp [nothing, Leg.net, Leg.amounts, posted]
  | some p =>
    obtain ⟨account, money⟩ := p
    have on (a : AccountRef) : leg.amountOn? a = if account = a then some money.amount else none := by
      rw [Leg.amountOn?, posted]
      rfl
    have others : ∀ a, a ≠ account → a ∈ accounts →
        Decimal.unitsOf (Leg.amountOn? a leg).toList = 0 := by
      intro a other _
      rw [on, if_neg fun same => other same.symm]
      rfl
    rw [List.sum_map_eq_nsmul_single account _ others,
      List.count_eq_one_of_mem nodup (known account money posted), one_nsmul, on, if_pos rfl,
      Leg.net_of_posting? posted]
    exact Int.add_zero _

/-- Each leg is on one account, so the amounts on all accounts are those of all legs. -/
theorem sum_amountsOn {accounts : List AccountRef} (nodup : accounts.Nodup) {legs : List Leg}
    (known : ∀ leg ∈ legs, ∀ a m, leg.posting? = some (a, m) → a ∈ accounts) :
    (accounts.map fun a => Decimal.unitsOf (legs.filterMap (Leg.amountOn? a))).sum = Leg.net legs := by
  induction legs with
  | nil => simp
  | cons leg rest ih =>
    simp only [filterMap_cons_eq_append, Decimal.unitsOf_append, List.sum_map_add]
    rw [sum_amountOn? nodup (known leg List.mem_cons_self),
      ih fun l mem => known l (List.mem_cons_of_mem _ mem), ← Leg.net_cons]

theorem net_countedLegs (now : Timestamp) (items : List Item) :
    Leg.net (countedLegs now items) = totalOf now Transaction.moved items := by
  rw [countedLegs, totalOf]
  generalize items.filter (Item.countsAt now) = counted
  induction counted with
  | nil => rfl
  | cons i rest ih =>
    rw [List.flatMap_cons, Leg.net_append, ih, List.map_cons, List.sum_cons]
    cases i <;> rfl

/-- **All balances together** are what the accounts were opened with and what the transactions move, as
long as no balance is asserted and no balance is rounded. -/
theorem units_of_balances {lines : List Line} {j : Journal} {o : Options} {l : Ledger}
    (read : Journal.parse lines = .ok j) (computed : (Ledger.compute o j.items).result = .ok l)
    (noAssertion : NoAssertion o.now j.items)
    (exact : ∀ opening, .opening opening ∈ j.items → Decimal.AddsExactly opening.balance.amount
      ((countedLegs o.now (chronological j.items)).filterMap (Leg.amountOn? opening.account))) :
    (l.accounts.accounts.map (·.state.balance.units)).sum
      = ((j.items.filterMap Item.opening?).map (·.balance.amount.units)).sum
        + totalOf o.now Transaction.moved j.items := by
  have openings := openings_of_compute computed
  have noAssertion' : NoAssertion o.now (chronological j.items) := by
    intro s mem
    exact noAssertion s (mem_chronological.1 mem)
  -- What every account ends with, and then the sum over all accounts.
  have each : ∀ a ∈ l.accounts.accounts, a.state.balance.units = a.opening.balance.amount.units +
      Decimal.unitsOf ((countedLegs o.now (chronological j.items)).filterMap (Leg.amountOn? a.reference)) := by
    intro a mem
    have balance := map_balance_get? read computed a.reference
    rw [Registry.get?_of_mem mem, Option.map_some, AccountHistory.ofItems, AccountHistory.balance?,
      ← openings, ← Registry.map_opening_get?, Registry.get?_of_mem mem] at balance
    have opened : .opening a.opening ∈ j.items := by
      have inLedger : a.opening ∈ l.accounts.openings := List.mem_map_of_mem mem
      rw [openings] at inLedger
      exact Item.mem_filterMap_opening?.1 inLedger
    exact units_of_balance noAssertion' (exact a.opening opened) balance.symm
  have known : ∀ leg ∈ countedLegs o.now (chronological j.items), ∀ a m, leg.posting? = some (a, m) →
      a ∈ l.accounts.accounts.map Account.reference := by
    intro leg mem a m posted
    obtain ⟨t, mem, counts, inLegs⟩ := exists_of_mem_countedLegs mem
    have isOn := isOn_of_compute read computed (mem_chronological.1 mem) counts leg inLegs
    rw [← openings] at isOn
    obtain ⟨opening, opened, same, _⟩ := isOn a m posted
    obtain ⟨account, inAccounts, rfl⟩ := List.mem_map.1 opened
    rw [← same]
    exact List.mem_map_of_mem inAccounts
  have amounts := sum_amountsOn l.accounts.nodup known
  rw [List.map_map] at amounts
  rw [List.map_congr_left each, List.sum_map_add, ← openings, Registry.openings, List.map_map,
    ← totalOf_perm (chronological_perm j.items), ← net_countedLegs, ← amounts]
  rfl

end Daybook
