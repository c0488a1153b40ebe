import Daybook.Proofs.Account.Figures
import Daybook.Proofs.Replay.Balance
import Daybook.Proofs.Replay.InPlace

/-!
# The figures of every ledger

A step of the replay gives one account a new balance, or other shares to one account that has some. So what
neither of the two can end (`Account.IsLasting`) holds of all accounts at the end of a replay if it holds of
them at its start (`forall_of_replay`): that equity accounts have shares, that no other account has any, and
that there are no totals before figures are worked out.

With the figures worked out, an account has shares and totals if it is an equity account, and neither of
them otherwise, and the identities of valuation hold (`valuation_of_compute`).
-/

namespace Daybook

/-! ### What lasts through a replay -/

namespace Account

/-- A property of accounts that stays with a new balance, and with other shares where there are some. -/
structure IsLasting (P : Account → Prop) : Prop where
  balance : ∀ (a : Account) (v : Decimal), P a → P { a with state := { a.state with balance := v } }
  shares : ∀ (a : Account) (old new : SortedMap String Position), a.state.shares = some old → P a →
    P { a with state := { a.state with shares := some new } }

end Account

namespace Books

variable {P : Account → Prop} {b b' : Books} {account : AccountRef} {location : Location}

/-- A property of all accounts stays if the account that is changed keeps it. -/
theorem forall_modify (h : ∀ a ∈ b.accounts.accounts, P a) {f : AccountState → AccountState}
    (keeps : ∀ a, b.accounts.get? account = some a → P a → P { a with state := f a.state }) :
    ∀ a ∈ (b.modify account f).accounts.accounts, P a := by
  intro a' mem
  obtain ⟨a, was, rfl⟩ := List.mem_map.1 mem
  split
  · next here =>
    apply keeps a
    · rw [← here]
      exact Registry.get?_of_mem was
    · exact h a was
  · exact h a was

theorem forall_of_credit (lasting : Account.IsLasting P) (h : ∀ a ∈ b.accounts.accounts, P a)
    {amount : Decimal} (credited : b.credit account amount location = .ok b') :
    ∀ a ∈ b'.accounts.accounts, P a := by
  cases known : b.accounts.get? account with
  | none =>
    obtain rfl := eq_of_credit credited known
    exact h
  | some found =>
    obtain ⟨w, _, rfl⟩ := exists_of_credit credited known
    apply forall_modify h
    intro a _
    exact lasting.balance a w

theorem forall_of_modifyPosition (lasting : Account.IsLasting P) (h : ∀ a ∈ b.accounts.accounts, P a)
    {company : String} {f : Position → Except Error Position}
    (changed : b.modifyPosition account company f = .ok b') : ∀ a ∈ b'.accounts.accounts, P a := by
  obtain ⟨found, shares, q, known, holds, _, rfl⟩ := exists_of_modifyPosition changed
  apply forall_modify h
  intro a isFound
  cases known.symm.trans isFound
  exact lasting.shares found shares _ holds

/-- **One step of the replay.** -/
theorem forall_of_take (lasting : Account.IsLasting P) (h : ∀ a ∈ b.accounts.accounts, P a) {s : Step}
    {notices : List Notice} (taken : b.take s = .ok (b', notices)) : ∀ a ∈ b'.accounts.accounts, P a := by
  cases s with
  | need n =>
    obtain ⟨rfl, _⟩ := take_need_ok taken
    exact h
  | refuse why => cases taken
  | credit account amount location =>
    exact forall_of_credit lasting h (ok_of_take rfl taken)
  | hold account company | record account company leg price location =>
    exact forall_of_modifyPosition lasting h (ok_of_take rfl taken)
  | earn account company money location =>
    obtain ⟨_, _, changed⟩ := take_earn_ok taken
    exact forall_of_modifyPosition lasting h changed
  | assertion time e =>
    obtain ⟨account, assertion, location⟩ := e
    cases assertion with
    | cash money =>
      cases taken
      apply forall_modify h
      intro a _
      exact lasting.balance a money.amount
    | sharePrice company price =>
      exact forall_of_modifyPosition lasting h (take_sharePrice_ok taken)
  | quote rates | tell notice =>
    cases taken
    exact h

/-- **The whole replay**, by induction over its steps. -/
theorem forall_of_replay (lasting : Account.IsLasting P) (h : ∀ a ∈ b.accounts.accounts, P a) {o : Options}
    {items : List Item} (played : (replay o b items).result = .ok b') : ∀ a ∈ b'.accounts.accounts, P a := by
  unfold replay at played
  rw [result_eq_steps] at played
  apply foldTelling_induction (motive := fun _ b => ∀ a ∈ b.accounts.accounts, P a) played h
  intro done s b next notices _ holds taken
  exact forall_of_take lasting holds taken

end Books

/-! ### Shares and totals -/

namespace Account

/-- An account has shares if it is an equity account. There are no totals yet. -/
structure IsUnvalued (a : Account) : Prop where
  shares : a.state.shares.isSome = decide (a.reference.kind = .equity)
  totals : a.state.totals = none

theorem isLasting_isUnvalued : IsLasting IsUnvalued where
  balance _ _ h := ⟨h.shares, h.totals⟩
  shares a old new holds h := by
    refine ⟨?_, h.totals⟩
    have before := h.shares
    rw [holds] at before
    exact before

theorem IsFresh.isUnvalued {a : Account} (fresh : a.IsFresh) : a.IsUnvalued := by
  unfold IsFresh at fresh
  constructor
  · rw [fresh]
    show (if a.reference.kind = .equity then some _ else none).isSome = _
    split
    · next equity => rw [decide_eq_true equity]; rfl
    · next other => rw [decide_eq_false other]; rfl
  · rw [fresh]
    rfl

/-- The figures of an account that had none: an equity account has those of its positions and their sums,
and any other account has nothing. -/
structure IsValued (method : CostBasis) (a : Account) : Prop where
  others : a.reference.kind ≠ .equity → a.state.shares = none ∧ a.state.totals = none
  equity : a.reference.kind = .equity → ∃ shares totals, a.state.shares = some shares ∧
    a.state.totals = some totals ∧ (∀ p ∈ shares.values, p.IsValued method) ∧ totals.SumsUp shares.values

theorem IsUnvalued.revalued {a : Account} {method : CostBasis} {state : AccountState} (h : a.IsUnvalued)
    (worked : a.revalued method = .ok state) : IsValued method { a with state } := by
  obtain ⟨shares, totals⟩ := h
  cases holds : a.state.shares with
  | none =>
    rw [holds] at shares
    unfold Account.revalued at worked
    rw [holds] at worked
    cases worked
    refine ⟨fun _ => ⟨holds, totals⟩, ?_⟩
    intro equity
    change a.reference.kind = .equity at equity
    simp [equity] at shares
  | some before =>
    rw [holds] at shares
    obtain ⟨new, t, rfl, _, valued, sums⟩ := exists_of_revalued holds worked
    refine ⟨?_, fun _ => ⟨new, t, rfl, rfl, valued, sums⟩⟩
    intro other
    exact absurd (of_decide_eq_true shares.symm) other

end Account

/-! ### Ledgers -/

/-- The accounts of a ledger were unvalued before its figures were worked out. -/
theorem isValued_of_compute {o : Options} {items : List Item} {l : Ledger}
    (computed : (Ledger.compute o items).result = .ok l) {a : Account} (mem : a ∈ l.accounts.accounts) :
    a.IsValued o.costBasis := by
  obtain ⟨registry, books, opened, played, worked, _, _⟩ := Ledger.exists_of_compute computed
  have start : ∀ a ∈ registry.accounts, a.IsUnvalued := by
    intro a mem
    exact (Registry.isFresh_of_ofItems opened a mem).isUnvalued
  have unvalued := Books.forall_of_replay (b := ⟨registry, .empty⟩) Account.isLasting_isUnvalued start played
  obtain ⟨before, was, state, revalued, rfl⟩ :=
    Registry.exists_of_mem_mapStates (Registry.mapStates_of_modifyAll worked) mem
  exact (unvalued before was).revalued revalued

/-- **The identities of valuation**, in every ledger. An account for cash has neither shares nor totals, and
an equity account has both. The market value of a position is the number of its shares times the last price,
and its total return is the market value less the cost basis, and the dividends. The totals are the sums of
these figures, and where nothing is rounded the identity of the total return holds for them too. -/
theorem valuation_of_compute {o : Options} {items : List Item} {l : Ledger}
    (computed : (Ledger.compute o items).result = .ok l) {a : Account} (mem : a ∈ l.accounts.accounts) :
    (a.reference.kind ≠ .equity → a.state.shares = none ∧ a.state.totals = none) ∧
    (a.reference.kind = .equity → ∃ shares totals, a.state.shares = some shares ∧
      a.state.totals = some totals ∧
      (∀ p ∈ shares.values, p.held.mul p.price = some p.marketValue ∧
        (p.marketValue.sub p.costBasis).bind (·.add p.dividends) = some p.totalReturn) ∧
      totals.SumsUp shares.values ∧
      (HasExactFigures shares.values →
        totals.costBasis.units = Decimal.unitsOf (shares.values.map (·.costBasis)) ∧
          totals.marketValue.units = Decimal.unitsOf (shares.values.map (·.marketValue)) ∧
          totals.totalReturn.units = Decimal.unitsOf (shares.values.map (·.totalReturn)) ∧
          totals.totalReturn.units = totals.marketValue.units - totals.costBasis.units
            + Decimal.unitsOf (shares.values.map (·.dividends)))) := by
  have figures := isValued_of_compute computed mem
  refine ⟨figures.others, ?_⟩
  intro equity
  obtain ⟨shares, totals, hasShares, hasTotals, valued, sums⟩ := figures.equity equity
  refine ⟨shares, totals, hasShares, hasTotals, ?_, sums, ?_⟩
  · intro p mem
    exact ⟨(valued p mem).marketValue, (valued p mem).totalReturn⟩
  · intro exact
    exact ⟨Decimal.units_of_sum exact.costBasis sums.costBasis,
      Decimal.units_of_sum exact.marketValue sums.marketValue,
      Decimal.units_of_sum exact.totalReturn sums.totalReturn, sums.units_totalReturn valued exact⟩

/-! ### Shares sold out and bought back -/

/-- A deal of the household: money that is paid for some shares. -/
def houseDeal (day : Nat) (payer payee : AccountRef) (money : Money) (shares : ShareCount) : Item :=
  .transaction
    { kind := .equity
      timestamp := day2021 1 day
      ins := [.onAccount payer money.neg (houseLine 8)]
      outs := [.onAccount payee money (houseLine 9)]
      tags := [.shares shares]
      origin := .ledger
      location := houseLine 7 }

/-- Ten shares are bought, sold at a gain, and five of them are bought back, on which a dividend is paid. In
between, shares of another company are bought. -/
def dealtItems : List Item :=
  [.opening ⟨day2021 1 1, houseBank, usd 5000, .empty, houseLine 1⟩,
    .opening ⟨day2021 1 1, houseBroker, usd 0, .empty, houseLine 4⟩,
    houseDeal 4 houseBank houseBroker (usd 1000) ⟨"ACME", (usd 10).amount⟩,
    houseDeal 5 houseBroker houseBank (usd 1200) ⟨"ACME", (usd 10).amount.neg⟩,
    houseDeal 6 houseBank houseBroker (usd 400) ⟨"GLOBEX", (usd 20).amount⟩,
    houseDeal 7 houseBank houseBroker (usd 500) ⟨"ACME", (usd 5).amount⟩,
    houseDividend (.dividend "ACME") .ledger]

theorem chronological_dealtItems : chronological dealtItems = dealtItems := chronological_eq_self (by decide)

/-- The shares of the household are worth 900 and have cost 700. With the dividend that is a return of 250. -/
theorem valuation_of_dealtItems :
    ∃ l bank broker shares totals, (Ledger.compute houseOptions dealtItems).result = .ok l ∧
      l.accounts.get? houseBank = some bank ∧ bank.state.shares = none ∧ bank.state.totals = none ∧
      l.accounts.get? houseBroker = some broker ∧ broker.state.shares = some shares ∧
      broker.state.totals = some totals ∧
      shares.values.map (fun p => (p.held, p.price))
        = [((usd 5).amount, (usd 100).amount), ((usd 20).amount, (usd 20).amount)] ∧
      totals.marketValue.units = (usd 900).amount.units ∧ totals.costBasis.units = (usd 700).amount.units ∧
      totals.totalReturn.units = (usd 900).amount.units - (usd 700).amount.units + (usd 50).amount.units := by
  have computed : ∃ l ∈ (Ledger.compute houseOptions dealtItems).result.toOption,
      (l.accounts.get? houseBank).isSome = true ∧ ∃ broker ∈ l.accounts.get? houseBroker,
        ∃ shares ∈ broker.state.shares, HasExactFigures shares.values ∧
          shares.values.map (fun p => (p.held, p.price))
            = [((usd 5).amount, (usd 100).amount), ((usd 20).amount, (usd 20).amount)] ∧
          Decimal.unitsOf (shares.values.map (·.marketValue)) = (usd 900).amount.units ∧
          Decimal.unitsOf (shares.values.map (·.costBasis)) = (usd 700).amount.units ∧
          Decimal.unitsOf (shares.values.map (·.dividends)) = (usd 50).amount.units := by
    simp only [Ledger.compute, replay, chronological_dealtItems]
    decide +kernel
  obtain ⟨l, computed, isBank, broker, isBroker, shares, holds, exact, held, worth, cost, earned⟩ := computed
  obtain ⟨bank, isBank⟩ := Option.isSome_iff_exists.1 isBank
  have computed := toOption_eq_some_iff.1 computed
  obtain ⟨others, _⟩ := valuation_of_compute computed (Registry.mem_of_get? isBank)
  obtain ⟨_, equity⟩ := valuation_of_compute computed (Registry.mem_of_get? isBroker)
  obtain ⟨noShares, noTotals⟩ := others (by rw [Registry.reference_of_get? isBank]; decide)
  obtain ⟨shares', totals, hasShares, hasTotals, _, _, sums⟩ := equity (by rw [Registry.reference_of_get? isBroker]; rfl)
  cases holds.symm.trans hasShares
  obtain ⟨basis, market, _, identity⟩ := sums exact
  rw [worth] at market
  rw [cost] at basis
  rw [market, basis, earned] at identity
  exact ⟨l, bank, broker, shares, totals, computed, isBank, noShares, noTotals, isBroker, holds, hasTotals, held,
    market, basis, identity⟩

end Daybook
