import Daybook.Proofs.Replay.Rates
import Daybook.Proofs.Replay.Reopened
import Daybook.Proofs.Replay.Valued
import Daybook.Summary.Balance

/-!
# What all accounts are worth

The summary of a ledger values one account after the other in the default currency, and keeps two running
totals. What it comes to is said without the loop (`BalanceSummary.IsOf`), and it comes to that exactly if
every account can be valued and no total is too large (`ofLedger_eq_ok_iff`). So it fails for one of three
reasons, and a rate that is missing is told of the first account that needs it (`summary_of_compute`).
-/

namespace Daybook

/-! ### Values in the default currency -/

namespace Ledger

/-- What an account is worth in the default currency, if that can be said. -/
def value? (l : Ledger) (a : Account) : Option Decimal := (l.inDefaultCurrency a.worth).toOption.map Money.amount

/-- The account is kept in another currency, and there is no rate in either direction. -/
structure LacksRate (l : Ledger) (a : Account) : Prop where
  foreign : a.currency ≠ l.defaultCurrency
  direct : l.basket.get? ⟨a.currency, l.defaultCurrency⟩ = none
  inverse : l.basket.get? ⟨l.defaultCurrency, a.currency⟩ = none

instance (l : Ledger) (a : Account) : Decidable (l.LacksRate a) :=
  decidable_of_iff
    (a.currency ≠ l.defaultCurrency ∧ l.basket.get? ⟨a.currency, l.defaultCurrency⟩ = none ∧
      l.basket.get? ⟨l.defaultCurrency, a.currency⟩ = none)
    ⟨fun h => ⟨h.1, h.2.1, h.2.2⟩, fun h => ⟨h.foreign, h.direct, h.inverse⟩⟩

/-- No rate is missing, but what the account is worth is no decimal at that rate. -/
structure ConversionOverflows (l : Ledger) (a : Account) : Prop where
  rated : ¬ l.LacksRate a
  tooLarge : ∀ rate, l.basket.rate ⟨a.currency, l.defaultCurrency⟩ = .ok rate → a.worth.amount.mul rate = none

/-- What accounts for cash are worth in the default currency. -/
def cashValues (l : Ledger) (accounts : List Account) : List Decimal :=
  (accounts.filter fun a => a.reference.kind.isCash).filterMap l.value?

/-- What the shares of equity accounts are worth in the default currency. -/
def equityValues (l : Ledger) (accounts : List Account) : List Decimal :=
  (accounts.filter fun a => !a.reference.kind.isCash).filterMap l.value?

/-- A running total is too large. -/
def RunsOver (l : Ledger) (accounts : List Account) : Prop :=
  Decimal.sum (l.cashValues accounts) = none ∨ Decimal.sum (l.equityValues accounts) = none

/-- Cash and shares together are too large. -/
def TotalOverflows (l : Ledger) : Prop :=
  ∃ cash ∈ Decimal.sum (l.cashValues l.accounts.accounts),
    ∃ equity ∈ Decimal.sum (l.equityValues l.accounts.accounts), cash.add equity = none

/-- The accounts in another currency. -/
def foreign (l : Ledger) (accounts : List Account) : List Account :=
  accounts.filter fun a => decide (a.currency ≠ l.defaultCurrency)

/-- No total is rounded, and none is too large. -/
structure HasExactTotals (l : Ledger) : Prop where
  cash : Decimal.HasExactSum (l.cashValues l.accounts.accounts)
  equity : Decimal.HasExactSum (l.equityValues l.accounts.accounts)
  total : ∀ cash ∈ Decimal.sum (l.cashValues l.accounts.accounts),
    ∀ equity ∈ Decimal.sum (l.equityValues l.accounts.accounts),
      (cash.add equity).isSome = true ∧ Decimal.AddsExactly cash [equity]

instance (l : Ledger) : Decidable l.HasExactTotals :=
  decidable_of_iff
    (Decimal.HasExactSum (l.cashValues l.accounts.accounts) ∧ Decimal.HasExactSum (l.equityValues l.accounts.accounts) ∧
      ∀ cash ∈ Decimal.sum (l.cashValues l.accounts.accounts),
        ∀ equity ∈ Decimal.sum (l.equityValues l.accounts.accounts),
          (cash.add equity).isSome = true ∧ Decimal.AddsExactly cash [equity])
    ⟨fun h => ⟨h.1, h.2.1, h.2.2⟩, fun h => ⟨h.cash, h.equity, h.total⟩⟩

variable {l : Ledger} {a : Account} {accounts : List Account}

theorem currency_worth (a : Account) : a.worth.currency = a.currency := by
  unfold Account.worth
  cases a.reference.kind <;> rfl

theorem rate_of_lacksRate (h : l.LacksRate a) :
    l.basket.rate ⟨a.currency, l.defaultCurrency⟩ = .error (.missingRate ⟨a.currency, l.defaultCurrency⟩) := by
  have inverse : l.basket.get? (CurrencyPair.swap ⟨a.currency, l.defaultCurrency⟩) = none := h.inverse
  unfold Basket.rate
  rw [if_neg h.foreign]
  simp only [h.direct, inverse]

theorem inDefaultCurrency_of_lacksRate (h : l.LacksRate a) :
    l.inDefaultCurrency a.worth = .error (.missingRate ⟨a.currency, l.defaultCurrency⟩) := by
  unfold inDefaultCurrency convert Basket.convert
  rw [currency_worth, rate_of_lacksRate h]
  rfl

theorem value?_of_rate {rate : Decimal} (known : l.basket.rate ⟨a.currency, l.defaultCurrency⟩ = .ok rate) :
    l.value? a = a.worth.amount.mul rate := by
  unfold value? inDefaultCurrency convert Basket.convert
  rw [currency_worth, known]
  show ((Except.ok rate >>= fun rate => _) : Except Problem Money).toOption.map Money.amount = _
  dsimp only [bind, Except.bind]
  cases a.worth.amount.mul rate <;> rfl

/-- An account that cannot be valued lacks a rate, or is worth too much for it. -/
theorem value?_eq_none_iff : l.value? a = none ↔ l.LacksRate a ∨ l.ConversionOverflows a := by
  constructor
  · intro unknown
    by_cases lacks : l.LacksRate a
    · exact .inl lacks
    · refine .inr ⟨lacks, ?_⟩
      intro rate known
      rw [← value?_of_rate known, unknown]
  · rintro (lacks | overflows)
    · unfold value?
      rw [inDefaultCurrency_of_lacksRate lacks]
      rfl
    · cases known : l.basket.rate ⟨a.currency, l.defaultCurrency⟩ with
      | ok rate => rw [value?_of_rate known, overflows.tooLarge rate known]
      | error why =>
        unfold value? inDefaultCurrency convert Basket.convert
        rw [currency_worth, known]
        rfl

end Ledger

/-! ### The loop over all accounts -/

namespace BalanceSummary

open Ledger

/-- What some accounts add to a summary. -/
structure Adds (l : Ledger) (accounts : List Account) (s s' : BalanceSummary) : Prop where
  valued : ∀ a ∈ accounts, (l.value? a).isSome = true
  cash : (l.cashValues accounts).foldlM Decimal.add s.cash = some s'.cash
  equity : (l.equityValues accounts).foldlM Decimal.add s.equity = some s'.equity
  converted : s'.converted = s.converted + (l.foreign accounts).length
  others : s' = { s with cash := s'.cash, equity := s'.equity, converted := s'.converted }

variable {l : Ledger} {a : Account} {accounts rest : List Account} {s s' : BalanceSummary}

/-- A step adds the value of an account to one of the two totals. -/
theorem step_eq {v : Decimal} (currency : s.currency = l.defaultCurrency) (known : l.value? a = some v) :
    step l s a = orError
      (do
        let cash ← (l.cashValues [a]).foldlM Decimal.add s.cash
        let equity ← (l.equityValues [a]).foldlM Decimal.add s.equity
        some { s with cash, equity, converted := s.converted + (l.foreign [a]).length })
      overflow := by
  have converted : (if a.currency = s.currency then s.converted else s.converted + 1)
      = s.converted + (l.foreign [a]).length := by
    rw [currency]
    by_cases same : a.currency = l.defaultCurrency <;> simp [foreign, same]
  have values : (l.cashValues [a], l.equityValues [a]) = if a.reference.kind.isCash then ([v], []) else ([], [v]) := by
    cases kind : a.reference.kind.isCash <;> simp [cashValues, equityValues, kind, known]
  obtain ⟨money, valued, rfl⟩ := Option.map_eq_some_iff.1 known
  have converts : l.convert a.worth s.currency = .ok money := by
    rw [currency]
    exact toOption_eq_some_iff.1 valued
  unfold step
  rw [converts, converted]
  generalize l.cashValues [a] = cashValues at values ⊢
  generalize l.equityValues [a] = equityValues at values ⊢
  dsimp only [Except.mapError, bind, Except.bind]
  cases kind : a.reference.kind with
  | equity =>
    rw [kind] at values
    cases values
    show _ = orError ((s.equity.add money.amount >>= some) >>= _) overflow
    cases s.equity.add money.amount <;> rfl
  | asset | liability =>
    rw [kind] at values
    cases values
    show _ = orError ((s.cash.add money.amount >>= some) >>= _) overflow
    cases s.cash.add money.amount <;> rfl

/-- **One account.** -/
theorem step_eq_ok_iff (currency : s.currency = l.defaultCurrency) :
    step l s a = .ok s' ↔ Adds l [a] s s' := by
  cases known : l.value? a with
  | none =>
    constructor
    · intro h
      obtain ⟨money, converts, _⟩ := bind_eq_ok_iff.1 h
      rw [mapError_eq_ok_iff, currency] at converts
      unfold value? inDefaultCurrency at known
      rw [converts] at known
      cases known
    · intro added
      have valued := added.valued a List.mem_cons_self
      rw [known] at valued
      cases valued
  | some v =>
    rw [step_eq currency known, orError_eq_ok_iff]
    simp only [Option.bind_eq_bind, Option.bind_eq_some_iff, Option.some.injEq]
    constructor
    · rintro ⟨cash, sum, equity, sum', rfl⟩
      exact ⟨by simp [known], sum, sum', rfl, rfl⟩
    · intro added
      refine ⟨s'.cash, added.cash, s'.equity, added.equity, ?_⟩
      rw [added.others, added.converted]

/-- One account after another. -/
theorem adds_cons_iff : Adds l (a :: rest) s s' ↔ ∃ next, Adds l [a] s next ∧ Adds l rest next s' := by
  have cash : l.cashValues (a :: rest) = l.cashValues [a] ++ l.cashValues rest := by
    unfold cashValues
    rw [← List.filterMap_append, ← List.filter_append]
    rfl
  have equity : l.equityValues (a :: rest) = l.equityValues [a] ++ l.equityValues rest := by
    unfold equityValues
    rw [← List.filterMap_append, ← List.filter_append]
    rfl
  have foreign : l.foreign (a :: rest) = l.foreign [a] ++ l.foreign rest := by
    unfold Ledger.foreign
    rw [← List.filter_append]
    rfl
  constructor
  · intro added
    have cashSum := added.cash
    have equitySum := added.equity
    rw [cash, List.foldlM_append] at cashSum
    rw [equity, List.foldlM_append] at equitySum
    obtain ⟨cashNext, first, later⟩ := Option.bind_eq_some_iff.1 cashSum
    obtain ⟨equityNext, first', later'⟩ := Option.bind_eq_some_iff.1 equitySum
    refine ⟨{ s with cash := cashNext, equity := equityNext, converted := s.converted + (l.foreign [a]).length },
      ⟨?_, first, first', rfl, rfl⟩, ?_, later, later', ?_, added.others⟩
    · intro b mem
      rw [List.mem_singleton.1 mem]
      exact added.valued a List.mem_cons_self
    · intro b mem
      exact added.valued b (List.mem_cons_of_mem a mem)
    · rw [added.converted, foreign, List.length_append, Nat.add_assoc]
  · rintro ⟨next, one, others⟩
    refine ⟨?_, ?_, ?_, ?_, ?_⟩
    · intro b mem
      rcases List.mem_cons.1 mem with rfl | mem
      · exact one.valued b List.mem_cons_self
      · exact others.valued b mem
    · rw [cash, List.foldlM_append, one.cash]
      exact others.cash
    · rw [equity, List.foldlM_append, one.equity]
      exact others.equity
    · rw [others.converted, one.converted, foreign, List.length_append, Nat.add_assoc]
    · rw [others.others, one.others]

/-- **All accounts**, by induction. -/
theorem foldlM_step_eq_ok_iff (currency : s.currency = l.defaultCurrency) :
    accounts.foldlM (step l) s = .ok s' ↔ Adds l accounts s s' := by
  induction accounts generalizing s with
  | nil =>
    constructor
    · intro h
      cases h
      refine ⟨?_, rfl, rfl, rfl, rfl⟩
      intro a mem
      cases mem
    · intro added
      have cash : s.cash = s'.cash := Option.some.inj added.cash
      have equity : s.equity = s'.equity := Option.some.inj added.equity
      have converted : s'.converted = s.converted := added.converted
      rw [added.others, ← cash, ← equity, converted]
      rfl
  | cons a rest ih =>
    rw [List.foldlM_cons, bind_eq_ok_iff, adds_cons_iff]
    apply exists_congr
    intro next
    rw [step_eq_ok_iff currency]
    apply and_congr_right
    intro added
    apply ih
    rw [added.others]
    exact currency

/-! ### The whole summary -/

/-- What a summary says of a ledger, without the loop: every account can be valued, and the figures are the
sums of the values, from left to right. -/
structure IsOf (l : Ledger) (s : BalanceSummary) : Prop where
  currency : s.currency = l.defaultCurrency
  valued : ∀ a ∈ l.accounts.accounts, (l.value? a).isSome = true
  cash : Decimal.sum (l.cashValues l.accounts.accounts) = some s.cash
  equity : Decimal.sum (l.equityValues l.accounts.accounts) = some s.equity
  total : s.cash.add s.equity = some s.total
  converted : s.converted = (l.foreign l.accounts.accounts).length

/-- **A ledger has a summary exactly if all accounts can be valued and all totals fit.** -/
theorem ofLedger_eq_ok_iff : ofLedger l = .ok s ↔ s.IsOf l := by
  unfold ofLedger
  simp only [bind_eq_ok_iff, foldlM_step_eq_ok_iff (s := ⟨l.defaultCurrency, .zero, .zero, .zero, 0⟩) rfl,
    orError_eq_ok_iff, Except.ok.injEq]
  constructor
  · rintro ⟨summed, added, total, fits, rfl⟩
    have converted : summed.converted = (l.foreign l.accounts.accounts).length := by
      rw [added.converted]
      exact Nat.zero_add _
    refine ⟨?_, added.valued, added.cash, added.equity, fits, converted⟩
    show summed.currency = l.defaultCurrency
    rw [added.others]
  · intro isOf
    refine ⟨{ s with total := .zero }, ⟨isOf.valued, isOf.cash, isOf.equity, ?_, ?_⟩, s.total, isOf.total, rfl⟩
    · show s.converted = 0 + _
      rw [isOf.converted, Nat.zero_add]
    · rw [← isOf.currency]

/-- **The three ways to fail.** -/
theorem ofLedger_eq_error_iff : (∃ e, ofLedger l = .error e) ↔
    (∃ a ∈ l.accounts.accounts, l.LacksRate a) ∨ (∃ a ∈ l.accounts.accounts, l.ConversionOverflows a) ∨
      l.RunsOver l.accounts.accounts ∨ l.TotalOverflows := by
  constructor
  · rintro ⟨e, failed⟩
    by_contra fine
    simp only [not_or, not_exists, not_and] at fine
    obtain ⟨rated, converts, running, fits⟩ := fine
    unfold RunsOver at running
    rw [not_or] at running
    obtain ⟨cash, cashSum⟩ := Option.ne_none_iff_exists'.1 running.1
    obtain ⟨equity, equitySum⟩ := Option.ne_none_iff_exists'.1 running.2
    obtain ⟨total, sum⟩ : ∃ total, cash.add equity = some total := by
      apply Option.ne_none_iff_exists'.1
      intro tooLarge
      exact fits ⟨cash, cashSum, equity, equitySum, tooLarge⟩
    have isOf : IsOf l ⟨l.defaultCurrency, cash, equity, total, (l.foreign l.accounts.accounts).length⟩ := by
      refine ⟨rfl, ?_, cashSum, equitySum, sum, rfl⟩
      intro a mem
      rw [Option.isSome_iff_ne_none, Ne, value?_eq_none_iff, not_or]
      exact ⟨rated a mem, converts a mem⟩
    rw [ofLedger_eq_ok_iff.2 isOf] at failed
    cases failed
  · intro reasons
    cases summed : ofLedger l with
    | error e => exact ⟨e, rfl⟩
    | ok s =>
      exfalso
      have isOf := ofLedger_eq_ok_iff.1 summed
      have valued : ∀ a ∈ l.accounts.accounts, ¬ (l.LacksRate a ∨ l.ConversionOverflows a) := by
        intro a mem
        rw [← value?_eq_none_iff, ← Ne, ← Option.isSome_iff_ne_none]
        exact isOf.valued a mem
      rcases reasons with ⟨a, mem, lacks⟩ | ⟨a, mem, overflows⟩ | running | ⟨cash, sum, equity, sum', tooLarge⟩
      · exact valued a mem (.inl lacks)
      · exact valued a mem (.inr overflows)
      · unfold RunsOver at running
        rw [isOf.cash, isOf.equity] at running
        simp at running
      · cases isOf.cash.symm.trans sum
        cases isOf.equity.symm.trans sum'
        rw [isOf.total] at tooLarge
        cases tooLarge

/-- **The first account whose rate is missing**, where nothing has overflowed before it. -/
theorem ofLedger_of_lacksRate {before after : List Account} (order : l.accounts.accounts = before ++ a :: after)
    (lacks : l.LacksRate a) (valued : ∀ b ∈ before, ¬ l.LacksRate b ∧ ¬ l.ConversionOverflows b)
    (fits : ¬ l.RunsOver before) :
    ofLedger l
      = .error (.during (.valueAccount a.reference) (.missingRate ⟨a.currency, l.defaultCurrency⟩)) := by
  unfold RunsOver at fits
  rw [not_or] at fits
  obtain ⟨cash, cashSum⟩ := Option.ne_none_iff_exists'.1 fits.1
  obtain ⟨equity, equitySum⟩ := Option.ne_none_iff_exists'.1 fits.2
  have added : Adds l before ⟨l.defaultCurrency, .zero, .zero, .zero, 0⟩
      ⟨l.defaultCurrency, cash, equity, .zero, 0 + (l.foreign before).length⟩ := by
    refine ⟨?_, cashSum, equitySum, rfl, rfl⟩
    intro b mem
    rw [Option.isSome_iff_ne_none, Ne, value?_eq_none_iff, not_or]
    exact valued b mem
  have ran := (foldlM_step_eq_ok_iff rfl).2 added
  have missing : l.convert a.worth l.defaultCurrency = .error (.missingRate ⟨a.currency, l.defaultCurrency⟩) :=
    inDefaultCurrency_of_lacksRate lacks
  unfold ofLedger
  dsimp only
  rw [order, List.foldlM_append, ran]
  show ((a :: after).foldlM (step l) _ >>= _) = _
  rw [List.foldlM_cons]
  unfold step
  rw [missing]
  rfl

/-! ### Another order of accounts -/

/-- The same figures, written with any number of places. -/
structure SameFigures (s s' : BalanceSummary) : Prop where
  currency : s'.currency = s.currency
  cash : s'.cash.units = s.cash.units
  equity : s'.equity.units = s.equity.units
  total : s'.total.units = s.total.units
  converted : s'.converted = s.converted

/-- **The order of accounts does not matter** where no total is rounded and none is too large. -/
theorem sameFigures_of_perm {l' : Ledger} (accounts : l'.accounts.accounts.Perm l.accounts.accounts)
    (others : l' = { l with accounts := l'.accounts }) (exact : l.HasExactTotals) (exact' : l'.HasExactTotals)
    (summed : ofLedger l = .ok s) : ∃ s', ofLedger l' = .ok s' ∧ s.SameFigures s' := by
  have isOf := ofLedger_eq_ok_iff.1 summed
  have values : l'.value? = l.value? := by
    rw [others]
    rfl
  have currency : l'.defaultCurrency = l.defaultCurrency := by rw [others]
  have cashPerm : (l'.cashValues l'.accounts.accounts).Perm (l.cashValues l.accounts.accounts) := by
    unfold cashValues
    rw [values]
    exact (accounts.filter _).filterMap _
  have equityPerm : (l'.equityValues l'.accounts.accounts).Perm (l.equityValues l.accounts.accounts) := by
    unfold equityValues
    rw [values]
    exact (accounts.filter _).filterMap _
  have converted : (l'.foreign l'.accounts.accounts).length = (l.foreign l.accounts.accounts).length := by
    unfold Ledger.foreign
    rw [currency]
    exact (accounts.filter _).length_eq
  obtain ⟨cash, cashSum, cashUnits⟩ := exact'.cash.exists_sum
  obtain ⟨equity, equitySum, equityUnits⟩ := exact'.equity.exists_sum
  obtain ⟨fits, adds⟩ := exact'.total cash cashSum equity equitySum
  obtain ⟨total, sum⟩ := Option.isSome_iff_exists.1 fits
  have isOf' : IsOf l' ⟨l'.defaultCurrency, cash, equity, total, (l'.foreign l'.accounts.accounts).length⟩ := by
    refine ⟨rfl, ?_, cashSum, equitySum, sum, rfl⟩
    intro a mem
    rw [values]
    exact isOf.valued a (accounts.mem_iff.1 mem)
  have sameCash : cash.units = s.cash.units := by
    rw [cashUnits, Decimal.units_of_sum exact.cash.2 isOf.cash, Decimal.unitsOf_perm cashPerm]
  have sameEquity : equity.units = s.equity.units := by
    rw [equityUnits, Decimal.units_of_sum exact.equity.2 isOf.equity, Decimal.unitsOf_perm equityPerm]
  refine ⟨_, ofLedger_eq_ok_iff.2 isOf', ?_, sameCash, sameEquity, ?_, ?_⟩
  · exact currency.trans isOf.currency.symm
  · have total' := ((exact.total s.cash isOf.cash s.equity isOf.equity).2 s.total isOf.total).1
    rw [(adds total sum).1, total', sameCash, sameEquity]
  · exact converted.trans isOf.converted.symm

end BalanceSummary

/-! ### Ledgers -/

/-- A basket of accepted rates knows the worth of a unit wherever it holds a rate, in either direction. -/
theorem Basket.exists_rate {rates : List ExchangeRate} {p : CurrencyPair} (accepted : ∀ r ∈ rates, r.IsAccepted)
    (held : p.source ≠ p.target →
      (empty.setAll rates).get? p ≠ none ∨ (empty.setAll rates).get? p.swap ≠ none) :
    ∃ rate, (empty.setAll rates).rate p = .ok rate := by
  by_cases same : p.source = p.target
  · exact ⟨.one, if_pos same⟩
  cases direct : (empty.setAll rates).get? p with
  | some quote =>
    obtain ⟨perUnit, worth, _⟩ := exists_perUnit_of_get? accepted direct
    refine ⟨perUnit, ?_⟩
    simp only [rate, if_neg same, direct, worth]
  | none =>
    obtain ⟨quote, turned⟩ := Option.ne_none_iff_exists'.1 ((held same).resolve_left (not_not_intro direct))
    obtain ⟨perUnit, worth, positive⟩ := exists_perUnit_of_get? accepted turned
    obtain ⟨inverse, divided, _⟩ := exists_inverse positive
    refine ⟨inverse, ?_⟩
    simp only [rate, if_neg same, direct, turned, worth]
    dsimp only [bind, Except.bind]
    rw [divided]

/-- In the ledger of a journal each rate that is not missing is a decimal. -/
theorem exists_rate_of_parse {lines : List Line} {j : Journal} {o : Options} {l : Ledger} {a : Account}
    (read : Journal.parse lines = .ok j) (computed : (Ledger.compute o j.items).result = .ok l)
    (rated : ¬ l.LacksRate a) : ∃ rate, l.basket.rate ⟨a.currency, l.defaultCurrency⟩ = .ok rate := by
  obtain ⟨rates, written, basket⟩ := exists_setAll_of_compute computed
  rw [basket]
  apply Basket.exists_rate
  · intro r mem
    obtain ⟨set, inItems, mem⟩ := written r mem
    exact isAccepted_of_parse read inItems r mem
  · intro foreign
    rw [← basket, ← not_and_or]
    rintro ⟨direct, inverse⟩
    exact rated ⟨foreign, direct, inverse⟩

/-- What an account of a ledger is worth: its balance, or the market value of its shares. -/
theorem worth_of_compute {o : Options} {items : List Item} {l : Ledger}
    (computed : (Ledger.compute o items).result = .ok l) {a : Account} (mem : a ∈ l.accounts.accounts) :
    (a.reference.kind.isCash = true → a.worth = ⟨a.state.balance, a.currency⟩) ∧
      (a.reference.kind.isCash = false →
        ∃ totals, a.state.totals = some totals ∧ a.worth = ⟨totals.marketValue, a.currency⟩) := by
  unfold Account.worth
  cases kind : a.reference.kind with
  | asset | liability =>
    refine ⟨fun _ => rfl, ?_⟩
    intro other
    cases other
  | equity =>
    refine ⟨?_, ?_⟩
    · intro other
      cases other
    · intro _
      obtain ⟨_, totals, _, has, _⟩ := (isValued_of_compute computed mem).equity kind
      refine ⟨totals, has, ?_⟩
      rw [has]
      rfl

/-- **What all accounts are worth**, in every ledger. There is no summary exactly if a rate is missing for an
account in another currency, or a conversion or a total overflows; in the ledger of a journal a conversion
overflows only where the product does. If nothing has overflowed before the first account whose rate is
missing, in the order of the openings, that rate is what is told. Cash and equity are the sums of the
balances and of the market values in the default currency, and their figures are the same for openings in
another order where no total is rounded. -/
theorem summary_of_compute {o : Options} {items : List Item} {l : Ledger}
    (computed : (Ledger.compute o items).result = .ok l) :
    l.accounts.openings = items.filterMap Item.opening? ∧
    (∀ a ∈ l.accounts.accounts,
      (a.reference.kind.isCash = true → a.worth = ⟨a.state.balance, a.currency⟩) ∧
        (a.reference.kind.isCash = false →
          ∃ totals, a.state.totals = some totals ∧ a.worth = ⟨totals.marketValue, a.currency⟩)) ∧
    ((∃ e, BalanceSummary.ofLedger l = .error e) ↔
      (∃ a ∈ l.accounts.accounts, l.LacksRate a) ∨ (∃ a ∈ l.accounts.accounts, l.ConversionOverflows a) ∨
        l.RunsOver l.accounts.accounts ∨ l.TotalOverflows) ∧
    (∀ lines j, Journal.parse lines = .ok j → j.items = items → ∀ a, ¬ l.LacksRate a →
      ∃ rate, l.basket.rate ⟨a.currency, l.defaultCurrency⟩ = .ok rate) ∧
    (∀ before a after, l.accounts.accounts = before ++ a :: after → l.LacksRate a →
      (∀ b ∈ before, ¬ l.LacksRate b ∧ ¬ l.ConversionOverflows b) → ¬ l.RunsOver before →
      BalanceSummary.ofLedger l
        = .error (.during (.valueAccount a.reference) (.missingRate ⟨a.currency, l.defaultCurrency⟩))) ∧
    (∀ s, BalanceSummary.ofLedger l = .ok s → s.IsOf l) ∧
    (∀ items' l' s, Reopened items items' → (Ledger.compute o items').result = .ok l' →
      l.HasExactTotals → l'.HasExactTotals → BalanceSummary.ofLedger l = .ok s →
      ∃ s', BalanceSummary.ofLedger l' = .ok s' ∧ s.SameFigures s') := by
  refine ⟨openings_of_compute computed, ?_, BalanceSummary.ofLedger_eq_error_iff, ?_, ?_, ?_, ?_⟩
  · intro a mem
    exact worth_of_compute computed mem
  · intro lines j read same a rated
    rw [← same] at computed
    exact exists_rate_of_parse read computed rated
  · intro before a after order lacks valued fits
    exact BalanceSummary.ofLedger_of_lacksRate order lacks valued fits
  · intro s summed
    exact BalanceSummary.ofLedger_eq_ok_iff.1 summed
  · intro items' l' s reopened computed' exact exact' summed
    obtain ⟨accounts, others⟩ := reopened_of_compute reopened computed computed'
    exact BalanceSummary.sameFigures_of_perm accounts others exact exact' summed

/-! ### A journey -/

def journeyPurse : AccountRef := ⟨.asset, "purse"⟩

def openedWith (account : AccountRef) (balance : Money) (line : Nat) : Item :=
  .opening ⟨day2021 1 1, account, balance, .empty, houseLine line⟩

/-- What the household has abroad: a purse that is empty and closed, and a jar. -/
def abroadItems : List Item :=
  [openedWith journeyPurse (.zero .pln) 4, .closing ⟨day2021 1 1, journeyPurse, houseLine 7⟩,
    openedWith ⟨.asset, "jar"⟩ ⟨(usd 20).amount, .pln⟩ 8]

/-- The shares that the household has at home. -/
def homeDeal : Item := houseDeal 4 houseBank houseBroker (usd 1000) ⟨"ACME", (usd 10).amount⟩

/-- A household with money in two currencies, and with a rate between them or without one. -/
def journeyItems (rates : List ExchangeRate) : List Item :=
  [openedWith houseBank (usd 5000) 1] ++ abroadItems ++ [openedWith houseBroker (usd 0) 11, homeDeal,
    .rates ⟨day2021 1 5, rates, houseLine 12⟩]

/-- The same, with the accounts opened in another order. -/
def reopenedItems (rates : List ExchangeRate) : List Item :=
  [openedWith houseBroker (usd 0) 11] ++ abroadItems ++ [openedWith houseBank (usd 5000) 1, homeDeal,
    .rates ⟨day2021 1 5, rates, houseLine 12⟩]

/-- Four units of the other currency for one. -/
def journeyRate : ExchangeRate := ⟨⟨.usd, .pln⟩, (usd 4).amount, .one⟩

theorem reopened_journeyItems : Reopened (journeyItems [journeyRate]) (reopenedItems [journeyRate]) := by
  constructor
  · decide
  · rfl

/-- Without a rate it is the first account abroad that is told of. With a rate there is a summary, and another
order of the openings makes no difference to it. -/
theorem summary_of_journeyItems :
    ∃ l rated s reordered s', (Ledger.compute houseOptions (journeyItems [])).result = .ok l ∧
      BalanceSummary.ofLedger l = .error (.during (.valueAccount journeyPurse) (.missingRate ⟨.pln, .usd⟩)) ∧
      (Ledger.compute houseOptions (journeyItems [journeyRate])).result = .ok rated ∧
      BalanceSummary.ofLedger rated = .ok s ∧ s.IsOf rated ∧ s.cash.units = (usd 4005).amount.units ∧
      s.equity.units = (usd 1000).amount.units ∧ s.total.units = (usd 5005).amount.units ∧ s.converted = 2 ∧
      (Ledger.compute houseOptions (reopenedItems [journeyRate])).result = .ok reordered ∧
      BalanceSummary.ofLedger reordered = .ok s' ∧ s.SameFigures s' := by
  have computed : ∃ l ∈ (Ledger.compute houseOptions (journeyItems [])).result.toOption,
      l.defaultCurrency = .usd ∧
      (∃ a ∈ (l.accounts.accounts.drop 1).head?, a.reference = journeyPurse ∧ a.currency = .pln ∧ l.LacksRate a) ∧
      (∀ b ∈ l.accounts.accounts.take 1, l.value? b ≠ none) ∧
      Decimal.sum (l.cashValues (l.accounts.accounts.take 1)) ≠ none ∧
      Decimal.sum (l.equityValues (l.accounts.accounts.take 1)) ≠ none := by
    simp only [Ledger.compute, replay, @chronological_eq_self (journeyItems []) (by decide)]
    decide +kernel
  have computedRated : ∃ l ∈ (Ledger.compute houseOptions (journeyItems [journeyRate])).result.toOption,
      l.HasExactTotals ∧ ∃ s ∈ (BalanceSummary.ofLedger l).toOption, s.cash.units = (usd 4005).amount.units ∧
        s.equity.units = (usd 1000).amount.units ∧ s.total.units = (usd 5005).amount.units ∧ s.converted = 2 := by
    simp only [Ledger.compute, replay, @chronological_eq_self (journeyItems [journeyRate]) (by decide)]
    decide +kernel
  have computedReordered : ∃ l ∈ (Ledger.compute houseOptions (reopenedItems [journeyRate])).result.toOption,
      l.HasExactTotals := by
    simp only [Ledger.compute, replay, @chronological_eq_self (reopenedItems [journeyRate]) (by decide)]
    decide +kernel
  obtain ⟨l, computed, currency, ⟨a, second, named, foreign, lacks⟩, valued, cashFits, equityFits⟩ := computed
  obtain ⟨rated, computedRated, exact, s, summed, cash, equity, total, converted⟩ := computedRated
  obtain ⟨reordered, computedReordered, exact'⟩ := computedReordered
  have computed := toOption_eq_some_iff.1 computed
  have computedRated := toOption_eq_some_iff.1 computedRated
  have computedReordered := toOption_eq_some_iff.1 computedReordered
  have summed := toOption_eq_some_iff.1 summed
  obtain ⟨_, _, _, _, first, _, _⟩ := summary_of_compute computed
  obtain ⟨_, _, _, _, _, isOf, order⟩ := summary_of_compute computedRated
  obtain ⟨after, rest⟩ := List.head?_eq_some_iff.1 second
  have failed := first (l.accounts.accounts.take 1) a after (by rw [← rest, List.take_append_drop]) lacks
    (fun b mem => not_or.1 (Ledger.value?_eq_none_iff.not.1 (valued b mem))) (not_or.2 ⟨cashFits, equityFits⟩)
  rw [named, foreign, currency] at failed
  obtain ⟨s', summed', same⟩ := order _ reordered s reopened_journeyItems computedReordered exact exact' summed
  exact ⟨l, rated, s, reordered, s', computed, failed, computedRated, summed, isOf s summed, cash, equity, total,
    converted, computedReordered, summed', same⟩

end Daybook
