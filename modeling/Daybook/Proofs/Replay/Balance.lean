import Daybook.Proofs.Account.Revaluation
import Daybook.Proofs.Replay.Frame
import Daybook.Proofs.Replay.Step

/-!
# The balance of one account

The replay works on all accounts at once, and mixes checks, dividends, shares and assertions. Still the
balance of an account in the end is what the account's own history makes of the balance that it was
opened with (`balance_eq_of_history`), and items that say nothing of an account do not matter to it.
-/

namespace Daybook

/-- What items say of the balance of one account: what it is opened with, if it is opened, and all that
happens to it after that. -/
structure AccountHistory where
  opening : Option Decimal
  effects : List BalanceEffect
  deriving DecidableEq

namespace AccountHistory

/-- What items say of an account up to a time, in the order in which they count. -/
def ofItems (now : Timestamp) (a : AccountRef) (items : List Item) : AccountHistory where
  opening := ((items.filterMap Item.opening?).find? fun o => decide (o.account = a)).map (·.balance.amount)
  effects := balanceHistory now a (chronological items)

/-- The balance that a history ends with. -/
def balance? (h : AccountHistory) : Option Decimal :=
  h.opening.bind fun v => h.effects.foldlM BalanceEffect.apply v

end AccountHistory

/-! ### Replaying one account -/

section

variable {items : List Item} {registry : Registry} {books : Books} {o : Options}

theorem balanceOf?_of_ofItems (h : Registry.ofItems items = .ok registry) (rates : Basket)
    (now : Timestamp) (a : AccountRef) :
    (Books.mk registry rates).balanceOf? a = (AccountHistory.ofItems now a items).opening := by
  rw [AccountHistory.ofItems, ← Registry.openings_of_ofItems h, ← Registry.map_opening_get?,
    Books.balanceOf?, Books.state?, Option.map_map, Option.map_map]
  cases found : registry.get? a with
  | none => rfl
  | some account =>
    have fresh := Registry.isFresh_of_ofItems h account (Registry.mem_of_get? found)
    rw [Account.IsFresh] at fresh
    simp only [Option.map_some, Function.comp_apply]
    rw [fresh]
    rfl

theorem balanceOf?_of_replay (opened : Registry.ofItems items = .ok registry)
    (regular : ∀ t, .transaction t ∈ items → t.Regular)
    (played : (foldTelling (Books.apply o) ⟨registry, .empty⟩ (chronological items)).result = .ok books)
    (a : AccountRef) : books.balanceOf? a = (AccountHistory.ofItems o.now a items).balance? := by
  obtain ⟨currency, kept⟩ := registry.exists_currency a
  have evolves := Books.evolves_of_foldTelling (a := a)
    (fun t mem => regular t (mem_chronological.1 mem)) played kept
  rw [evolves.balance, AccountHistory.balance?, ← balanceOf?_of_ofItems opened books.basket o.now a]
  rfl

end

/-- The accounts of a ledger are the openings among its items, in their order. -/
theorem openings_of_compute {items : List Item} {o : Options} {l : Ledger}
    (computed : (Ledger.compute o items).result = .ok l) : l.accounts.openings = items.filterMap Item.opening? := by
  obtain ⟨registry, books, opened, played, revalued, _, _⟩ := Ledger.exists_of_compute computed
  calc l.accounts.openings
      = books.accounts.openings := Registry.openings_of_revalue revalued
    _ = registry.openings := (Books.sameFrame_of_foldTelling played).openings
    _ = items.filterMap Item.opening? := Registry.openings_of_ofItems opened

/-- The balances of a ledger are what the histories of its accounts end with. -/
theorem map_balance_get? {lines : List Line} {j : Journal} {o : Options} {l : Ledger}
    (read : Journal.parse lines = .ok j) (computed : (Ledger.compute o j.items).result = .ok l)
    (a : AccountRef) :
    (l.accounts.get? a).map (·.state.balance) = (AccountHistory.ofItems o.now a j.items).balance? := by
  obtain ⟨registry, books, opened, played, revalued, _, _⟩ := Ledger.exists_of_compute computed
  rw [← balanceOf?_of_replay opened (fun t mem => regular_of_parse read mem) played a,
    Books.balanceOf?, Books.state?, Option.map_map]
  -- Figures are worked out last, and change no balance.
  cases found : l.accounts.get? a with
  | none =>
    rw [Registry.get?_eq_none_of_openings (Registry.openings_of_revalue revalued) found]
    rfl
  | some account =>
    obtain ⟨before, known, _, balance, _⟩ := Registry.get?_of_revalue revalued found
    simp [known, balance]

/-- **The balance of an account is what its own history makes of it**, and so it is the same wherever that
history is the same, whatever happens to other accounts. -/
theorem balance_eq_of_history {lines : List Line} {j : Journal} {o : Options} {l : Ledger}
    (read : Journal.parse lines = .ok j) (computed : (Ledger.compute o j.items).result = .ok l)
    {opening : Opening} (opened : .opening opening ∈ j.items) :
    ∃ account, l.accounts.get? opening.account = some account ∧
      (AccountHistory.ofItems o.now opening.account j.items).balance? = some account.state.balance ∧
      ∀ lines' j' o' l', Journal.parse lines' = .ok j' → (Ledger.compute o' j'.items).result = .ok l' →
        AccountHistory.ofItems o'.now opening.account j'.items
          = AccountHistory.ofItems o.now opening.account j.items →
        (l'.accounts.get? opening.account).map (·.state.balance) = some account.state.balance := by
  have mem : opening ∈ l.accounts.openings := by
    rw [openings_of_compute computed]
    exact Item.mem_filterMap_opening?.2 opened
  obtain ⟨account, found, _⟩ := Registry.exists_get?_of_mem_openings mem
  have balance := map_balance_get? read computed opening.account
  rw [found, Option.map_some] at balance
  refine ⟨account, found, balance.symm, fun lines' j' o' l' read' computed' same => ?_⟩
  rw [map_balance_get? read' computed', same, ← balance]

/-! ### A household -/

def day2021 (month day : Nat) : Timestamp := .midnight ((Date.ofParts? 2021 month day).getD .epoch)

def usd (n : Nat) : Money := ⟨(Decimal.fit? false n 0).getD .zero, .usd⟩

def houseLine (n : Nat) : Location := ⟨⟨"house", n⟩, []⟩

/-- The ledger of a household: a salary, a transfer that costs a fee, a purchase of shares that costs a
fee, and a dividend. -/
def houseBook : List Line :=
  ["open account 2021-01-01 asset bank", "balance: 5000 USD", "end",
    "open account 2021-01-01 asset purse", "balance: 0 USD", "end",
    "open account 2021-01-01 equity broker", "balance: 0 USD", "end",
    "rx 2021-01-02", "employer", "asset/bank 3000 USD", "end",
    "tx 2021-01-03", "asset/bank -205 USD", "asset/purse 200 USD",
    "with", "fee: 5 USD", "intermediary: teller", "end",
    "tx 2021-01-04", "asset/bank -1010 USD", "equity/broker 1000 USD",
    "with", "shares: ACME 10", "fee: 10 USD", "intermediary: exchange", "end",
    "dividend 2021-03-15", "equity/broker ACME", "asset/bank 50 USD", "end"].zipIdx.map fun (text, i) =>
      ⟨text, houseLine (i + 1)⟩

def houseBank : AccountRef := ⟨.asset, "bank"⟩

def houseBroker : AccountRef := ⟨.equity, "broker"⟩

/-- The shares that the household buys. -/
def housePurchase : Transaction where
  kind := .equity
  timestamp := day2021 1 4
  ins := [.onAccount houseBank (usd 1010).neg (houseLine 22)]
  outs := [.onAccount houseBroker (usd 1000) (houseLine 23)]
  tags := [.shares ⟨"ACME", (usd 10).amount⟩, .fee (usd 10), .intermediary "exchange"]
  origin := .ledger
  location := houseLine 21

/-- The dividend of the household, as a payment and as revenue. -/
def houseDividend (kind : TransactionKind) (origin : Origin) : Item :=
  .transaction
    { kind, origin
      timestamp := day2021 3 15
      ins := [.onAccount houseBroker (usd 50).neg (houseLine 30)]
      outs := [.onAccount houseBank (usd 50) (houseLine 31)]
      tags := []
      location := houseLine 29 }

/-- What the ledger of the household is read as. -/
def houseItems : List Item :=
  [.opening ⟨day2021 1 1, houseBank, usd 5000, .empty, houseLine 1⟩,
    .opening ⟨day2021 1 1, ⟨.asset, "purse"⟩, usd 0, .empty, houseLine 4⟩,
    .opening ⟨day2021 1 1, houseBroker, usd 0, .empty, houseLine 7⟩,
    .transaction
      { kind := .revenue
        timestamp := day2021 1 2
        ins := [.outside "employer" (houseLine 11)]
        outs := [.onAccount houseBank (usd 3000) (houseLine 12)]
        tags := []
        origin := .ledger
        location := houseLine 10 },
    .transaction
      { kind := .transfer
        timestamp := day2021 1 3
        ins := [.onAccount houseBank (usd 200).neg (houseLine 15)]
        outs := [.onAccount ⟨.asset, "purse"⟩ (usd 200) (houseLine 16)]
        tags := [.fee (usd 5), .intermediary "teller"]
        origin := .ledger
        location := houseLine 14 },
    .transaction
      { kind := .expense
        timestamp := day2021 1 3
        ins := [.onAccount houseBank (usd 5).neg (houseLine 15)]
        outs := [.outside "teller" (houseLine 14)]
        tags := [.labels []]
        origin := .transferFee
        location := houseLine 14 },
    .transaction housePurchase,
    houseDividend (.dividend "ACME") .ledger,
    houseDividend .revenue .dividendRevenue]

/-- What the ledger of the household is computed with. -/
def houseOptions : Options := { now := day2021 4 1, defaultCurrency := some .usd }

theorem exists_journal_of_houseBook : ∃ j, Journal.parse houseBook = .ok j ∧ j.items = houseItems := by
  have read : (Journal.parse houseBook).toOption.map Journal.items = some houseItems := by decide +kernel
  obtain ⟨j, read, items⟩ := Option.map_eq_some_iff.1 read
  exact ⟨j, toOption_eq_some_iff.1 read, items⟩

theorem chronological_houseItems : chronological houseItems = houseItems :=
  chronological_eq_self (by decide)

theorem exists_ledger_of_houseItems :
    ∃ l, (Ledger.compute houseOptions houseItems).result = .ok l := by
  have computed : (Ledger.compute houseOptions houseItems).result.toOption.isSome := by
    simp only [Ledger.compute, replay, chronological_houseItems]
    decide +kernel
  obtain ⟨l, computed⟩ := Option.isSome_iff_exists.1 computed
  exact ⟨l, toOption_eq_some_iff.1 computed⟩

/-- The bank account of the household goes down by the cost of the shares and both fees, and up by the
salary and the dividend. -/
theorem balance_of_houseBank :
    ∃ j l account, Journal.parse houseBook = .ok j ∧
      (Ledger.compute houseOptions j.items).result = .ok l ∧
      l.accounts.get? houseBank = some account ∧ account.state.balance = .ofNat 6835 := by
  obtain ⟨j, read, items⟩ := exists_journal_of_houseBook
  obtain ⟨l, computed⟩ := exists_ledger_of_houseItems
  rw [← items] at computed
  have opened : .opening ⟨day2021 1 1, houseBank, usd 5000, .empty, houseLine 1⟩ ∈ j.items := by
    rw [items]
    decide
  obtain ⟨account, found, balance, _⟩ := balance_eq_of_history read computed opened
  refine ⟨j, l, account, read, computed, found, ?_⟩
  have replayed : (AccountHistory.ofItems houseOptions.now houseBank houseItems).balance?
      = some (.ofNat 6835) := by
    simp only [AccountHistory.ofItems, chronological_houseItems]
    decide +kernel
  rw [items, replayed] at balance
  exact (Option.some.inj balance).symm

end Daybook
