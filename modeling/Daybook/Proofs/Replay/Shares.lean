import Daybook.Proofs.Account.Figures
import Daybook.Proofs.Journal.Replayable
import Daybook.Proofs.Replay.Position
import Daybook.Proofs.Replay.Total

/-!
# All shares of a company together

Every leg of a position comes from a trade, and every trade leaves its legs on equity accounts that are
opened: one leg on the holder and, where shares go from one equity account to another, the same shares the
other way on the account they leave. So whatever is summed over the legs of all positions is a sum over
trades (`sum_legs_of_compute`). For shares and for costs such a move comes to nothing but its fee
(`shares_conserved`).
-/

namespace Daybook

/-! ### The legs of a trade -/

namespace Trade

/-- Only one end of the trade is an equity account: the shares come from outside of these, or go there. -/
def isOneSided (x : Trade) : Bool := decide (x.source.kind = .equity) != decide (x.target.kind = .equity)

/-- What the shares have cost without the fee: the amount on the holder, with the sign of the count. -/
def cost (x : Trade) : Int := x.shares.count.units.sign * x.value.units

/-- The leg on the holder. -/
def holderLeg (x : Trade) : ShareLeg := ⟨x.value, x.shares.count, x.fee, x.time⟩

/-- The leg on an equity account that shares leave for another. -/
def moverLeg (x : Trade) : ShareLeg := ⟨x.value, x.shares.count.neg, .zero, x.time⟩

/-- All legs of a trade. -/
def legs (x : Trade) : List ShareLeg := x.holderLeg :: (x.mover?.map fun _ => x.moverLeg).toList

/-- A trade of some shares, whose legs are on some of these accounts. -/
structure IsPlaced (accounts : List AccountRef) (x : Trade) : Prop where
  holder : x.holder ∈ accounts
  mover : ∀ a, x.mover? = some a → a ∈ accounts
  equity : x.holder.kind = .equity
  count : x.shares.count.units ≠ 0

variable {x : Trade} {accounts : List AccountRef}

theorem isOneSided_iff (equity : x.holder.kind = .equity) : x.isOneSided = true ↔ x.mover? = none := by
  rw [holder] at equity
  rw [isOneSided, mover?]
  by_cases target : x.target.kind = .equity
  · by_cases source : x.source.kind = .equity <;> simp [target, source]
  · rw [if_neg target] at equity
    simp [target, equity]

/-- One place of a list without repetitions. -/
theorem sum_map_ite_eq (nodup : accounts.Nodup) {b : AccountRef} (mem : b ∈ accounts) (n : Int) :
    (accounts.map fun a => if b = a then n else 0).sum = n := by
  rw [List.sum_map_eq_nsmul_single b _ fun a other _ => if_neg fun same => other same.symm,
    List.count_eq_one_of_mem nodup mem, one_nsmul, if_pos rfl]

/-- Each leg of a trade is on one of the accounts. -/
theorem sum_legsOn (nodup : accounts.Nodup) (placed : x.IsPlaced accounts) (f : ShareLeg → Int) :
    (accounts.map fun a => ((x.legsOn a).map f).sum).sum = (x.legs.map f).sum := by
  have here (a : AccountRef) : ((x.legsOn a).map f).sum
      = (if x.holder = a then f x.holderLeg else 0) + if x.mover? = some a then f x.moverLeg else 0 := by
    rw [legsOn, List.map_append, List.sum_append]
    by_cases holder : x.holder = a <;> by_cases mover : x.mover? = some a <;>
      simp [holder, mover, holderLeg, moverLeg]
  simp only [here, List.sum_map_add]
  rw [sum_map_ite_eq nodup placed.holder, legs, List.map_cons, List.sum_cons]
  congr 1
  cases mover : x.mover? with
  | none => simp
  | some b =>
    simp only [Option.some.injEq]
    rw [sum_map_ite_eq nodup (placed.mover b mover)]
    simp

/-- Each leg of some trades is on one of the accounts. -/
theorem sum_legsOn_of_trades {trades : List Trade} (nodup : accounts.Nodup)
    (placed : ∀ x ∈ trades, x.IsPlaced accounts) (f : ShareLeg → Int) :
    (accounts.map fun a => ((trades.flatMap (legsOn a)).map f).sum).sum
      = (trades.map fun x => (x.legs.map f).sum).sum := by
  induction trades with
  | nil => simp
  | cons x rest ih =>
    simp only [List.flatMap_cons, List.map_append, List.sum_append, List.sum_map_add]
    rw [sum_legsOn nodup (placed x List.mem_cons_self), ih fun x mem => placed x (List.mem_cons_of_mem _ mem),
      List.map_cons, List.sum_cons]

/-! ### What the legs of a trade come to -/

/-- Shares that move from one equity account to another are neither more nor fewer. -/
theorem IsPlaced.sum_shares (placed : x.IsPlaced accounts) :
    (x.legs.map (·.shares.units)).sum = if x.isOneSided then x.shares.count.units else 0 := by
  rw [legs]
  cases mover : x.mover? with
  | none =>
    rw [if_pos ((isOneSided_iff placed.equity).2 mover)]
    simp [holderLeg]
  | some a =>
    rw [if_neg (by rw [isOneSided_iff placed.equity, mover]; exact Option.some_ne_none a)]
    simp [holderLeg, moverLeg]

end Trade

theorem ShareLeg.units_signedValue {leg : ShareLeg} (some_shares : leg.shares.units ≠ 0) :
    leg.signedValue.units = leg.shares.units.sign * leg.value.units := by
  rw [signedValue]
  rcases Int.lt_or_gt_of_ne some_shares with out | into
  · have negative : leg.shares < .zero := out
    rw [if_pos negative, Decimal.units_neg, Int.sign_eq_neg_one_of_neg out, Int.neg_one_mul]
  · have positive : ¬ leg.shares < .zero := Int.not_lt.2 (Int.le_of_lt into)
    rw [if_neg positive, Int.sign_eq_one_of_pos into, Int.one_mul]

theorem ShareLeg.unitsOf_costs {leg : ShareLeg} (some_shares : leg.shares.units ≠ 0) :
    Decimal.unitsOf leg.costs = leg.shares.units.sign * leg.value.units + leg.fee.units := by
  rw [costs, Decimal.unitsOf_cons, Decimal.unitsOf_cons, Decimal.unitsOf_nil, units_signedValue some_shares,
    Int.add_zero]

namespace Trade

variable {x : Trade} {accounts : List AccountRef}

/-- What shares cost when they move from one equity account to another is their fee. -/
theorem IsPlaced.sum_costs (placed : x.IsPlaced accounts) :
    (x.legs.map fun leg => Decimal.unitsOf leg.costs).sum
      = (if x.isOneSided then x.cost else 0) + x.fee.units := by
  have holder : Decimal.unitsOf x.holderLeg.costs = x.cost + x.fee.units :=
    ShareLeg.unitsOf_costs placed.count
  rw [legs, List.map_cons, List.sum_cons, holder]
  cases mover : x.mover? with
  | none =>
    rw [if_pos ((isOneSided_iff placed.equity).2 mover)]
    simp
  | some a =>
    have back : Decimal.unitsOf x.moverLeg.costs = -x.cost := by
      have count : x.moverLeg.shares.units = -x.shares.count.units := Decimal.units_neg _
      have noFee : x.moverLeg.fee.units = 0 := Decimal.units_zero
      rw [ShareLeg.unitsOf_costs (by rw [count]; exact Int.neg_ne_zero.2 placed.count), count, noFee,
        Int.sign_neg, Int.neg_mul, Int.add_zero]
      rfl
    rw [if_neg (by rw [isOneSided_iff placed.equity, mover]; exact Option.some_ne_none a)]
    simp only [Option.map_some, Option.toList_some, List.map_singleton, List.sum_singleton, back]
    omega

end Trade

/-! ### Trades of a ledger -/

section

variable {lines : List Line} {j : Journal} {o : Options} {l : Ledger}

/-- The equity accounts of a ledger. -/
def Ledger.equities (l : Ledger) : List AccountRef := (l.accounts.ofKind .equity).map Account.reference

/-- What all equity accounts of a ledger hold of a company. -/
def Ledger.positionsIn (l : Ledger) (company : String) : List Position :=
  (l.accounts.ofKind .equity).filterMap (·.position? company)

theorem Ledger.nodup_equities (l : Ledger) : l.equities.Nodup :=
  l.accounts.nodup.sublist (List.filter_sublist.map Account.reference)

theorem Ledger.mem_equities {a : AccountRef} (equity : a.kind = .equity)
    (opened : ∃ opening ∈ l.accounts.openings, opening.account = a) : a ∈ l.equities := by
  obtain ⟨opening, inOpenings, rfl⟩ := opened
  obtain ⟨account, mem, rfl⟩ := List.mem_map.1 inOpenings
  exact List.mem_map_of_mem (List.mem_filter.2 ⟨mem, decide_eq_true equity⟩)

/-- A transfer of shares that has been replayed has moved some shares: their price could be worked out. -/
theorem Books.exists_move_of_transaction {b b' : Books} {t : Transaction} {notices : List Notice}
    (regular : t.Regular) (kind : t.kind = .equity) (h : b.transaction t = .ok (b', notices)) :
    ∃ m, ShareMove.ofTransaction t = .ok m ∧ m.shares.count.units ≠ 0 := by
  have direct : t.origin ≠ .dividendRevenue := fun mirror => by
    rw [regular.mirror mirror] at kind
    cases kind
  rw [Books.transaction, if_neg direct] at h
  simp only [kind, bind_eq_ok_iff, orError_eq_ok_iff, Books.equity] at h
  obtain ⟨_, _, m, move, price, priced, _⟩ := h
  refine ⟨m, move, fun none => ?_⟩
  rw [ShareMove.price?, Decimal.div, if_pos (Decimal.isZero_iff.2 none)] at priced
  cases priced

/-- Both ends of a trade that counts are on accounts of the ledger. -/
theorem opened_of_compute (read : Journal.parse lines = .ok j)
    (computed : (Ledger.compute o j.items).result = .ok l) {t : Transaction} (mem : .transaction t ∈ j.items)
    (counts : t.effectiveDate ≤ o.now) (kind : t.kind = .equity) {m : Books.ShareMove}
    (move : Books.ShareMove.ofTransaction t = .ok m) :
    (∃ opening ∈ l.accounts.openings, opening.account = m.source) ∧
      ∃ opening ∈ l.accounts.openings, opening.account = m.target := by
  obtain ⟨_, gives, takes⟩ := Books.trade?_of_ofTransaction kind move
  obtain ⟨sourceLeg, targetLeg, ins, outs⟩ := (regular_of_parse read mem).equity kind
  rw [ins] at gives
  rw [outs] at takes
  have isOn := isOn_of_compute read computed mem counts
  rw [← openings_of_compute computed, Transaction.countedLegs, kind] at isOn
  constructor
  · obtain ⟨opening, opened, same, _⟩ := isOn sourceLeg (by simp [Transaction.legs, ins]) _ _ gives
    exact ⟨opening, opened, same⟩
  · obtain ⟨opening, opened, same, _⟩ := isOn targetLeg (by simp [Transaction.legs, outs]) _ _ takes
    exact ⟨opening, opened, same⟩

/-- The legs of a trade that counts are on equity accounts of the ledger. -/
theorem placed_of_compute (read : Journal.parse lines = .ok j)
    (computed : (Ledger.compute o j.items).result = .ok l) {company : String} {x : Trade}
    (traded : x ∈ tradesIn o.now company j.items) : x.IsPlaced l.equities := by
  obtain ⟨t, mem, counts, trade, _⟩ := mem_tradesIn.1 traded
  have kind : t.kind = .equity := by
    by_contra other
    rw [Transaction.trade?_eq_none other] at trade
    cases trade
  -- The trade is the move that the replay has made.
  obtain ⟨registry, books, _, played, _, _, _⟩ := Ledger.exists_of_compute computed
  obtain ⟨_, _, _, _, applied⟩ := Books.exists_transaction_of_foldTelling
    (fun t mem => regular_of_parse read (mem_chronological.1 mem)) played (mem_chronological.2 mem) counts
  obtain ⟨m, move, count⟩ := Books.exists_move_of_transaction (regular_of_parse read mem) kind applied
  obtain ⟨same, _, _⟩ := Books.trade?_of_ofTransaction kind move
  obtain rfl := Option.some.inj (trade.symm.trans same)
  obtain ⟨m', move', equity⟩ := (replayable_of_parse read mem).equity kind
  obtain rfl := Except.ok.inj (move.symm.trans move')
  obtain ⟨source, target⟩ := opened_of_compute read computed mem counts kind move
  have holder : ∃ opening ∈ l.accounts.openings, opening.account = m.holder := by
    rw [Books.ShareMove.holder]
    split
    · exact target
    · exact source
  refine ⟨Ledger.mem_equities equity holder, ?_, equity, count⟩
  intro a mover
  rw [Trade.mover?] at mover
  split at mover
  · next between =>
    obtain rfl := Option.some.inj mover
    exact Ledger.mem_equities between.1 source
  · cases mover

/-! ### Positions of a ledger -/

/-- The legs of what an account holds of a company. -/
def Account.legsIn (company : String) (account : Account) : List ShareLeg :=
  ((account.position? company).map Position.legs).getD []

/-- Legs of positions are legs of accounts; an account without a position has none. -/
theorem sum_legsIn (company : String) (f : ShareLeg → Int) (accounts : List Account) :
    ((accounts.filterMap (·.position? company)).map fun p => (p.legs.map f).sum).sum
      = (accounts.map fun account => ((account.legsIn company).map f).sum).sum := by
  induction accounts with
  | nil => rfl
  | cons account rest ih =>
    rw [filterMap_cons_eq_append, List.map_append, List.sum_append, ih, List.map_cons, List.sum_cons,
      Account.legsIn]
    cases account.position? company <;> simp

/-- The legs of an account are those of the trades on it, and the shares that it holds are the sum over
them. -/
theorem legsIn_of_compute (read : Journal.parse lines = .ok j)
    (computed : (Ledger.compute o j.items).result = .ok l) (company : String) {account : Account}
    (mem : account ∈ l.accounts.accounts) :
    account.legsIn company
        = (tradesIn o.now company (chronological j.items)).flatMap (Trade.legsOn account.reference) ∧
      ∀ p, account.position? company = some p → Decimal.sum (p.legs.map ShareLeg.shares) = some p.held := by
  obtain ⟨final, same, run⟩ := position_of_foldlM read computed (Registry.get?_of_mem mem) company
  have legs := legs_of_shareHistory o .empty account.currency account.reference company (chronological j.items)
  rw [Account.legsIn, ← legs]
  rcases records_of_foldlM run with ⟨rfl, empty⟩ | ⟨q, rfl, records, _⟩
  · have missing : account.position? company = none := Option.map_eq_none_iff.1 same
    rw [missing, empty]
    refine ⟨rfl, ?_⟩
    intro p holds
    cases holds
  · obtain ⟨p, holds, recorded⟩ := Option.map_eq_some_iff.1 same
    have records := records.of_recorded recorded
    rw [holds]
    refine ⟨records.legs, ?_⟩
    intro p' same'
    obtain rfl := Option.some.inj same'
    exact records.held

/-- **The legs of all positions are the legs of all trades**, whatever is summed over them. -/
theorem sum_legs_of_compute (read : Journal.parse lines = .ok j)
    (computed : (Ledger.compute o j.items).result = .ok l) (company : String) (f : ShareLeg → Int) :
    ((l.positionsIn company).map fun p => (p.legs.map f).sum).sum
      = ((tradesIn o.now company j.items).map fun x => (x.legs.map f).sum).sum := by
  -- The replay takes the trades in another order, which makes no difference to a sum.
  have trades : (tradesIn o.now company (chronological j.items)).Perm (tradesIn o.now company j.items) :=
    ((chronological_perm j.items).filter _).filterMap _
  have placed : ∀ x ∈ tradesIn o.now company (chronological j.items), x.IsPlaced l.equities := by
    intro x mem
    exact placed_of_compute read computed (trades.mem_iff.1 mem)
  have each : ∀ account ∈ l.accounts.ofKind .equity, ((account.legsIn company).map f).sum
      = (((tradesIn o.now company (chronological j.items)).flatMap
          (Trade.legsOn account.reference)).map f).sum := by
    intro account mem
    rw [(legsIn_of_compute read computed company (List.mem_filter.1 mem).1).1]
  rw [Ledger.positionsIn, sum_legsIn, List.map_congr_left each, ← (trades.map _).sum_eq,
    ← Trade.sum_legsOn_of_trades l.nodup_equities placed f, Ledger.equities, List.map_map]
  rfl

/-- **Shares are conserved.** With the cumulative cost basis, and as long as no sum of shares, values or
fees is rounded, all equity accounts together hold of a company what its one-sided trades have brought in,
less what they have taken out; moves between equity accounts come to nothing. What these shares have cost
is the cost of the one-sided trades and the fees of all trades, so a move costs its fee. Every transfer of
shares that counts is one of the trades. -/
theorem shares_conserved (read : Journal.parse lines = .ok j)
    (computed : (Ledger.compute o j.items).result = .ok l) (cumulative : o.costBasis = .cumulative)
    (company : String) (exact : ∀ p ∈ l.positionsIn company, p.IsExact) :
    ((l.positionsIn company).map (·.held.units)).sum
        = (((tradesIn o.now company j.items).filter (·.isOneSided)).map (·.shares.count.units)).sum ∧
      ((l.positionsIn company).map (·.costBasis.units)).sum
        = (((tradesIn o.now company j.items).filter (·.isOneSided)).map Trade.cost).sum
          + ((tradesIn o.now company j.items).map (·.fee.units)).sum ∧
      ∀ t, .transaction t ∈ j.items → t.effectiveDate ≤ o.now → t.kind = .equity → t.trade?.isSome := by
  have known : ∀ p ∈ l.positionsIn company,
      p.held.units = (p.legs.map (·.shares.units)).sum ∧
        p.costBasis.units = (p.legs.map fun leg => Decimal.unitsOf leg.costs).sum := by
    intro p mem
    obtain ⟨account, ofKind, holds⟩ := List.mem_filterMap.1 mem
    have inAccounts := (List.mem_filter.1 ofKind).1
    obtain ⟨_, books, _, _, revalued, _, _⟩ := Ledger.exists_of_compute computed
    have worked := Registry.costBasisBy_of_revalue revalued inAccounts holds
    rw [cumulative] at worked
    have held := (legsIn_of_compute read computed company inAccounts).2 p holds
    constructor
    · rw [Decimal.units_of_sum (exact p mem).held held, Decimal.unitsOf, List.map_map]
      rfl
    · rw [Decimal.units_of_sum (exact p mem).basis (Position.sum_of_costBasisBy worked),
        Decimal.unitsOf_flatMap]
  have placed : ∀ x ∈ tradesIn o.now company j.items, x.IsPlaced l.equities := by
    intro x traded
    exact placed_of_compute read computed traded
  refine ⟨?_, ?_, fun t mem counts => (isSome_of_compute read computed mem counts).1⟩
  · rw [List.map_congr_left fun p mem => (known p mem).1, sum_legs_of_compute read computed company,
      List.map_congr_left fun x mem => (placed x mem).sum_shares, List.sum_map_ite]
    simp
  · rw [List.map_congr_left fun p mem => (known p mem).2, sum_legs_of_compute read computed company,
      List.map_congr_left fun x mem => (placed x mem).sum_costs, List.sum_map_add, List.sum_map_ite]
    simp

end

/-! ### Two brokers -/

def brokerA : AccountRef := ⟨.equity, "a"⟩

def brokerB : AccountRef := ⟨.equity, "b"⟩

/-- A ledger in which shares are bought, and half of them move to another broker at a fee. -/
def brokersBook : List Line :=
  ["open account 2021-01-01 asset bank", "balance: 5000 USD", "end",
    "open account 2021-01-01 equity a", "balance: 0 USD", "end",
    "open account 2021-01-01 equity b", "balance: 0 USD", "end",
    "tx 2021-01-04", "asset/bank -1000 USD", "equity/a 1000 USD", "with", "shares: ACME 10", "end",
    "tx 2021-02-01", "equity/a -502 USD", "equity/b 500 USD",
    "with", "shares: ACME 5", "fee: 2 USD", "intermediary: exchange", "end"].zipIdx.map fun (text, i) =>
      ⟨text, houseLine (i + 1)⟩

/-- What the ledger of the two brokers is read as. -/
def brokersItems : List Item :=
  [.opening ⟨day2021 1 1, houseBank, usd 5000, .empty, houseLine 1⟩,
    .opening ⟨day2021 1 1, brokerA, usd 0, .empty, houseLine 4⟩,
    .opening ⟨day2021 1 1, brokerB, usd 0, .empty, houseLine 7⟩,
    .transaction
      { kind := .equity
        timestamp := day2021 1 4
        ins := [.onAccount houseBank (usd 1000).neg (houseLine 11)]
        outs := [.onAccount brokerA (usd 1000) (houseLine 12)]
        tags := [.shares ⟨"ACME", (usd 10).amount⟩]
        origin := .ledger
        location := houseLine 10 },
    .transaction
      { kind := .equity
        timestamp := day2021 2 1
        ins := [.onAccount brokerA (usd 502).neg (houseLine 17)]
        outs := [.onAccount brokerB (usd 500) (houseLine 18)]
        tags := [.shares ⟨"ACME", (usd 5).amount⟩, .fee (usd 2), .intermediary "exchange"]
        origin := .ledger
        location := houseLine 16 }]

theorem exists_journal_of_brokersBook :
    ∃ j, Journal.parse brokersBook = .ok j ∧ j.items = brokersItems := by
  have read : (Journal.parse brokersBook).toOption.map Journal.items = some brokersItems := by decide +kernel
  obtain ⟨j, read, items⟩ := Option.map_eq_some_iff.1 read
  exact ⟨j, toOption_eq_some_iff.1 read, items⟩

theorem chronological_brokersItems : chronological brokersItems = brokersItems :=
  chronological_eq_self (by decide)

theorem exists_ledger_of_brokersItems : ∃ l, (Ledger.compute houseOptions brokersItems).result = .ok l := by
  have computed : (Ledger.compute houseOptions brokersItems).result.toOption.isSome := by
    simp only [Ledger.compute, replay, chronological_brokersItems]
    decide +kernel
  obtain ⟨l, computed⟩ := Option.isSome_iff_exists.1 computed
  exact ⟨l, toOption_eq_some_iff.1 computed⟩

/-- Both brokers together hold the ten shares that were bought, and these have cost what was paid for them
and the fee of the move. -/
theorem shares_of_brokersBook :
    ∃ j l, Journal.parse brokersBook = .ok j ∧ (Ledger.compute houseOptions j.items).result = .ok l ∧
      ((l.positionsIn "ACME").map (·.held.units)).sum = (usd 10).amount.units ∧
      ((l.positionsIn "ACME").map (·.costBasis.units)).sum = (usd 1002).amount.units := by
  obtain ⟨j, read, items⟩ := exists_journal_of_brokersBook
  obtain ⟨l, computed⟩ := exists_ledger_of_brokersItems
  rw [← items] at computed
  have exact : ∀ p ∈ l.positionsIn "ACME", p.IsExact := by
    intro p mem
    obtain ⟨account, ofKind, holds⟩ := List.mem_filterMap.1 mem
    have inAccounts := (List.mem_filter.1 ofKind).1
    have legs := (legsIn_of_compute read computed "ACME" inAccounts).1
    rw [Account.legsIn, holds, items, chronological_brokersItems] at legs
    have known : account.reference ∈ [houseBank, brokerA, brokerB] := by
      have opened : account.opening ∈ l.accounts.openings := List.mem_map_of_mem inAccounts
      rw [openings_of_compute computed, items] at opened
      exact List.mem_map_of_mem (f := Opening.account) opened
    have all : ∀ a ∈ [houseBank, brokerA, brokerB],
        let legs := (tradesIn houseOptions.now "ACME" brokersItems).flatMap (Trade.legsOn a)
        Decimal.AddsExactly .zero (legs.map ShareLeg.shares) ∧
          Decimal.AddsExactly .zero (legs.flatMap ShareLeg.costs) := by
      decide +kernel
    have sums := all account.reference known
    rw [← legs] at sums
    exact ⟨sums.1, sums.2⟩
  obtain ⟨held, basis, _⟩ := shares_conserved read computed rfl "ACME" exact
  rw [items] at held basis
  exact ⟨j, l, read, computed, held.trans (by decide +kernel), basis.trans (by decide +kernel)⟩

end Daybook
