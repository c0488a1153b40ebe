import Daybook.Proofs.Journal.Written

/-!
# What statements are booked as

What follows from the success of each booking: which legs a draft has, which checks it has passed, and
the transactions that come of it. The last section draws from that what holds of every transaction of a
journal that has been read (`regular_of_parse`).
-/

namespace Daybook

open Grammar (Node)

/-! ### Legs -/

namespace Leg

variable {leg : Leg}

/-- A leg has an amount exactly if it is on a tracked account. -/
def Complete (leg : Leg) : Prop := leg.isOwned = leg.money.isSome

theorem complete_onAccount (a : AccountRef) (m : Money) (l : Location) : (onAccount a m l).Complete := rfl

theorem complete_outside (s : String) (l : Location) : (outside s l).Complete := rfl

@[simp]
theorem posting?_onAccount (a : AccountRef) (m : Money) (l : Location) :
    (onAccount a m l).posting? = some (a, m) := rfl

theorem of_posting? {a : AccountRef} {m : Money} (h : leg.posting? = some (a, m)) :
    leg.owner = .owned a ∧ leg.money = some m := by
  rw [posting?] at h
  split at h
  · next owner money => cases h; exact ⟨owner, money⟩
  · cases h

theorem value_of_posting? {a : AccountRef} {m : Money} (h : leg.posting? = some (a, m)) :
    leg.value = m.amount := by
  simp [value, (of_posting? h).2]

theorem currency?_of_posting? {a : AccountRef} {m : Money} (h : leg.posting? = some (a, m)) :
    leg.currency? = some m.currency := by
  simp [currency?, (of_posting? h).2]

theorem Complete.exists_posting? (h : leg.Complete) (owned : leg.isOwned = true) :
    ∃ a m, leg.posting? = some (a, m) := by
  obtain ⟨owner, money, location⟩ := leg
  cases owner with
  | external label => cases owned
  | owned a =>
    cases money with
    | none => cases h
    | some m => exact ⟨a, m, rfl⟩

theorem posting?_of_not_owned (h : leg.isOwned = false) : leg.posting? = none := by
  obtain ⟨owner, money, location⟩ := leg
  cases owner with
  | external label => rfl
  | owned a => cases h

end Leg

/-! ### What is written is complete -/

/-- The legs that a statement says are complete, and what it says as an item is no transaction. -/
def Written.Complete : Written → Prop
  | item i => ∀ t, i ≠ .transaction t
  | expense d | revenue d | transfer d => ∀ leg ∈ d.legs, leg.Complete
  | dividend d => d.cash.Complete

section

variable {lines : Array Line} {patterns : List Pattern} {n : Node}

theorem complete_of_readLeg {leg : Leg} (h : Statement.readLeg lines n = .ok leg) : leg.Complete := by
  rw [Statement.readLeg] at h
  split at h
  · simp only [bind_eq_ok_iff, Except.ok.injEq] at h
    obtain ⟨a, _, m, _, rfl⟩ := h
    exact Leg.complete_onAccount a m _
  · simp only at h
    split at h
    · cases h
    · cases h
      exact Leg.complete_outside _ _
  · cases h

/-- Every value that a list is read as is read from one of its parts. -/
theorem exists_of_mem_mapM {α β ε : Type} {f : α → Except ε β} {xs : List α} {ys : List β}
    (h : xs.mapM f = .ok ys) {y : β} (mem : y ∈ ys) : ∃ x ∈ xs, f x = .ok y := by
  induction xs generalizing ys with
  | nil =>
    cases h
    cases mem
  | cons x rest ih =>
    simp only [List.mapM_cons, bind_eq_ok_iff] at h
    obtain ⟨first, read, later, h, same⟩ := h
    cases same
    rcases List.mem_cons.1 mem with rfl | mem
    · exact ⟨x, List.mem_cons_self, read⟩
    · obtain ⟨x', mem', read'⟩ := ih h mem
      exact ⟨x', List.mem_cons_of_mem _ mem', read'⟩

theorem complete_of_readDraft {keyword : Keyword} {d : Draft}
    (h : Statement.readDraft lines patterns keyword n = .ok d) : ∀ leg ∈ d.legs, leg.Complete := by
  rw [Statement.readDraft] at h
  split at h
  · simp only [bind_eq_ok_iff, Except.ok.injEq] at h
    obtain ⟨_, _, legs, read, _, _, rfl⟩ := h
    intro leg mem
    obtain ⟨part, _, read⟩ := exists_of_mem_mapM read mem
    exact complete_of_readLeg (locating_eq_ok_iff.1 read)
  · cases h

theorem complete_of_readDividendDraft {d : DividendDraft}
    (h : Statement.readDividendDraft lines n = .ok d) : d.cash.Complete := by
  rw [Statement.readDividendDraft] at h
  split at h
  · obtain ⟨_, _, h⟩ := bind_eq_ok_iff.1 h
    split at h
    · simp only [bind_eq_ok_iff, locating_eq_ok_iff, Except.ok.injEq] at h
      obtain ⟨_, _, _, rfl, cash, read, _, _, rfl⟩ := h
      exact complete_of_readLeg read
    · simp at h
  · cases h

theorem complete_of_ofNode? {w : Written} (h : Written.ofNode? lines patterns n = some w) :
    w.Complete := by
  rw [Written.ofNode?] at h
  split at h
  -- Dividends, and what says nothing by itself.
  case h_10 =>
    simp only [Option.bind_eq_bind, Option.bind_eq_some_iff, toOption_eq_some_iff,
      Option.some.injEq] at h
    obtain ⟨d, read, money, _, rfl⟩ := h
    exact (complete_of_readDividendDraft read : d.cash.Complete)
  case h_11 => cases h
  -- Expenses, revenues and transfers.
  case h_7 | h_8 | h_9 =>
    obtain ⟨d, read, rfl⟩ := Option.map_eq_some_iff.1 h
    exact complete_of_readDraft (toOption_eq_some_iff.1 read)
  all_goals
    obtain ⟨value, _, rfl⟩ := Option.map_eq_some_iff.1 h
    intro t same
    cases same

theorem complete_of_mem_ofNodes {nodes : List Node} {w : Written}
    (h : w ∈ Written.ofNodes lines patterns nodes) : w.Complete := by
  induction nodes generalizing patterns with
  | nil => cases h
  | cons n rest ih =>
    rw [Written.ofNodes] at h
    rcases List.mem_append.1 h with h | h
    · exact complete_of_ofNode? (Option.mem_toList.1 h)
    · exact ih h

end

theorem complete_of_mem_written {lines : List Line} {w : Written} (h : w ∈ Journal.written lines) :
    w.Complete := by
  unfold Journal.written at h
  split at h
  · exact complete_of_mem_ofNodes h
  · cases h

/-! ### Expenses and revenues -/

namespace Draft

variable {d : Draft} {b : Booked}

theorem party_ok {what : String} {party : Leg} {owned : List Leg} (h : d.party what = .ok (party, owned)) :
    d.legs.filter (!·.isOwned) = [party] ∧ owned = d.legs.filter Leg.isOwned := by
  simp only [Draft.party] at h
  split at h
  · next outside =>
    split at h
    · cases h
    · cases h
      exact ⟨outside, rfl⟩
  · cases h

/-- An expense takes money from every tracked account, and gives it to one party outside. -/
theorem expense_ok (h : d.expense = .ok b) :
    ∃ payee, d.legs.filter (!·.isOwned) = [payee] ∧
      (∀ leg ∈ d.legs, leg.isOwned → leg.value < .zero) ∧
      b.transactions = [d.toTransaction .expense (d.legs.filter Leg.isOwned) [payee]] := by
  simp only [Draft.expense, bind_eq_ok_iff, Prod.exists] at h
  obtain ⟨payee, owned, sides, h⟩ := h
  obtain ⟨outside, rfl⟩ := party_ok sides
  split at h
  · cases h
  · next negative =>
    cases h
    refine ⟨payee, outside, fun leg mem owned => ?_, rfl⟩
    have := List.find?_eq_none.1 negative leg (List.mem_filter.2 ⟨mem, owned⟩)
    exact Int.not_le.1 fun le => this (decide_eq_true le)

/-- A revenue has its negative legs and the party outside on one side, and all other legs on the
other. -/
theorem revenue_ok (h : d.revenue = .ok b) :
    ∃ payer, d.legs.filter (!·.isOwned) = [payer] ∧
      b.transactions =
        [d.toTransaction .revenue
          ((d.legs.filter Leg.isOwned).filter (fun leg => decide (leg.value < .zero)) ++ [payer])
          ((d.legs.filter Leg.isOwned).filter fun leg => !decide (leg.value < .zero))] := by
  simp only [Draft.revenue, bind_eq_ok_iff, Prod.exists, Except.ok.injEq] at h
  obtain ⟨payer, owned, sides, rfl⟩ := h
  obtain ⟨outside, rfl⟩ := party_ok sides
  exact ⟨payer, outside, rfl⟩

/-! ### Transfers -/

theorem posting_ok {leg : Leg} {p : AccountRef × Money} : d.posting leg = .ok p ↔ leg.posting? = some p :=
  orError_eq_ok_iff

/-- A fee that passes its check is not negative, has somebody who earns it, and is in the currency of the
source. -/
theorem checkFee_ok {currency : Currency} {u : Unit} (h : d.checkFee currency = .ok u) {fee : Money}
    (tagged : d.tags.fee? = some fee) :
    ¬ fee.amount < .zero ∧ d.tags.intermediary?.isSome ∧ fee.currency = currency := by
  simp only [checkFee, tagged] at h
  split at h
  · cases h
  · next positive =>
    split at h
    · cases h
    · next earned =>
      split at h
      · cases h
      · next same => exact ⟨positive, by simpa [Option.isSome_iff_ne_none] using earned,
          Decidable.not_not.1 same⟩

/-- Legs that pass the check sum to zero with the fee, as far as the sum is exact. -/
theorem checkBalanced_ok {currency : Currency} {u : Unit} (h : d.checkBalanced currency = .ok u) :
    ∃ left, Decimal.sum (d.legs.map Leg.value ++ [d.feeAmount]) = some left ∧ left.isZero = true := by
  rw [checkBalanced] at h
  split at h
  · cases h
  · next left sum => exact ⟨left, sum, require_eq_ok_iff.1 h⟩

theorem transfer_ok (h : d.transfer = .ok b) :
    (∀ leg ∈ d.legs, leg.isOwned = true) ∧ 2 ≤ d.legs.length ∧
      ((∃ shares, d.tags.shares? = some shares ∧ d.shareTransfer shares = .ok b) ∨
        d.tags.shares? = none ∧ d.cashTransfer = .ok b) := by
  rw [transfer] at h
  split at h
  · cases h
  · next owned =>
    split at h
    · cases h
    · next long =>
      refine ⟨fun leg mem => by simpa using List.find?_eq_none.1 owned leg mem, by omega, ?_⟩
      split at h
      · next shares tagged => exact .inl ⟨shares, tagged, h⟩
      · next untagged => exact .inr ⟨untagged, h⟩

/-- A transfer of shares is in one currency, has passed the checks of its fee and of its balance, and has
one leg on each side, of which one at least is on an equity account. -/
theorem shareTransfer_ok {shares : ShareCount} (h : d.shareTransfer shares = .ok b) :
    ∃ source target account money, d.sources = [source] ∧ d.targets = [target] ∧
      (isEquity target = false → isEquity source = true) ∧
      isEquity target = decide (.zero < shares.count) ∧ shares.count.isZero = false ∧
      d.currencies.length = 1 ∧ source.posting? = some (account, money) ∧
      d.checkFee money.currency = .ok () ∧ d.checkBalanced money.currency = .ok () ∧
      b.transactions = [d.toTransaction .equity [source] [target]] := by
  simp only [shareTransfer, bind_eq_ok_iff, require_eq_ok_iff, Prod.exists, posting_ok, Except.ok.injEq,
    Bool.not_eq_true', beq_iff_eq] at h
  obtain ⟨_, _, _, single, _, count, source, target, sides, account, money, posted, _, fee, _, balanced,
    rfl⟩ := h
  rw [checkShares] at sides
  split at sides
  · next source' target' sources targets =>
    split at sides
    · cases sides
    · next holder =>
      split at sides
      · cases sides
      · next direction =>
        cases sides
        refine ⟨source, target, account, money, sources, targets, fun notTarget => ?_, ?_, count, single,
          posted, fee, balanced, rfl⟩
        · simpa [notTarget] using holder
        · simpa using direction
  · cases sides

/-- A fee other than zero is taken out of the first source, and booked by itself. -/
theorem splitFee_ok {source : Leg} {sources : List Leg} {account : AccountRef} {money : Money}
    (posted : source.posting? = some (account, money)) (h : d.splitFee source sources = .ok b) :
    (∀ fee, d.tags.fee? = some fee → fee.isZero = true) ∧
        b.transactions = [d.toTransaction .transfer (source :: sources) d.targets] ∨
      ∃ fee rest intermediary, d.tags.fee? = some fee ∧ fee.isZero = false ∧
        money.amount.add fee.amount = some rest ∧
        b.transactions =
          [d.toTransaction .transfer ({ source with money := some ⟨rest, money.currency⟩ } :: sources)
              d.targets,
            d.feeExpense fee intermediary account source.location] := by
  simp only [splitFee, bind_eq_ok_iff, Prod.exists, posting_ok] at h
  obtain ⟨account', money', posted', h⟩ := h
  obtain ⟨rfl, rfl⟩ : account = account' ∧ money = money' := by simpa using posted.symm.trans posted'
  split at h
  · next untagged =>
    cases h
    exact .inl ⟨fun fee tagged => by simp [untagged] at tagged, rfl⟩
  · next fee tagged =>
    split at h
    · next zero =>
      cases h
      refine .inl ⟨fun fee' tagged' => ?_, rfl⟩
      obtain rfl : fee = fee' := by simpa using tagged.symm.trans tagged'
      exact zero
    · next other =>
      simp only [bind_eq_ok_iff, orError_eq_ok_iff, Except.ok.injEq] at h
      obtain ⟨rest, sum, intermediary, _, rfl⟩ := h
      exact .inr ⟨fee, rest, intermediary, tagged, by simpa using other, sum, rfl⟩

/-- A transfer of cash has passed the check of its fee, and the check of its balance or of its rate. A fee
other than zero is taken out of the first source, and booked by itself. -/
theorem cashTransfer_ok (h : d.cashTransfer = .ok b) :
    ∃ source sources account money, d.sources = source :: sources ∧ d.targets ≠ [] ∧
      source.posting? = some (account, money) ∧ d.checkFee money.currency = .ok () ∧
      (d.currencies.length = 1 → d.checkBalanced money.currency = .ok ()) ∧
      ((∀ fee, d.tags.fee? = some fee → fee.isZero = true) ∧
          b.transactions = [d.toTransaction .transfer (source :: sources) d.targets] ∨
        ∃ fee rest intermediary, d.tags.fee? = some fee ∧ fee.isZero = false ∧
          money.amount.add fee.amount = some rest ∧
          b.transactions =
            [d.toTransaction .transfer ({ source with money := some ⟨rest, money.currency⟩ } :: sources)
                d.targets,
              d.feeExpense fee intermediary account source.location]) := by
  rw [cashTransfer] at h
  split at h
  · next source sources _ _ first second =>
    simp only [bind_eq_ok_iff, Prod.exists, posting_ok] at h
    obtain ⟨account, money, posted, _, fee, h⟩ := h
    have targets : d.targets ≠ [] := by simp [second]
    split at h
    · next single =>
      obtain ⟨_, balanced, h⟩ := bind_eq_ok_iff.1 h
      exact ⟨source, sources, account, money, first, targets, posted, fee, fun _ => balanced,
        splitFee_ok posted h⟩
    · next several =>
      obtain ⟨_, _, h⟩ := bind_eq_ok_iff.1 h
      exact ⟨source, sources, account, money, first, targets, posted, fee,
        fun single => absurd single several, splitFee_ok posted h⟩
  · cases h

/-- Cash is transferred by transfers, and by the expense of a fee. -/
theorem kind_of_cashTransfer (h : d.cashTransfer = .ok b) {t : Transaction} (mem : t ∈ b.transactions) :
    t.kind = .transfer ∧ t.origin = .ledger ∨ t.kind = .expense ∧ t.origin = .transferFee := by
  obtain ⟨source, sources, account, money, -, -, -, -, -, split⟩ := cashTransfer_ok h
  rcases split with ⟨-, transactions⟩ | ⟨fee, rest, intermediary, -, -, -, transactions⟩
  · rw [transactions] at mem
    obtain rfl := List.mem_singleton.1 mem
    exact .inl ⟨rfl, rfl⟩
  · rw [transactions] at mem
    rcases List.mem_cons.1 mem with rfl | mem
    · exact .inl ⟨rfl, rfl⟩
    · obtain rfl := List.mem_singleton.1 mem
      exact .inr ⟨rfl, rfl⟩

end Draft

/-! ### Every transaction of a journal -/

/-- The shape that booking gives a transaction: only revenue is ever the mirror of a dividend, and shares
and dividends have one leg on each side. -/
structure Transaction.Regular (t : Transaction) : Prop where
  mirror : t.origin = .dividendRevenue → t.kind = .revenue
  equity : t.kind = .equity → ∃ source target, t.ins = [source] ∧ t.outs = [target]
  dividend : ∀ company, t.kind = .dividend company → ∃ source cash, t.ins = [source] ∧ t.outs = [cash]

/-- A transaction is the revenue that a dividend among some items is: it pays the same at the same time. -/
def Transaction.Mirrors (t : Transaction) (items : List Item) : Prop :=
  ∃ paid company, .transaction paid ∈ items ∧ paid.kind = .dividend company ∧ paid.outs = t.outs ∧
    paid.effectiveDate = t.effectiveDate

theorem mem_of_mem_map_transaction {ts : List Transaction} {t : Transaction}
    (h : .transaction t ∈ ts.map Item.transaction) : t ∈ ts := by
  obtain ⟨t', mem, same⟩ := List.mem_map.1 h
  cases same
  exact mem

theorem Transaction.regular_of_cash {t : Transaction} {items : List Item}
    (origin : t.origin = .ledger ∨ t.origin = .transferFee)
    (cash : t.kind = .expense ∨ t.kind = .revenue ∨ t.kind = .transfer) :
    t.Regular ∧ (t.origin = .dividendRevenue → t.Mirrors items) := by
  have direct : t.origin ≠ .dividendRevenue := by
    rcases origin with origin | origin <;> rw [origin] <;> decide
  refine ⟨⟨fun mirror => absurd mirror direct, ?_, ?_⟩, fun mirror => absurd mirror direct⟩
  · intro equity
    rw [equity] at cash
    rcases cash with kind | kind | kind <;> cases kind
  · intro company dividend
    rw [dividend] at cash
    rcases cash with kind | kind | kind <;> cases kind

theorem Draft.regular_of_transfer {d : Draft} {b : Booked} {t : Transaction} (items : List Item)
    (h : d.transfer = .ok b) (mem : t ∈ b.transactions) :
    t.Regular ∧ (t.origin = .dividendRevenue → t.Mirrors items) := by
  obtain ⟨_, _, ⟨shares, _, booked⟩ | ⟨_, booked⟩⟩ := Draft.transfer_ok h
  · obtain ⟨source, target, _, _, _, _, _, _, _, _, _, _, _, transactions⟩ := Draft.shareTransfer_ok booked
    rw [transactions] at mem
    obtain rfl := List.mem_singleton.1 mem
    refine ⟨⟨?_, fun _ => ⟨source, target, rfl, rfl⟩, ?_⟩, ?_⟩
    · intro mirror
      cases mirror
    · intro company kind
      cases kind
    · intro mirror
      cases mirror
  · rcases Draft.kind_of_cashTransfer booked mem with ⟨kind, origin⟩ | ⟨kind, origin⟩
    · exact Transaction.regular_of_cash (.inl origin) (.inr (.inr kind))
    · exact Transaction.regular_of_cash (.inr origin) (.inl kind)

theorem DividendDraft.regular_of_book {d : DividendDraft} {money : Money} {t : Transaction}
    (mem : t ∈ (d.book money).transactions) :
    t.Regular ∧ (t.origin = .dividendRevenue → t.Mirrors ((d.book money).transactions.map .transaction)) := by
  rw [DividendDraft.book] at mem ⊢
  rcases List.mem_cons.1 mem with rfl | mem
  · refine ⟨⟨?_, ?_, fun _ _ => ⟨_, _, rfl, rfl⟩⟩, ?_⟩
    · intro mirror
      cases mirror
    · intro kind
      cases kind
    · intro mirror
      cases mirror
  · obtain rfl := List.mem_singleton.1 mem
    -- The payment is booked first, with the same legs and tags.
    refine ⟨⟨fun _ => rfl, ?_, ?_⟩, fun _ => ⟨_, _, List.mem_cons_self, rfl, rfl, rfl⟩⟩
    · intro kind
      cases kind
    · intro company kind
      cases kind

/-- What a statement is booked as is regular, and revenue that comes from a dividend stands beside it. -/
theorem regular_of_items {w : Written} {block : List Item} {t : Transaction} (complete : w.Complete)
    (h : w.items = .ok block) (mem : .transaction t ∈ block) :
    t.Regular ∧ (t.origin = .dividendRevenue → t.Mirrors block) := by
  cases w with
  | item i =>
    cases h
    exact absurd (List.mem_singleton.1 mem).symm (complete t)
  | expense d =>
    simp only [Written.items, map_eq_ok_iff] at h
    obtain ⟨b, booked, rfl⟩ := h
    obtain ⟨payee, _, _, transactions⟩ := Draft.expense_ok booked
    have mem := mem_of_mem_map_transaction mem
    rw [transactions] at mem
    obtain rfl := List.mem_singleton.1 mem
    exact Transaction.regular_of_cash (.inl rfl) (.inl rfl)
  | revenue d =>
    simp only [Written.items, map_eq_ok_iff] at h
    obtain ⟨b, booked, rfl⟩ := h
    obtain ⟨payer, _, transactions⟩ := Draft.revenue_ok booked
    have mem := mem_of_mem_map_transaction mem
    rw [transactions] at mem
    obtain rfl := List.mem_singleton.1 mem
    exact Transaction.regular_of_cash (.inl rfl) (.inr (.inl rfl))
  | transfer d =>
    simp only [Written.items, map_eq_ok_iff] at h
    obtain ⟨b, booked, rfl⟩ := h
    exact Draft.regular_of_transfer _ booked (mem_of_mem_map_transaction mem)
  | dividend d =>
    simp only [Written.items, map_eq_ok_iff] at h
    obtain ⟨money, _, rfl⟩ := h
    exact DividendDraft.regular_of_book (mem_of_mem_map_transaction mem)

/-- **Every transaction of a journal is regular.** -/
theorem regular_of_parse {lines : List Line} {j : Journal} (h : Journal.parse lines = .ok j)
    {t : Transaction} (mem : .transaction t ∈ j.items) : t.Regular := by
  obtain ⟨w, written, block, booked, mem, _⟩ := Written.exists_of_mem_allItems (allItems_written h) mem
  exact (regular_of_items (complete_of_mem_written written) booked mem).1

/-- The revenue that a dividend is stands beside the dividend. -/
theorem mirrors_of_parse {lines : List Line} {j : Journal} (h : Journal.parse lines = .ok j)
    {t : Transaction} (mem : .transaction t ∈ j.items) (mirror : t.origin = .dividendRevenue) :
    t.Mirrors j.items := by
  obtain ⟨w, written, block, booked, mem, all⟩ := Written.exists_of_mem_allItems (allItems_written h) mem
  obtain ⟨paid, company, beside, same⟩ :=
    (regular_of_items (complete_of_mem_written written) booked mem).2 mirror
  exact ⟨paid, company, all _ beside, same⟩

end Daybook
