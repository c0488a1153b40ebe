import Daybook.Proofs.Journal.Booked

/-!
# What the replay takes for granted

The replay reads a transaction again: it looks for the shares and the two ends of a transfer of shares,
and for the account and the payee of a dividend. Transactions may be put together without them, but none
that a statement is booked as (`replayable_of_parse`).
-/

namespace Daybook

/-- A transfer of shares names shares and has two ends, and one end that can hold them; a dividend has an
account that pays and a leg that is paid. -/
structure Transaction.Replayable (t : Transaction) : Prop where
  equity : t.kind = .equity → ∃ m, Books.ShareMove.ofTransaction t = .ok m ∧ m.holder.kind = .equity
  dividend : ∀ company, t.kind = .dividend company →
    ∃ source cash paid, t.ins.head?.bind Leg.account? = some source ∧ t.outs.head? = some cash ∧
      cash.posting? = some paid

theorem Transaction.replayable_of_cash {t : Transaction}
    (cash : t.kind = .expense ∨ t.kind = .revenue ∨ t.kind = .transfer) : t.Replayable := by
  refine ⟨fun equity => ?_, fun company dividend => ?_⟩
  · rw [equity] at cash
    rcases cash with kind | kind | kind <;> cases kind
  · rw [dividend] at cash
    rcases cash with kind | kind | kind <;> cases kind

/-! ### Transfers -/

namespace Draft

variable {d : Draft} {b : Booked} {t : Transaction}

theorem isEquity_of_posting? {leg : Leg} {a : AccountRef} {m : Money} (h : leg.posting? = some (a, m)) :
    isEquity leg = decide (a.kind = .equity) := by
  rw [isEquity, Leg.account?, (Leg.of_posting? h).1]
  simp

/-- A transfer of shares moves what its tags say, from its one source to its one target, and the account
whose shares are counted is an equity account. -/
theorem replayable_of_shareTransfer {shares : ShareCount} (tagged : d.tags.shares? = some shares)
    (owned : ∀ leg ∈ d.legs, leg.isOwned = true) (complete : ∀ leg ∈ d.legs, leg.Complete)
    (h : d.shareTransfer shares = .ok b) (mem : t ∈ b.transactions) : t.Replayable := by
  obtain ⟨source, target, account, given, sources, targets, holder, _, _, _, gives, _, _, transactions⟩ :=
    shareTransfer_ok h
  rw [transactions] at mem
  obtain rfl := List.mem_singleton.1 mem
  have isLeg : target ∈ d.legs := by
    have : target ∈ d.targets := by simp [targets]
    exact (List.mem_filter.1 this).1
  obtain ⟨payee, taken, takes⟩ := (complete target isLeg).exists_posting? (owned target isLeg)
  refine ⟨fun _ => ?_, nofun⟩
  refine ⟨⟨shares, account, given, source.location, payee, taken, target.location⟩, ?_, ?_⟩
  · simp [Books.ShareMove.ofTransaction, toTransaction, tagged, gives, takes, orError, bind, Except.bind]
  · rw [isEquity_of_posting? gives, isEquity_of_posting? takes] at holder
    rw [Books.ShareMove.holder]
    split
    · next isTarget => exact isTarget
    · next other => exact of_decide_eq_true (holder (decide_eq_false other))

theorem replayable_of_transfer (complete : ∀ leg ∈ d.legs, leg.Complete) (h : d.transfer = .ok b)
    (mem : t ∈ b.transactions) : t.Replayable := by
  obtain ⟨owned, _, ⟨shares, tagged, booked⟩ | ⟨_, booked⟩⟩ := transfer_ok h
  · exact replayable_of_shareTransfer tagged owned complete booked mem
  · rcases kind_of_cashTransfer booked mem with ⟨kind, -⟩ | ⟨kind, -⟩
    · exact Transaction.replayable_of_cash (.inr (.inr kind))
    · exact Transaction.replayable_of_cash (.inl kind)

end Draft

/-! ### Dividends -/

namespace DividendDraft

variable {d : DividendDraft} {money : Money}

theorem money_ok (h : d.money = .ok money) :
    d.account.kind = .equity ∧ d.cash.money = some money ∧ ¬ money.amount ≤ .zero := by
  rw [DividendDraft.money] at h
  split at h
  · cases h
  · next equity =>
    split at h
    · cases h
    · next money' has =>
      split at h
      · cases h
      · next positive =>
        cases h
        exact ⟨Decidable.not_not.1 equity, has, positive⟩

theorem replayable_of_book {t : Transaction} (complete : d.cash.Complete) (amount : d.money = .ok money)
    (mem : t ∈ (d.book money).transactions) : t.Replayable := by
  obtain ⟨_, has, _⟩ := money_ok amount
  have owned : d.cash.isOwned = true := by
    rw [Leg.Complete, has] at complete
    exact complete
  obtain ⟨payee, taken, takes⟩ := complete.exists_posting? owned
  rw [book] at mem
  rcases List.mem_cons.1 mem with rfl | mem
  · refine ⟨fun h => (by cases h), fun _ _ => ?_⟩
    exact ⟨d.account, d.cash, (payee, taken), rfl, rfl, takes⟩
  · obtain rfl := List.mem_singleton.1 mem
    exact Transaction.replayable_of_cash (.inr (.inl rfl))

end DividendDraft

/-! ### Every transaction of a journal -/

theorem replayable_of_items {w : Written} {block : List Item} {t : Transaction} (complete : w.Complete)
    (h : w.items = .ok block) (mem : .transaction t ∈ block) : t.Replayable := by
  cases w with
  | item i =>
    cases h
    exact absurd (List.mem_singleton.1 mem).symm (complete t)
  | expense d =>
    obtain ⟨b, booked, rfl⟩ := map_eq_ok_iff.1 h
    obtain ⟨payee, _, _, transactions⟩ := Draft.expense_ok booked
    have mem := mem_of_mem_map_transaction mem
    rw [transactions] at mem
    obtain rfl := List.mem_singleton.1 mem
    exact Transaction.replayable_of_cash (.inl rfl)
  | revenue d =>
    obtain ⟨b, booked, rfl⟩ := map_eq_ok_iff.1 h
    obtain ⟨payer, _, transactions⟩ := Draft.revenue_ok booked
    have mem := mem_of_mem_map_transaction mem
    rw [transactions] at mem
    obtain rfl := List.mem_singleton.1 mem
    exact Transaction.replayable_of_cash (.inr (.inl rfl))
  | transfer d =>
    obtain ⟨b, booked, rfl⟩ := map_eq_ok_iff.1 h
    exact Draft.replayable_of_transfer complete booked (mem_of_mem_map_transaction mem)
  | dividend d =>
    obtain ⟨money, amount, rfl⟩ := map_eq_ok_iff.1 h
    exact DividendDraft.replayable_of_book complete amount (mem_of_mem_map_transaction mem)

/-- **Every transaction of a journal has what the replay looks for.** -/
theorem replayable_of_parse {lines : List Line} {j : Journal} (h : Journal.parse lines = .ok j)
    {t : Transaction} (mem : .transaction t ∈ j.items) : t.Replayable := by
  obtain ⟨w, written, block, booked, mem, _⟩ := Written.exists_of_mem_allItems (allItems_written h) mem
  exact replayable_of_items (complete_of_mem_written written) booked mem

end Daybook
