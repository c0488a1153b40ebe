import Daybook.Proofs.Decimal.Rounding
import Daybook.Proofs.Journal.Flow
import Daybook.Proofs.Journal.Replayable
import Daybook.Proofs.Replay.Balance

/-!
# Signs of legs

Money comes from the legs of a transaction on its way in, and these are negative; the legs on its way out
are not. Whoever is outside the ledger pays revenue or is paid an expense. Booking sorts the legs of a draft
by sign, and only one step afterwards changes an amount: the fee of a transfer of cash is taken out of its
first source. So a journal keeps to these rules exactly if the first source of every transfer gives more
than the fee (`signed_of_parse`).
-/

namespace Daybook

/-- Every leg is where its sign, or the party that it stands for, puts it. -/
structure Transaction.IsSigned (t : Transaction) : Prop where
  ins : ∀ leg ∈ t.ins, leg.isOwned = true → leg.value < .zero
  outs : ∀ leg ∈ t.outs, leg.isOwned = true → .zero ≤ leg.value
  payer : ∀ leg ∈ t.ins, leg.isOwned = false → t.kind = .revenue
  payee : ∀ leg ∈ t.outs, leg.isOwned = false → t.kind = .expense

/-- Every leg is where it belongs, except perhaps the first source of a transfer with a fee. -/
def Transaction.IsSignedButFirst (t : Transaction) : Prop :=
  t.kind = .transfer ∧ (∃ fee, t.tags.fee? = some fee ∧ fee.isZero = false) ∧
    Transaction.IsSigned { t with ins := t.ins.tail }

/-- The first source of a transfer of cash gives more than the fee. -/
def Draft.IsCovered (d : Draft) : Prop :=
  d.tags.shares? = none → ∀ source ∈ d.sources.head?, source.value.units + d.feeAmount.units < 0

instance (d : Draft) : Decidable d.IsCovered :=
  inferInstanceAs (Decidable (_ → ∀ source ∈ d.sources.head?, source.value.units + d.feeAmount.units < 0))

/-! ### Legs of drafts -/

namespace Draft

variable {d : Draft} {b : Booked} {t : Transaction}

theorem nonneg_of_not_neg {leg : Leg} (h : (!decide (leg.value < .zero)) = true) : .zero ≤ leg.value := by
  rw [Bool.not_eq_true', decide_eq_false_iff_not] at h
  exact Int.not_lt.1 h

theorem value_of_mem_sources {leg : Leg} (h : leg ∈ d.sources) : leg ∈ d.legs ∧ leg.value < .zero := by
  obtain ⟨mem, negative⟩ := List.mem_filter.1 h
  exact ⟨mem, of_decide_eq_true negative⟩

theorem value_of_mem_targets {leg : Leg} (h : leg ∈ d.targets) : leg ∈ d.legs ∧ .zero ≤ leg.value := by
  obtain ⟨mem, other⟩ := List.mem_filter.1 h
  exact ⟨mem, nonneg_of_not_neg other⟩

/-- Between tracked accounts, sources come in and targets go out. -/
theorem isSigned_toTransaction {kind : TransactionKind} {ins outs : List Leg}
    (owned : ∀ leg ∈ d.legs, leg.isOwned = true) (sources : ∀ leg ∈ ins, leg ∈ d.sources)
    (targets : ∀ leg ∈ outs, leg ∈ d.targets) : (d.toTransaction kind ins outs).IsSigned where
  ins leg mem _ := (value_of_mem_sources (sources leg mem)).2
  outs leg mem _ := (value_of_mem_targets (targets leg mem)).2
  payer leg mem outside := by
    rw [owned leg (value_of_mem_sources (sources leg mem)).1] at outside
    cases outside
  payee leg mem outside := by
    rw [owned leg (value_of_mem_targets (targets leg mem)).1] at outside
    cases outside

/-! ### Expenses and revenues -/

theorem isSigned_of_expense (h : d.expense = .ok b) (mem : t ∈ b.transactions) : t.IsSigned := by
  obtain ⟨payee, outside, negative, transactions⟩ := expense_ok h
  rw [transactions] at mem
  obtain rfl := List.mem_singleton.1 mem
  have external : payee.isOwned = false := by
    have : payee ∈ d.legs.filter (!·.isOwned) := by simp [outside]
    simpa using (List.mem_filter.1 this).2
  refine ⟨fun leg mem owned => negative leg (List.mem_filter.1 mem).1 owned, fun leg mem owned => ?_,
    fun leg mem outside => ?_, fun _ _ _ => rfl⟩
  · rw [List.mem_singleton.1 mem, external] at owned
    cases owned
  · rw [(List.mem_filter.1 mem).2] at outside
    cases outside

theorem isSigned_of_revenue (h : d.revenue = .ok b) (mem : t ∈ b.transactions) : t.IsSigned := by
  obtain ⟨payer, outside, transactions⟩ := revenue_ok h
  rw [transactions] at mem
  obtain rfl := List.mem_singleton.1 mem
  have external : payer.isOwned = false := by
    have : payer ∈ d.legs.filter (!·.isOwned) := by simp [outside]
    simpa using (List.mem_filter.1 this).2
  refine ⟨fun leg mem owned => ?_, fun leg mem _ => ?_, fun _ _ _ => rfl, fun leg mem outside => ?_⟩
  · rcases List.mem_append.1 mem with mem | mem
    · exact of_decide_eq_true (List.mem_filter.1 mem).2
    · rw [List.mem_singleton.1 mem, external] at owned
      cases owned
  · exact nonneg_of_not_neg (List.mem_filter.1 mem).2
  · rw [(List.mem_filter.1 (List.mem_filter.1 mem).1).2] at outside
    cases outside

/-! ### Transfers -/

theorem isSigned_feeExpense {fee : Money} {intermediary : String} {account : AccountRef} {l : Location}
    (positive : .zero < fee.amount) : (d.feeExpense fee intermediary account l).IsSigned := by
  refine ⟨fun leg mem _ => ?_, fun leg mem owned => ?_, fun leg mem outside => ?_, fun _ _ _ => rfl⟩
  · rw [List.mem_singleton.1 mem]
    show fee.amount.neg.units < 0
    have : 0 < fee.amount.units := positive
    rw [Decimal.units_neg]
    omega
  · rw [List.mem_singleton.1 mem] at owned
    cases owned
  · rw [List.mem_singleton.1 mem] at outside
    cases outside

/-- A fee other than zero that passes its check is more than nothing. -/
theorem pos_of_checkFee {currency : Currency} {fee : Money} (checked : d.checkFee currency = .ok ())
    (tagged : d.tags.fee? = some fee) (nonzero : fee.isZero = false) : .zero < fee.amount := by
  have nonneg : 0 ≤ fee.amount.units := Int.not_lt.1 (checkFee_ok checked tagged).1
  have other : fee.amount.units ≠ 0 := by
    intro none
    rw [Money.isZero, Decimal.isZero_iff.2 none] at nonzero
    cases nonzero
  show 0 < fee.amount.units
  omega

/-- What is left of the first source is all that can keep a transfer from being signed. -/
theorem isSigned_cons_iff {source : Leg} {sources targets : List Leg} {account : AccountRef} {money : Money}
    {rest : Decimal} (posted : source.posting? = some (account, money))
    (others : (d.toTransaction .transfer sources targets).IsSigned) :
    (d.toTransaction .transfer ({ source with money := some ⟨rest, money.currency⟩ } :: sources) targets).IsSigned
      ↔ rest.units < 0 := by
  have isOwned : source.isOwned = true := by
    rw [Leg.isOwned, Leg.account?, (Leg.of_posting? posted).1]
    rfl
  constructor
  · intro signed
    exact signed.ins _ List.mem_cons_self isOwned
  · intro negative
    refine ⟨fun leg mem owned => ?_, others.outs, fun leg mem outside => ?_, others.payee⟩
    · rcases List.mem_cons.1 mem with rfl | mem
      · exact negative
      · exact others.ins leg mem owned
    · rcases List.mem_cons.1 mem with rfl | mem
      · exact absurd (isOwned.symm.trans outside) (by decide)
      · exact others.payer leg mem outside

/-- A transfer of cash is signed exactly if its first source gives more than the fee. -/
theorem isSigned_of_cashTransfer (owned : ∀ leg ∈ d.legs, leg.isOwned = true) (h : d.cashTransfer = .ok b) :
    (∀ t ∈ b.transactions, t.IsSigned ∨ t.IsSignedButFirst) ∧
      ((∀ t ∈ b.transactions, t.IsSigned) ↔
        ∀ source ∈ d.sources.head?, source.value.units + d.feeAmount.units < 0) := by
  obtain ⟨source, sources, account, money, first, _, posted, checked, _, split⟩ := cashTransfer_ok h
  have given : source.value.units < 0 := by
    have : source ∈ d.sources := by simp [first]
    exact (value_of_mem_sources this).2
  rw [first, List.head?_cons]
  simp only [Option.mem_some_iff, forall_eq']
  rcases split with ⟨free, transactions⟩ | ⟨fee, rest, intermediary, tagged, nonzero, sum, transactions⟩
  · have signed : ∀ t ∈ b.transactions, t.IsSigned := by
      rw [transactions]
      intro t mem
      rw [List.mem_singleton.1 mem]
      exact isSigned_toTransaction owned (fun leg mem => first ▸ mem) fun _ mem => mem
    refine ⟨fun t mem => .inl (signed t mem), iff_of_true signed ?_⟩
    rw [units_feeAmount_of_isZero free]
    omega
  · -- The fee is what takes the first source across zero, if anything does.
    have crossed : rest.units < 0 ↔ source.value.units + d.feeAmount.units < 0 := by
      rw [Decimal.units_add_neg_iff sum, feeAmount_of_tagged tagged, Leg.value_of_posting? posted]
    have others : Transaction.IsSigned (d.toTransaction .transfer sources d.targets) :=
      isSigned_toTransaction owned (fun leg mem => first ▸ List.mem_cons_of_mem source mem) fun _ mem => mem
    rw [transactions, ← crossed, ← isSigned_cons_iff posted others]
    simp only [List.forall_mem_cons, List.not_mem_nil, false_imp_iff, implies_true, and_true,
      isSigned_feeExpense (pos_of_checkFee checked tagged nonzero), true_or]
    exact .inr ⟨rfl, ⟨fee, tagged, nonzero⟩, others⟩

theorem isSigned_of_transfer (h : d.transfer = .ok b) :
    (∀ t ∈ b.transactions, t.IsSigned ∨ t.IsSignedButFirst) ∧
      ((∀ t ∈ b.transactions, t.IsSigned) ↔ d.IsCovered) := by
  obtain ⟨owned, _, ⟨shares, tagged, booked⟩ | ⟨untagged, booked⟩⟩ := transfer_ok h
  · obtain ⟨source, target, _, _, sources, targets, _, _, _, _, _, _, _, transactions⟩ :=
      shareTransfer_ok booked
    have signed : ∀ t ∈ b.transactions, t.IsSigned := by
      rw [transactions]
      intro t mem
      rw [List.mem_singleton.1 mem]
      exact isSigned_toTransaction owned (fun _ mem => sources ▸ mem) fun _ mem => targets ▸ mem
    refine ⟨fun t mem => .inl (signed t mem), iff_of_true signed fun untagged => ?_⟩
    rw [untagged] at tagged
    cases tagged
  · obtain ⟨but, iff⟩ := isSigned_of_cashTransfer owned booked
    exact ⟨but, iff.trans ⟨fun covered _ => covered, fun covered => covered untagged⟩⟩

end Draft

/-! ### Dividends -/

theorem DividendDraft.isSigned_of_book {d : DividendDraft} {money : Money} {t : Transaction}
    (complete : d.cash.Complete) (amount : d.money = .ok money) (mem : t ∈ (d.book money).transactions) :
    t.IsSigned := by
  obtain ⟨_, has, positive⟩ := money_ok amount
  have positive : 0 < money.amount.units := Int.not_le.1 positive
  have paid : d.cash.isOwned = true := by
    rw [Leg.Complete, has] at complete
    exact complete
  have legs : t.ins = [d.source money] ∧ t.outs = [d.cash] := by
    rw [book] at mem
    rcases List.mem_cons.1 mem with rfl | mem
    · exact ⟨rfl, rfl⟩
    · obtain rfl := List.mem_singleton.1 mem
      exact ⟨rfl, rfl⟩
  refine ⟨fun leg mem _ => ?_, fun leg mem _ => ?_, fun leg mem outside => ?_, fun leg mem outside => ?_⟩
  · rw [legs.1] at mem
    rw [List.mem_singleton.1 mem]
    show money.amount.neg.units < 0
    rw [Decimal.units_neg]
    omega
  · rw [legs.2] at mem
    rw [List.mem_singleton.1 mem, Leg.value, has]
    exact Int.le_of_lt positive
  · rw [legs.1] at mem
    rw [List.mem_singleton.1 mem] at outside
    cases outside
  · rw [legs.2] at mem
    rw [List.mem_singleton.1 mem, paid] at outside
    cases outside

/-! ### Every transaction of a journal -/

/-- The first source of what is a transfer of cash gives more than the fee. -/
def Written.IsCovered : Written → Prop
  | transfer d => d.IsCovered
  | _ => True

theorem signed_of_items {w : Written} {block : List Item} (complete : w.Complete) (h : w.items = .ok block) :
    (∀ t, .transaction t ∈ block → t.IsSigned ∨ t.IsSignedButFirst) ∧
      ((∀ t, .transaction t ∈ block → t.IsSigned) ↔ w.IsCovered) := by
  -- Whatever is no transfer is signed.
  have always (signed : ∀ t, .transaction t ∈ block → t.IsSigned) (covered : w.IsCovered) :
      (∀ t, .transaction t ∈ block → t.IsSigned ∨ t.IsSignedButFirst) ∧
        ((∀ t, .transaction t ∈ block → t.IsSigned) ↔ w.IsCovered) :=
    ⟨fun t mem => .inl (signed t mem), iff_of_true signed covered⟩
  cases w with
  | item i =>
    cases h
    exact always (fun t mem => absurd (List.mem_singleton.1 mem).symm (complete t)) trivial
  | expense d =>
    obtain ⟨b, booked, rfl⟩ := map_eq_ok_iff.1 h
    exact always (fun t mem => Draft.isSigned_of_expense booked (mem_of_mem_map_transaction mem)) trivial
  | revenue d =>
    obtain ⟨b, booked, rfl⟩ := map_eq_ok_iff.1 h
    exact always (fun t mem => Draft.isSigned_of_revenue booked (mem_of_mem_map_transaction mem)) trivial
  | transfer d =>
    obtain ⟨b, booked, rfl⟩ := map_eq_ok_iff.1 h
    have mem_iff (t : Transaction) :
        .transaction t ∈ b.transactions.map Item.transaction ↔ t ∈ b.transactions :=
      ⟨mem_of_mem_map_transaction, List.mem_map_of_mem⟩
    simp only [mem_iff]
    exact Draft.isSigned_of_transfer booked
  | dividend d =>
    obtain ⟨money, amount, rfl⟩ := map_eq_ok_iff.1 h
    exact always (fun t mem => d.isSigned_of_book complete amount (mem_of_mem_map_transaction mem)) trivial

/-- What holds of the transactions of every statement exactly if something holds of the statement. -/
theorem Written.forall_mem_allItems {P : Transaction → Prop} {Q : Written → Prop} {ws : List Written}
    {is : List Item}
    (each : ∀ w ∈ ws, ∀ block, w.items = .ok block → ((∀ t, .transaction t ∈ block → P t) ↔ Q w))
    (h : allItems ws = .ok is) : (∀ t, .transaction t ∈ is → P t) ↔ ∀ w ∈ ws, Q w := by
  induction ws generalizing is with
  | nil =>
    cases h
    simp
  | cons w rest ih =>
    simp only [allItems, bind_eq_ok_iff, Except.ok.injEq] at h
    obtain ⟨block, booked, more, later, rfl⟩ := h
    simp only [List.mem_append, or_imp, forall_and]
    rw [List.forall_mem_cons, each w List.mem_cons_self block booked,
      ih (fun w mem => each w (List.mem_cons_of_mem _ mem)) later]

/-- **The signs of a journal.** Money comes in from negative legs and goes out to legs that are not
negative, and only revenue has somebody outside on its way in, only an expense on its way out. Nothing but
the first source of a transfer with a fee is ever where it does not belong; and every leg is where it
belongs exactly if the first source of every transfer of cash gives more than the fee. -/
theorem signed_of_parse {lines : List Line} {j : Journal} (h : Journal.parse lines = .ok j) :
    (∀ t, .transaction t ∈ j.items → t.IsSigned ∨ t.IsSignedButFirst) ∧
      ((∀ t, .transaction t ∈ j.items → t.IsSigned) ↔
        ∀ d, .transfer d ∈ Journal.written lines → d.IsCovered) := by
  have each (w : Written) (mem : w ∈ Journal.written lines) (block : List Item)
      (booked : w.items = .ok block) :=
    signed_of_items (complete_of_mem_written mem) booked
  constructor
  · intro t mem
    obtain ⟨w, written, block, booked, mem, _⟩ := Written.exists_of_mem_allItems (allItems_written h) mem
    exact (each w written block booked).1 t mem
  · rw [Written.forall_mem_allItems (fun w mem block booked => (each w mem block booked).2)
      (allItems_written h)]
    constructor
    · intro covered d mem
      exact covered _ mem
    -- What is no transfer is covered anyway.
    · rintro covered (_ | _ | _ | d | _) mem
      case transfer => exact covered d mem
      all_goals trivial

instance : (w : Written) → Decidable w.IsCovered
  | .transfer d => inferInstanceAs (Decidable d.IsCovered)
  | .item _ | .expense _ | .revenue _ | .dividend _ => isTrue trivial

/-- What the household takes from the bank is more than the fee, and all its legs are where they belong. -/
theorem signed_of_houseBook :
    ∃ j, Journal.parse houseBook = .ok j ∧ ∀ t, .transaction t ∈ j.items → t.IsSigned := by
  obtain ⟨j, read, -⟩ := exists_journal_of_houseBook
  have covered : ∀ w ∈ Journal.written houseBook, w.IsCovered := by decide +kernel
  exact ⟨j, read, (signed_of_parse read).2.2 fun d => covered (.transfer d)⟩

/-- A transfer whose first source gives one euro, and whose fee is six. -/
def overdrawnBook : List Line :=
  ["tx 2021-01-01", "asset/a -1 EUR", "asset/b -10 EUR", "asset/c 5 EUR", "with", "fee: 6 EUR",
    "intermediary: Bank", "end"].zipIdx.map fun (text, i) => ⟨text, houseLine (i + 1)⟩

/-- Not every leg is where it belongs: the first source of this transfer is left with five euros, and
stays on its way in. -/
theorem not_signed_of_overdrawnBook :
    ¬ ∀ lines j, Journal.parse lines = .ok j → ∀ t, .transaction t ∈ j.items → t.IsSigned := by
  intro signed
  have left : ((Journal.parse overdrawnBook).toOption.map fun j =>
      decide (∀ t ∈ j.items.filterMap Item.transaction?,
        ∀ leg ∈ t.ins, leg.isOwned = true → leg.value < .zero)) = some false := by
    decide +kernel
  obtain ⟨j, read, positive⟩ := Option.map_eq_some_iff.1 left
  apply of_decide_eq_false positive
  intro t mem
  exact (Item.forall_transaction_iff.1 (signed overdrawnBook j (toOption_eq_some_iff.1 read)) t mem).ins

end Daybook
