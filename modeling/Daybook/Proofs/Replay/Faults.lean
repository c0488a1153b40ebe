import Daybook.Proofs.Journal.Replayable
import Daybook.Proofs.Replay.Cutoff
import Daybook.Proofs.Replay.Total

/-!
# What a computation may fail for

The items of a journal can be replayed: if their computation fails, something that is written is wrong,
and the error tells its place (`error_of_compute`). The only other error is a figure of shares that does
not fit. What the replay guards against in items that no statement is booked as (`Problem.isUnwritten`)
never happens.

Each operation has one lemma on its errors here. The ones that change positions need that equity accounts
can hold shares (`Books.EquityHolds`), which is so from the start and stays so.
-/

namespace Daybook

/-! ### Errors and places -/

/-- The places at which an item is written: its own, and those of its legs or entries. -/
def Item.places : Item → List Location
  | transaction t => t.location :: t.legs.map Leg.location
  | balance s => s.location :: s.entries.map BalanceEntry.location
  | item => [item.location]

/-- A cause that only items have which no statement is booked as; also a missing rate, if nothing says what
it is missed for. -/
def Problem.isUnwritten : Problem → Bool
  | equityWithoutShares | equityWithoutEnds | equitySourceNotOwned | equityTargetNotOwned
  | cannotHoldShares _ | dividendWithoutSource | dividendWithoutTarget | dividendToOutside
  | missingRate _ => true
  | _ => false

namespace Error

/-- The error tells what is wrong at one of some places. -/
def IsAt (places : List Location) (e : Error) : Prop :=
  ∃ location ∈ places, ∃ why, why.isUnwritten = false ∧ e = meaning location why

variable {places places' : List Location} {location : Location} {e : Error}

theorem isAt_meaning {why : Problem} (written : why.isUnwritten = false) :
    (meaning location why).IsAt [location] :=
  ⟨location, List.mem_singleton_self _, why, written, rfl⟩

theorem IsAt.mono (h : e.IsAt places) (sub : ∀ location ∈ places, location ∈ places') :
    e.IsAt places' := by
  obtain ⟨location, mem, rest⟩ := h
  exact ⟨location, sub location mem, rest⟩

theorem IsAt.of_mem (h : e.IsAt [location]) (mem : location ∈ places) : e.IsAt places :=
  h.mono fun _ isIt => List.mem_singleton.1 isIt ▸ mem

/-! The places of a transaction are its own and those of its legs. -/

variable {t : Transaction} {leg : Leg}

theorem IsAt.ofTransaction (h : e.IsAt [t.location]) : e.IsAt (Item.transaction t).places :=
  h.of_mem List.mem_cons_self

theorem IsAt.ofLeg (h : e.IsAt [leg.location]) (mem : leg ∈ t.legs) : e.IsAt (Item.transaction t).places :=
  h.of_mem (List.mem_cons_of_mem _ (List.mem_map_of_mem mem))

theorem IsAt.ofLegs (h : e.IsAt (t.legs.map Leg.location)) : e.IsAt (Item.transaction t).places :=
  h.mono fun _ mem => List.mem_cons_of_mem _ mem

end Error

/-! ### Checks -/

namespace Books

variable {b b' : Books} {account : AccountRef} {company : String} {location : Location} {e : Error}

theorem check_error {currency : Currency} (h : b.check account currency location = .error e) :
    e.IsAt [location] := by
  rw [check, Registry.lookup] at h
  rcases bind_eq_error_iff.1 h with unknown | ⟨found, _, h⟩
  · obtain ⟨_, rfl⟩ := orError_eq_error_iff.1 unknown
    exact Error.isAt_meaning rfl
  · split at h
    · cases h
    · cases h
      exact Error.isAt_meaning rfl

theorem checkPosition_error (h : b.checkPosition account company location = .error e) :
    e.IsAt [location] := by
  rw [checkPosition, Registry.lookup] at h
  rcases bind_eq_error_iff.1 h with unknown | ⟨found, _, h⟩
  · obtain ⟨_, rfl⟩ := orError_eq_error_iff.1 unknown
    exact Error.isAt_meaning rfl
  · split at h
    · cases h
    · cases h
      exact Error.isAt_meaning rfl

theorem checkLegs_error {legs : List Leg} (h : b.checkLegs legs = .error e) :
    e.IsAt (legs.map Leg.location) := by
  induction legs with
  | nil => cases h
  | cons leg rest ih =>
    rw [checkLegs] at h
    split at h
    · exact (ih h).mono fun _ mem => List.mem_cons_of_mem _ mem
    · rcases bind_eq_error_iff.1 h with here | ⟨_, _, later⟩
      · exact (check_error here).of_mem List.mem_cons_self
      · exact (ih later).mono fun _ mem => List.mem_cons_of_mem _ mem

theorem checkEntry_error {entry : BalanceEntry} (h : b.checkEntry entry = .error e) :
    e.IsAt [entry.location] := by
  rw [checkEntry] at h
  split at h
  · rcases bind_eq_error_iff.1 h with failed | ⟨_, _, h⟩
    · exact check_error failed
    · cases h
  · rcases bind_eq_error_iff.1 h with failed | ⟨_, _, h⟩
    · exact check_error failed
    · rcases bind_eq_error_iff.1 h with failed | ⟨_, _, h⟩
      · exact checkPosition_error failed
      · cases h

theorem checkEntries_error {entries : List BalanceEntry} (h : b.checkEntries entries = .error e) :
    e.IsAt (entries.map BalanceEntry.location) := by
  induction entries with
  | nil => cases h
  | cons entry rest ih =>
    rw [checkEntries] at h
    rcases bind_eq_error_iff.1 h with here | ⟨_, _, later⟩
    · exact (checkEntry_error here).of_mem List.mem_cons_self
    · exact (ih later).mono fun _ mem => List.mem_cons_of_mem _ mem

/-! ### Changes -/

theorem overflow_isAt {α : Type} {value : Option α} (h : orError value (.overflow location) = .error e) :
    e.IsAt [location] := by
  obtain ⟨_, rfl⟩ := orError_eq_error_iff.1 h
  exact Error.isAt_meaning rfl

theorem credit_error {amount : Decimal} (h : b.credit account amount location = .error e) :
    e.IsAt [location] := by
  rw [credit] at h
  split at h
  · cases h
  · rcases bind_eq_error_iff.1 h with failed | ⟨_, _, h⟩
    · exact overflow_isAt failed
    · cases h

theorem creditLegs_error {legs : List Leg} (h : b.creditLegs legs = .error e) :
    e.IsAt (legs.map Leg.location) := by
  induction legs generalizing b with
  | nil => cases h
  | cons leg rest ih =>
    rw [creditLegs] at h
    split at h
    · exact (ih h).mono fun _ mem => List.mem_cons_of_mem _ mem
    · rcases bind_eq_error_iff.1 h with here | ⟨_, _, later⟩
      · exact (credit_error here).of_mem List.mem_cons_self
      · exact (ih later).mono fun _ mem => List.mem_cons_of_mem _ mem

/-- Where shares can be held, a change of a position fails for the change only. -/
theorem modifyPosition_error {f : Position → Except Error Position} (holds : b.canHold account = true)
    (h : b.modifyPosition account company f = .error e) : ∃ p, f p = .error e := by
  obtain ⟨shares, holds⟩ := Option.isSome_iff_exists.1 holds
  rw [sharesOf?] at holds
  rw [modifyPosition, holds] at h
  rcases bind_eq_error_iff.1 h with failed | ⟨_, _, h⟩
  · exact ⟨_, failed⟩
  · cases h

theorem recordAt_error {price : Decimal} {leg : ShareLeg} {p : Position}
    (h : recordAt location price leg p = .error e) : e.IsAt [location] := by
  rw [recordAt] at h
  rcases bind_eq_error_iff.1 h with failed | ⟨_, _, h⟩
  · exact overflow_isAt failed
  · cases h

/-! ### Assertions -/

/-- Entries that have been checked are asserted. -/
theorem assertEntries_ne_error {time : Timestamp} {entries : List BalanceEntry}
    (holds : ∀ entry ∈ entries, ∀ company price, entry.assertion = .sharePrice company price →
      b.canHold entry.account = true) :
    assertEntries time b entries ≠ .error e := by
  induction entries generalizing b with
  | nil => exact nofun
  | cons entry rest ih =>
    intro h
    rw [assertEntries] at h
    rcases bind_eq_error_iff.1 h with failed | ⟨⟨next, _⟩, asserted, h⟩
    · rw [assertEntry] at failed
      split at failed
      · cases failed
      · next company price share =>
        rcases bind_eq_error_iff.1 failed with failed | ⟨_, _, h⟩
        · obtain ⟨p, failed⟩ := modifyPosition_error
            (holds entry List.mem_cons_self company price share) failed
          cases failed
        · cases h
    · have frame := sameFrame_of_assertEntry asserted
      rcases bind_eq_error_iff.1 h with failed | ⟨_, _, h⟩
      · refine ih (fun entry' mem company price share => ?_) failed
        rw [frame.holders]
        exact holds entry' (List.mem_cons_of_mem _ mem) company price share
      · cases h

theorem balance_error {s : BalanceAssertion} (h : b.balance s = .error e) :
    e.IsAt (s.entries.map BalanceEntry.location) := by
  rw [balance] at h
  rcases bind_eq_error_iff.1 h with failed | ⟨_, checked, h⟩
  · exact checkEntries_error failed
  · refine absurd h (assertEntries_ne_error fun entry mem company price share => ?_)
    exact canHold_of_positionOf? ((checkEntries_ok checked entry mem).2 company price share)

/-! ### Shares -/

/-- Every equity account can hold shares. -/
def EquityHolds (b : Books) : Prop :=
  ∀ o ∈ b.accounts.openings, o.account.kind = .equity → b.canHold o.account = true

theorem EquityHolds.of_sameFrame (h : b.EquityHolds) (frame : SameFrame b b') : b'.EquityHolds := by
  intro o mem equity
  rw [frame.openings] at mem
  rw [frame.holders]
  exact h o mem equity

/-- The ends of a transfer of shares are the first legs of the transaction. -/
theorem exists_of_ofTransaction {t : Transaction} {m : ShareMove} (h : ShareMove.ofTransaction t = .ok m) :
    ∃ source ∈ t.legs, ∃ target ∈ t.legs, source.posting? = some (m.source, m.given) ∧
      source.location = m.sourceLocation ∧ target.posting? = some (m.target, m.taken) ∧
      target.location = m.targetLocation := by
  simp only [ShareMove.ofTransaction, bind_eq_ok_iff, orError_eq_ok_iff] at h
  obtain ⟨shares, tagged, h⟩ := h
  split at h
  · next source ins target outs isIns isOuts =>
    simp only [bind_eq_ok_iff, orError_eq_ok_iff, Except.ok.injEq] at h
    obtain ⟨⟨account, given⟩, gives, ⟨payee, taken⟩, takes, rfl⟩ := h
    refine ⟨source, ?_, target, ?_, gives, rfl, takes, rfl⟩ <;> simp [Transaction.legs, isIns, isOuts]
  · cases h

theorem canHold_of_isOn {leg : Leg} {money : Money} (holds : b.EquityHolds)
    (isOn : leg.IsOn b.accounts.openings) (posted : leg.posting? = some (account, money))
    (equity : account.kind = .equity) : b.canHold account = true := by
  obtain ⟨o, mem, rfl, _⟩ := isOn account money posted
  exact holds o mem equity

/-- A transfer of shares between known accounts fails for sums that do not fit only. -/
theorem equity_error {t : Transaction} (holds : b.EquityHolds) (kind : t.kind = .equity)
    (replayable : t.Replayable) (known : ∀ leg ∈ t.legs, leg.IsOn b.accounts.openings)
    (h : b.equity t = .error e) : e.IsAt (Item.transaction t).places := by
  obtain ⟨m, move, holderEquity⟩ := replayable.equity kind
  obtain ⟨source, isSource, target, isTarget, gives, sourceAt, takes, targetAt⟩ :=
    exists_of_ofTransaction move
  have sourceHolds (equity : m.source.kind = .equity) : b.canHold m.source = true :=
    canHold_of_isOn holds (known source isSource) gives equity
  have targetHolds (equity : m.target.kind = .equity) : b.canHold m.target = true :=
    canHold_of_isOn holds (known target isTarget) takes equity
  have holderHolds : b.canHold m.holder = true := by
    rw [ShareMove.holder] at holderEquity ⊢
    split
    · next equity => exact targetHolds equity
    · next other =>
      rw [if_neg other] at holderEquity
      exact sourceHolds holderEquity
  rw [equity, move] at h
  rcases bind_eq_error_iff.1 h with failed | ⟨_, same, h⟩
  · cases failed
  cases same
  rcases bind_eq_error_iff.1 h with failed | ⟨price, _, h⟩
  · exact (overflow_isAt failed).ofTransaction
  rcases bind_eq_error_iff.1 h with failed | ⟨b₁, given, h⟩
  · exact (sourceAt ▸ credit_error failed : e.IsAt [source.location]).ofLeg isSource
  rcases bind_eq_error_iff.1 h with failed | ⟨b₂, taken, h⟩
  · exact (targetAt ▸ credit_error failed : e.IsAt [target.location]).ofLeg isTarget
  have cash := (sameFrame_of_credit given).trans (sameFrame_of_credit taken)
  rcases bind_eq_error_iff.1 h with failed | ⟨b₃, recorded, h⟩
  · obtain ⟨p, failed⟩ := modifyPosition_error ((cash.holders _).trans holderHolds) failed
    exact (recordAt_error failed).ofTransaction
  have frame := cash.trans (sameFrame_of_modifyPosition recorded)
  split at h
  · next between =>
    rcases bind_eq_error_iff.1 h with failed | ⟨_, _, h⟩
    · rw [ShareMove.isBetweenHolders, Bool.and_eq_true] at between
      have sourceEquity := of_decide_eq_true between.1
      obtain ⟨p, failed⟩ := modifyPosition_error ((frame.holders _).trans (sourceHolds sourceEquity)) failed
      exact (recordAt_error failed).ofTransaction
    · cases h
  · cases h

/-! ### Dividends -/

theorem dividend_error {t : Transaction} (kind : t.kind = .dividend company) (replayable : t.Replayable)
    (h : b.dividend t company = .error e) : e.IsAt (Item.transaction t).places := by
  obtain ⟨source, cash, ⟨account, money⟩, pays, isPaid, takes⟩ := replayable.dividend company kind
  have isLeg : cash ∈ t.legs := List.mem_append_right _ (List.mem_of_head? isPaid)
  rw [dividend, pays, isPaid] at h
  rcases bind_eq_error_iff.1 h with failed | ⟨_, same, h⟩
  · cases failed
  cases same
  rcases bind_eq_error_iff.1 h with failed | ⟨_, same, h⟩
  · cases failed
  cases same
  rw [takes] at h
  rcases bind_eq_error_iff.1 h with failed | ⟨_, same, h⟩
  · cases failed
  cases same
  rcases bind_eq_error_iff.1 h with failed | ⟨_, _, h⟩
  · exact (check_error failed).ofLeg isLeg
  rcases bind_eq_error_iff.1 h with failed | ⟨holder, checked, h⟩
  · exact (checkPosition_error failed).ofTransaction
  rcases bind_eq_error_iff.1 h with failed | ⟨earned, _, h⟩
  · -- Whatever keeps the dividend from being valued, a missing rate too, is told as just that.
    obtain ⟨why, _, rfl⟩ := mapError_eq_error_iff.1 failed
    exact (Error.isAt_meaning rfl).ofTransaction
  rcases bind_eq_error_iff.1 h with failed | ⟨next, credited, h⟩
  · exact (credit_error failed).ofLeg isLeg
  have holds := canHold_of_positionOf? (checkPosition_ok checked).2
  have holds := ((sameFrame_of_credit credited).holders source).trans holds
  obtain ⟨p, failed⟩ := modifyPosition_error holds h
  exact (overflow_isAt failed).ofTransaction

/-! ### Items -/

theorem transaction_error {t : Transaction} (holds : b.EquityHolds) (replayable : t.Replayable)
    (h : b.transaction t = .error e) : e.IsAt (Item.transaction t).places := by
  rw [transaction] at h
  split at h
  · cases h
  · split at h
    case h_4 kind =>
      rcases bind_eq_error_iff.1 h with failed | ⟨_, checked, h⟩
      · exact (checkLegs_error failed).ofLegs
      · exact equity_error holds kind replayable (isOn_of_checkLegs checked) h
    case h_5 company kind =>
      rcases bind_eq_error_iff.1 h with failed | ⟨_, _, h⟩
      · exact dividend_error kind replayable failed
      · cases h
    all_goals
      rcases bind_eq_error_iff.1 h with failed | ⟨_, _, h⟩
      · exact (checkLegs_error failed).ofLegs
      · rcases bind_eq_error_iff.1 h with failed | ⟨_, _, h⟩
        · exact (creditLegs_error failed).ofLegs
        · cases h

/-- **An item that fails tells one of its places.** -/
theorem apply_error {o : Options} {i : Item} (holds : b.EquityHolds)
    (replayable : ∀ t, i = .transaction t → t.Replayable) (h : b.apply o i = .error e) :
    e.IsAt i.places := by
  cases i with
  | balance s =>
    rw [apply] at h
    split at h
    · cases h
    · exact (balance_error h).mono fun _ mem => List.mem_cons_of_mem _ mem
  | transaction t =>
    rw [apply] at h
    split at h
    · cases h
    · exact transaction_error holds (replayable t rfl) h
  | _ => cases h

/-- Items that fail tell a place of one of them. -/
theorem foldTelling_error {o : Options} {items : List Item} (holds : b.EquityHolds)
    (replayable : ∀ t, .transaction t ∈ items → t.Replayable)
    (h : (foldTelling (apply o) b items).result = .error e) : e.IsAt (items.flatMap Item.places) := by
  obtain ⟨done, i, rest, s, rfl, run, failed⟩ := exists_of_foldTelling_error h
  have start : (b.quoting (done.foldl (Item.ratesAfter o) b.basket)).EquityHolds := holds
  have before := start.of_sameFrame (sameFrame_of_foldTelling run)
  have isItem : i ∈ done ++ i :: rest := by simp
  refine (apply_error before (fun t same => replayable t (same ▸ isItem)) failed).mono fun l mem => ?_
  exact List.mem_flatMap.2 ⟨i, isItem, mem⟩

end Books

/-! ### Settings, accounts and figures -/

variable {e : Error} {items : List Item}

theorem Currency.isUnwritten_of_ofText_error {text : String} {why : Problem}
    (h : Currency.ofText text = .error why) : why.isUnwritten = false := by
  rw [Currency.ofText] at h
  split at h
  · cases h
  · cases h
    rfl

theorem Config.set_error {c : Config} {s : Setting} (h : c.set s = .error e) : e.IsAt [s.location] := by
  rw [Config.set] at h
  split at h
  · rcases bind_eq_error_iff.1 h with failed | ⟨_, _, h⟩
    · obtain ⟨why, invalid, rfl⟩ := mapError_eq_error_iff.1 failed
      exact Error.isAt_meaning (Currency.isUnwritten_of_ofText_error invalid)
    · cases h
  · split at h
    · rcases bind_eq_error_iff.1 h with failed | ⟨_, _, h⟩
      · obtain ⟨why, invalid, rfl⟩ := mapError_eq_error_iff.1 failed
        obtain ⟨_, _, rfl⟩ := mapError_eq_error_iff.1 invalid
        exact Error.isAt_meaning rfl
      · cases h
    · cases h

theorem Config.foldTelling_error {c : Config}
    (h : (foldTelling Config.step c items).result = .error e) : e.IsAt (items.flatMap Item.places) := by
  obtain ⟨done, i, rest, s, rfl, _, failed⟩ := exists_of_foldTelling_error h
  cases i with
  | setting s =>
    exact (Config.set_error failed).mono fun l mem => List.mem_flatMap.2 ⟨.setting s, by simp, mem⟩
  | _ => cases failed

namespace Registry

variable {r : Registry}

theorem step_error {i : Item} (h : r.step i = .error e) : e.IsAt i.places := by
  cases i with
  | opening o =>
    rw [step, opened] at h
    split at h
    · cases h
      exact Error.isAt_meaning rfl
    · cases h
  | closing c =>
    rw [step, closed] at h
    split at h
    · cases h
      exact Error.isAt_meaning rfl
    · cases h
  | _ => cases h

theorem foldlM_step_error (h : items.foldlM step r = .error e) : e.IsAt (items.flatMap Item.places) := by
  induction items generalizing r with
  | nil => cases h
  | cons i rest ih =>
    rw [List.foldlM_cons] at h
    rcases bind_eq_error_iff.1 h with failed | ⟨_, _, h⟩
    · exact (step_error failed).mono fun l mem => by simp [mem]
    · exact (ih h).mono fun l mem => by
        rw [List.flatMap_cons]
        exact List.mem_append_right _ mem

/-- Equity accounts are opened so that they can hold shares. -/
theorem equityHolds_of_ofItems {rates : Basket} (h : ofItems items = .ok r) :
    (Books.mk r rates).EquityHolds := by
  intro o mem equity
  obtain ⟨a, found, rfl⟩ := exists_get?_of_mem_openings mem
  have fresh := isFresh_of_ofItems h a (mem_of_get? found)
  have shares : a.state.shares = some .empty := by
    rw [fresh]
    exact if_pos equity
  simp [Books.canHold, Books.sharesOf?, found, shares]

theorem mapStates_error {ε : Type} {f : Account → Except ε AccountState} {accounts : List Account} {e : ε}
    (h : mapStates f accounts = .error e) : ∃ a ∈ accounts, f a = .error e := by
  induction accounts with
  | nil => cases h
  | cons a rest ih =>
    rw [mapStates] at h
    rcases bind_eq_error_iff.1 h with failed | ⟨_, _, h⟩
    · exact ⟨a, List.mem_cons_self, failed⟩
    · rcases bind_eq_error_iff.1 h with failed | ⟨_, _, h⟩
      · obtain ⟨a', mem, failed⟩ := ih failed
        exact ⟨a', List.mem_cons_of_mem _ mem, failed⟩
      · cases h

end Registry

/-- Working out figures fails for one that does not fit only. -/
theorem Registry.revalue_error {r : Registry} {method : CostBasis} (h : r.revalue method = .error e) :
    ∃ company account, e = .plain (.valuationOverflow company account) := by
  rw [revalue, modifyAll] at h
  split at h
  · next e' failed =>
    cases h
    obtain ⟨a, _, failed⟩ := mapStates_error failed
    rw [Account.revalued] at failed
    split at failed
    · cases failed
    · rcases bind_eq_error_iff.1 failed with failed | ⟨_, _, h⟩
      · obtain ⟨totals, company, p, failed⟩ := SortedMap.revise_error failed
        exact ⟨company, a.reference, (orError_eq_error_iff.1 failed).2.symm⟩
      · cases h
  · cases h

/-! ### The whole computation -/

/-- **What can be read can be replayed.** If the computation of a journal fails, something is wrong at a
place where one of its items, legs or entries is written, and what is wrong is nothing that only items can
have that are not written; or a figure of shares does not fit. -/
theorem error_of_compute {lines : List Line} {j : Journal} {o : Options}
    (read : Journal.parse lines = .ok j) (failed : (Ledger.compute o j.items).result = .error e) :
    e.IsAt (j.items.flatMap Item.places) ∨
      ∃ company account, e = .plain (.valuationOverflow company account) := by
  rw [Ledger.result_compute] at failed
  rcases bind_eq_error_iff.1 failed with failed | ⟨config, _, failed⟩
  · exact .inl (Config.foldTelling_error failed)
  rcases bind_eq_error_iff.1 failed with failed | ⟨registry, opened, failed⟩
  · exact .inl (Registry.foldlM_step_error failed)
  rcases bind_eq_error_iff.1 failed with failed | ⟨books, _, failed⟩
  · refine .inl ((Books.foldTelling_error (Registry.equityHolds_of_ofItems opened) (fun t mem => ?_)
      failed).mono fun l mem => ?_)
    · exact replayable_of_parse read (mem_chronological.1 mem)
    · obtain ⟨i, isItem, mem⟩ := List.mem_flatMap.1 mem
      exact List.mem_flatMap.2 ⟨i, mem_chronological.1 isItem, mem⟩
  rcases bind_eq_error_iff.1 failed with failed | ⟨accounts, _, failed⟩
  · exact .inr (Registry.revalue_error failed)
  · cases failed

/-- A ledger with an expense from a purse that is not opened. -/
def purseBook : List Line :=
  ["open account 2021-01-01 asset bank", "balance: 5000 USD", "end",
    "ex 2021-01-02", "asset/purse -5 USD", "grocer", "end"].zipIdx.map fun (text, i) =>
      ⟨text, houseLine (i + 1)⟩

/-- What the ledger with the purse is read as. -/
def purseItems : List Item :=
  [.opening ⟨day2021 1 1, houseBank, usd 5000, .empty, houseLine 1⟩,
    .transaction
      { kind := .expense
        timestamp := day2021 1 2
        ins := [.onAccount ⟨.asset, "purse"⟩ (usd 5).neg (houseLine 5)]
        outs := [.outside "grocer" (houseLine 6)]
        tags := []
        origin := .ledger
        location := houseLine 4 }]

/-- The purse is missed where it is named. -/
theorem error_of_purseBook :
    ∃ j e, Journal.parse purseBook = .ok j ∧ (Ledger.compute houseOptions j.items).result = .error e ∧
      e = .meaning (houseLine 5) (.unknownAccount ⟨.asset, "purse"⟩) ∧
      (e.IsAt (j.items.flatMap Item.places) ∨
        ∃ company account, e = .plain (.valuationOverflow company account)) := by
  have read : (Journal.parse purseBook).toOption.map Journal.items = some purseItems := by decide +kernel
  obtain ⟨j, read, items⟩ := Option.map_eq_some_iff.1 read
  have read := toOption_eq_some_iff.1 read
  have sorted : chronological purseItems = purseItems := chronological_eq_self (by decide)
  have failed : (Ledger.compute houseOptions j.items).result
      = .error (.meaning (houseLine 5) (.unknownAccount ⟨.asset, "purse"⟩)) := by
    simp only [items, Ledger.compute, replay, sorted]
    rfl
  exact ⟨j, _, read, failed, rfl, error_of_compute read failed⟩

end Daybook
