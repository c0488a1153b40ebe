import Daybook.Proofs.Account.Recorded
import Daybook.Proofs.Replay.Balance
import Daybook.Proofs.Replay.Cutoff

/-!
# Going on from a ledger

The replay never reads what has been worked out about shares: it does the same to books with derived
figures and without them (`apply_recorded`). So a ledger computed up to some time is as good a start as
the items before that time: replaying on it what counts after its time and by a later one, and working
out the figures again, comes to the ledger of the later time (`compute_eq_resume`).
-/

namespace Daybook

/-! ### Chains under a map -/

section

variable {ε α α' β β' : Type} {g : β → β'}

/-- Chains with the same first step are related by a map if what follows is. -/
theorem bind_eq_map_bind {x : Except ε α} {k : α → Except ε β'} {k' : α → Except ε β}
    (rest : ∀ a, k a = (k' a).map g) : (x >>= k) = (x >>= k').map g := by
  cases x with
  | error e => rfl
  | ok a => exact rest a

theorem map_bind_eq_map_bind {x : Except ε α} {f : α → α'} {k : α' → Except ε β'} {k' : α → Except ε β}
    (rest : ∀ a, k (f a) = (k' a).map g) : (x.map f >>= k) = (x >>= k').map g := by
  cases x with
  | error e => rfl
  | ok a => exact rest a

/-- What two chains go on with is enough for their results to agree. -/
theorem bind_eq_bind_of_map_eq {x x' : Except ε α} {f : α → α'} {k k' : α → Except ε β}
    (same : x.map f = x'.map f) (rest : ∀ a a', f a = f a' → k a = k' a') : (x >>= k) = (x' >>= k') := by
  cases x with
  | error e =>
    cases x' with
    | error e' => exact congrArg Except.error (Except.error.inj same)
    | ok a' => cases same
  | ok a =>
    cases x' with
    | error e' => cases same
    | ok a' => exact rest a a' (Except.ok.inj same)

end

namespace Books

/-- The books without derived figures. -/
def recorded (b : Books) : Books := ⟨b.accounts.recorded, b.basket⟩

/-- Books without derived figures, with what was told on the way. -/
def recordedToo (result : Books × List Notice) : Books × List Notice := (result.1.recorded, result.2)

variable {b : Books} {account : AccountRef} {location : Location}

/-! ### Checks -/

theorem lookup_recorded (b : Books) (account : AccountRef) (location : Location) :
    b.recorded.accounts.lookup account location
      = (b.accounts.lookup account location).map Account.recorded := by
  rw [Registry.lookup, Registry.lookup, recorded, Registry.get?_recorded]
  cases b.accounts.get? account <;> rfl

theorem check_recorded (b : Books) (account : AccountRef) (currency : Currency) (location : Location) :
    b.recorded.check account currency location
      = (b.check account currency location).map Account.recorded := by
  rw [check, check, lookup_recorded]
  refine map_bind_eq_map_bind fun found => ?_
  show (if found.currency = currency then _ else _) = _
  split <;> rfl

theorem checkPosition_recorded (b : Books) (account : AccountRef) (company : String)
    (location : Location) :
    b.recorded.checkPosition account company location
      = (b.checkPosition account company location).map Account.recorded := by
  rw [checkPosition, checkPosition, lookup_recorded]
  refine map_bind_eq_map_bind fun found => ?_
  rw [Account.position?_recorded]
  cases found.position? company <;> rfl

theorem map_unit {ε : Type} (x : Except ε Unit) (f : Unit → Unit) : x.map f = x := by
  cases x <;> rfl

theorem checkLegs_recorded (b : Books) (legs : List Leg) : b.recorded.checkLegs legs = b.checkLegs legs := by
  induction legs with
  | nil => rfl
  | cons leg rest ih =>
    rw [checkLegs, checkLegs]
    split
    · exact ih
    · rw [check_recorded, ih, ← map_unit (b.check _ _ _ >>= _) id]
      exact map_bind_eq_map_bind fun _ => (map_unit _ id).symm

theorem checkEntry_recorded (b : Books) (e : BalanceEntry) : b.recorded.checkEntry e = b.checkEntry e := by
  rw [checkEntry, checkEntry]
  split
  · rw [check_recorded, ← map_unit (b.check _ _ _ >>= _) id]
    exact map_bind_eq_map_bind fun _ => rfl
  · rw [check_recorded, checkPosition_recorded, ← map_unit (b.check _ _ _ >>= _) id]
    exact map_bind_eq_map_bind fun _ => map_bind_eq_map_bind fun _ => rfl

theorem checkEntries_recorded (b : Books) (entries : List BalanceEntry) :
    b.recorded.checkEntries entries = b.checkEntries entries := by
  induction entries with
  | nil => rfl
  | cons e rest ih => rw [checkEntries, checkEntries, checkEntry_recorded, ih]

/-! ### Changes -/

theorem recorded_modify {f g : AccountState → AccountState}
    (same : ∀ a, b.accounts.get? account = some a → (f a.state).recorded = g a.state.recorded) :
    (b.modify account f).recorded = b.recorded.modify account g := by
  rw [recorded, recorded, modify, modify, Registry.recorded_modify same]

theorem balance_recorded (b : Books) (account : AccountRef) (balance : Decimal) :
    (b.modify account fun state => { state with balance }).recorded
      = b.recorded.modify account fun state => { state with balance } :=
  recorded_modify fun _ _ => rfl

theorem credit_recorded (b : Books) (account : AccountRef) (amount : Decimal) (location : Location) :
    b.recorded.credit account amount location = (b.credit account amount location).map recorded := by
  rw [credit, credit, recorded, Registry.get?_recorded]
  cases b.accounts.get? account with
  | none => rfl
  | some found =>
    exact bind_eq_map_bind fun balance => congrArg Except.ok (balance_recorded b account balance).symm

theorem creditLegs_recorded (b : Books) (legs : List Leg) :
    b.recorded.creditLegs legs = (b.creditLegs legs).map recorded := by
  induction legs generalizing b with
  | nil => rfl
  | cons leg rest ih =>
    rw [creditLegs, creditLegs]
    split
    · exact ih b
    · rw [credit_recorded]
      exact map_bind_eq_map_bind ih

/-- A change of a position is the same with and without figures, if it is so for the position. -/
theorem modifyPosition_recorded {f : Position → Except Error Position}
    (same : ∀ p, f p.recorded = (f p).map Position.recorded) (b : Books) (account : AccountRef)
    (company : String) :
    b.recorded.modifyPosition account company f
      = (b.modifyPosition account company f).map recorded := by
  have part : (b.recorded.accounts.get? account).bind (·.state.shares)
      = ((b.accounts.get? account).bind (·.state.shares)).map (SortedMap.map Position.recorded) := by
    rw [recorded, Registry.get?_recorded]
    cases b.accounts.get? account <;> rfl
  rw [modifyPosition, modifyPosition, part]
  cases holds : (b.accounts.get? account).bind (·.state.shares) with
  | none => rfl
  | some shares =>
    have start : ((shares.map Position.recorded).get? company).getD .empty
        = ((shares.get? company).getD .empty).recorded := by
      rw [SortedMap.get?_map]
      cases shares.get? company <;> rfl
    show f (((shares.map Position.recorded).get? company).getD .empty) >>= _ = _
    rw [start, same]
    refine map_bind_eq_map_bind fun p => congrArg Except.ok (recorded_modify fun a known => ?_).symm
    rw [known, Option.bind_some] at holds
    simp [AccountState.recorded, holds, SortedMap.map_insert]

theorem recordAt_recorded (location : Location) (price : Decimal) (leg : ShareLeg) (p : Position) :
    recordAt location price leg p.recorded = (recordAt location price leg p).map Position.recorded := by
  rw [recordAt, recordAt, Position.record, Position.record]
  show (orError (p.held.add leg.shares >>= _) _ >>= _) = _
  cases p.held.add leg.shares with
  | none => rfl
  | some held =>
    show (orError (p.fees.add leg.fee >>= _) _ >>= _) = (orError (p.fees.add leg.fee >>= _) _ >>= _).map _
    cases p.fees.add leg.fee <;> rfl

theorem addDividend_recorded (p : Position) (amount : Decimal) :
    p.recorded.addDividend amount = (p.addDividend amount).map Position.recorded := by
  rw [Position.addDividend, Position.addDividend]
  show (p.dividends.add amount).map _ = _
  cases p.dividends.add amount <;> rfl

/-! ### Assertions -/

theorem assertEntry_recorded (time : Timestamp) (b : Books) (e : BalanceEntry) :
    assertEntry time b.recorded e = (assertEntry time b e).map recordedToo := by
  rw [assertEntry, assertEntry]
  split
  · next money cash =>
    have drift : b.recorded.drift? time e money = b.drift? time e money := by
      rw [drift?, drift?, recorded, Registry.get?_recorded]
      cases b.accounts.get? e.account <;> rfl
    rw [drift]
    exact congrArg (fun next => Except.ok (next, _)) (balance_recorded b e.account money.amount).symm
  · rw [modifyPosition_recorded fun _ => rfl]
    exact map_bind_eq_map_bind fun _ => rfl

theorem assertEntries_recorded (time : Timestamp) (b : Books) (entries : List BalanceEntry) :
    assertEntries time b.recorded entries = (assertEntries time b entries).map recordedToo := by
  induction entries generalizing b with
  | nil => rfl
  | cons e rest ih =>
    rw [assertEntries, assertEntries, assertEntry_recorded]
    refine map_bind_eq_map_bind fun next => ?_
    show assertEntries time next.1.recorded rest >>= _ = _
    rw [ih]
    exact map_bind_eq_map_bind fun _ => rfl

/-! ### Transactions -/

theorem equity_recorded (b : Books) (t : Transaction) :
    b.recorded.equity t = (b.equity t).map recordedToo := by
  rw [equity, equity]
  refine bind_eq_map_bind fun m => bind_eq_map_bind fun price => ?_
  rw [credit_recorded]
  refine map_bind_eq_map_bind fun b₁ => ?_
  rw [credit_recorded]
  refine map_bind_eq_map_bind fun b₂ => ?_
  dsimp only
  rw [modifyPosition_recorded (recordAt_recorded _ _ _)]
  refine map_bind_eq_map_bind fun b₃ => ?_
  split
  · rw [modifyPosition_recorded (recordAt_recorded _ _ _)]
    exact map_bind_eq_map_bind fun _ => rfl
  · rfl

theorem dividend_recorded (b : Books) (t : Transaction) (company : String) :
    b.recorded.dividend t company = (b.dividend t company).map recorded := by
  rw [dividend, dividend]
  refine bind_eq_map_bind fun source => bind_eq_map_bind fun cash => bind_eq_map_bind fun paid => ?_
  dsimp only
  rw [check_recorded, checkPosition_recorded]
  refine map_bind_eq_map_bind fun _ => map_bind_eq_map_bind fun holder => ?_
  refine bind_eq_map_bind fun earned => ?_
  rw [credit_recorded]
  refine map_bind_eq_map_bind fun b₁ => ?_
  refine modifyPosition_recorded (fun p => ?_) b₁ source company
  rw [addDividend_recorded]
  cases p.addDividend earned.amount <;> rfl

theorem transaction_recorded (b : Books) (t : Transaction) :
    b.recorded.transaction t = (b.transaction t).map recordedToo := by
  rw [transaction, transaction]
  split
  · rfl
  · split
    case h_4 =>
      rw [checkLegs_recorded]
      exact bind_eq_map_bind fun _ => equity_recorded b t
    case h_5 =>
      rw [dividend_recorded]
      exact map_bind_eq_map_bind fun _ => rfl
    all_goals
      rw [checkLegs_recorded, creditLegs_recorded]
      exact bind_eq_map_bind fun _ => map_bind_eq_map_bind fun _ => rfl

/-! ### Items -/

/-- **Applying an item does not read derived figures**: without them it fails alike, or comes to the same
without them. -/
theorem apply_recorded (o : Options) (b : Books) (i : Item) :
    b.recorded.apply o i = (b.apply o i).map recordedToo := by
  cases i with
  | rates r =>
    rw [apply, apply, setRates, setRates]
    split <;> rfl
  | balance s =>
    rw [apply, apply]
    split
    · rfl
    · rw [balance, balance, checkEntries_recorded]
      exact bind_eq_map_bind fun _ => assertEntries_recorded s.timestamp b s.entries
  | transaction t =>
    rw [apply, apply]
    split
    · rfl
    · exact transaction_recorded b t
  | _ => rfl

theorem result_recorded (o : Options) (b : Books) (items : List Item) :
    (foldTelling (apply o) b.recorded items).result
      = (foldTelling (apply o) b items).result.map recorded := by
  induction items generalizing b with
  | nil => rfl
  | cons i rest ih =>
    rw [foldTelling, foldTelling, apply_recorded]
    cases b.apply o i with
    | error e => rfl
    | ok next => exact ih next.1

/-- Books that differ in their derived figures only go the same way. -/
theorem result_map_recorded_eq {b' : Books} (same : b.recorded = b'.recorded) (o : Options)
    (items : List Item) :
    (foldTelling (apply o) b items).result.map recorded
      = (foldTelling (apply o) b' items).result.map recorded := by
  rw [← result_recorded, ← result_recorded, same]

end Books

/-! ### What counts in between -/

/-- The item is replayed by one time, but not yet by an earlier one. -/
def Item.countsBetween (start stop : Timestamp) (i : Item) : Bool :=
  i.isReplayed && (decide (start < i.effectiveDate) && decide (i.effectiveDate ≤ stop))

theorem foldl_ratesAfter_of_late {o : Options} {items : List Item} (gated : o.ratePolicy = .gated)
    (late : ∀ i ∈ items, i.countsAt o.now = false) (rates : Basket) :
    items.foldl (Item.ratesAfter o) rates = rates := by
  have none : (items.filterMap Item.rateSet?).filter (fun r => decide (r.timestamp ≤ o.now)) = [] := by
    refine List.filter_eq_nil_iff.2 fun r mem => ?_
    obtain ⟨i, mem, set⟩ := List.mem_filterMap.1 mem
    cases i with
    | rates r' =>
      cases set
      have isLate : ¬ r.timestamp ≤ o.now := of_decide_eq_false (late (.rates r) mem)
      simpa using isLate
    | _ => cases set
  rw [foldl_ratesAfter_of_gated gated, none]
  rfl

/-- If later rates do not count either, a replay is a replay of what counts. -/
theorem result_replay_of_gated {o : Options} (gated : o.ratePolicy = .gated) (b : Books)
    (items : List Item) :
    (replay o b items).result
      = (foldTelling (Books.apply o) b ((chronological items).filter (Item.countsAt o.now))).result := by
  have parts := eq_append_of_pairwise_countsBy (pairwise_chronological items) o.now
  have late : ∀ i ∈ (chronological items).filter fun i => !i.countsAt o.now, i.countsAt o.now = false :=
    fun i mem => by simpa using (List.mem_filter.1 mem).2
  rw [replay]
  generalize chronological items = sorted at parts late
  conv => lhs; rw [parts, result_foldTelling_append]
  cases (foldTelling (Books.apply o) b (sorted.filter (Item.countsAt o.now))).result with
  | error e => rfl
  | ok next =>
    show (foldTelling (Books.apply o) next _).result = _
    rw [Books.result_of_not_countsAt late, foldl_ratesAfter_of_late gated late]
    rfl

/-- What counts by a time is what counts by an earlier one, and then what counts in between. -/
theorem filter_countsAt_eq_append {start stop : Timestamp} (h : start ≤ stop) (items : List Item) :
    (chronological items).filter (Item.countsAt stop)
      = (chronological items).filter (Item.countsAt start)
        ++ (chronological items).filter
            fun i => decide (start < i.effectiveDate) && decide (i.effectiveDate ≤ stop) := by
  have parts := eq_append_of_pairwise_countsBy
    ((pairwise_chronological items).filter (Item.countsAt stop)) start
  rw [List.filter_filter, List.filter_filter] at parts
  have early : (chronological items).filter (fun i => i.countsAt start && i.countsAt stop)
      = (chronological items).filter (Item.countsAt start) := by
    refine List.filter_congr fun i _ => ?_
    have := fun counts : i.effectiveDate ≤ start => Timestamp.le_trans counts h
    by_cases counts : i.effectiveDate ≤ start <;> simp [Item.countsAt, counts, this]
  have between : (chronological items).filter (fun i => !i.countsAt start && i.countsAt stop)
      = (chronological items).filter
          fun i => decide (start < i.effectiveDate) && decide (i.effectiveDate ≤ stop) := by
    refine List.filter_congr fun i _ => ?_
    simp [Item.countsAt, ← Timestamp.not_lt]
  rwa [early, between] at parts

theorem result_replay_countsBetween (o : Options) (b : Books) (start : Timestamp) (items : List Item) :
    (replay o b (items.filter (Item.countsBetween start o.now))).result
      = (foldTelling (Books.apply o) b ((chronological items).filter fun i =>
          decide (start < i.effectiveDate) && decide (i.effectiveDate ≤ o.now))).result := by
  have parts : (chronological items).filter (Item.countsBetween start o.now)
      = ((chronological items).filter fun i =>
          decide (start < i.effectiveDate) && decide (i.effectiveDate ≤ o.now)).filter
            Item.isReplayed := by
    rw [List.filter_filter]
    rfl
  rw [replay, chronological_filter, parts,
    foldTelling_filter Item.isReplayed fun _ _ other => apply_eq_of_not_isReplayed other]

/-- A replay for a later time goes on where the one for an earlier time ends, with what counts in
between. -/
theorem result_replay_of_le {o : Options} {later : Timestamp} (gated : o.ratePolicy = .gated)
    (h : o.now ≤ later) {b books : Books} {items : List Item}
    (played : (replay o b items).result = .ok books) :
    (replay { o with now := later } b items).result
      = (replay { o with now := later } books (items.filter (Item.countsBetween o.now later))).result := by
  rw [result_replay_of_gated gated] at played
  -- What counts by the earlier time is replayed alike for the later one.
  have early : foldTelling (Books.apply { o with now := later }) b
        ((chronological items).filter (Item.countsAt o.now))
      = foldTelling (Books.apply o) b ((chronological items).filter (Item.countsAt o.now)) := by
    refine Books.foldTelling_eq_of_countsAt (fun i mem => ?_) (fun i mem => (List.mem_filter.1 mem).2) b
    have counts : i.effectiveDate ≤ o.now := of_decide_eq_true (List.mem_filter.1 mem).2
    exact decide_eq_true (Timestamp.le_trans counts h)
  rw [result_replay_countsBetween { o with now := later },
    result_replay_of_gated (o := { o with now := later }) gated]
  show (foldTelling _ b ((chronological items).filter (Item.countsAt later))).result = _
  rw [filter_countsAt_eq_append h, result_foldTelling_append, early, played]
  rfl

/-! ### Ledgers -/

namespace Ledger

/-- A ledger taken on to a later time: what counts after its time and by the later one is replayed on its
accounts and its rates, and figures are worked out again. -/
def resume (o : Options) (items : List Item) (l : Ledger) : Except Error Ledger := do
  let books ← (replay o ⟨l.accounts, l.basket⟩ (items.filter (Item.countsBetween l.now o.now))).result
  let accounts ← books.accounts.revalue o.costBasis
  .ok { l with accounts, basket := books.basket, now := o.now }

end Ledger

/-- **A ledger can be taken on.** If later rates do not count, a computation for a later time comes to
the same as taking on the ledger of an earlier time, or it fails with the same error. -/
theorem compute_eq_resume {o : Options} {items : List Item} {l : Ledger} {later : Timestamp}
    (gated : o.ratePolicy = .gated) (h : o.now ≤ later)
    (computed : (Ledger.compute o items).result = .ok l) :
    (Ledger.compute { o with now := later } items).result = l.resume { o with now := later } items := by
  simp only [Ledger.result_compute, bind_eq_ok_iff, Except.ok.injEq] at computed
  obtain ⟨config, settings, registry, opened, books, played, accounts, revalued, rfl⟩ := computed
  rw [Ledger.result_compute, settings, opened, Ledger.resume]
  show (replay { o with now := later } ⟨registry, .empty⟩ items).result >>= _
    = (replay _ ⟨accounts, books.basket⟩ (items.filter (Item.countsBetween o.now later))).result >>= _
  rw [result_replay_of_le gated h played]
  have sameStart : books.recorded = (⟨accounts, books.basket⟩ : Books).recorded := by
    rw [Books.recorded, Books.recorded, Registry.recorded_of_revalue revalued]
  refine bind_eq_bind_of_map_eq (Books.result_map_recorded_eq sameStart _ _) fun b b' same => ?_
  obtain ⟨sameAccounts, sameBasket⟩ := Books.mk.inj same
  rw [← Registry.revalue_recorded, ← Registry.revalue_recorded b'.accounts, sameAccounts, sameBasket]
  rfl

/-- The household's ledger of February, taken on to April, has the dividend of March in it. -/
theorem resume_of_houseItems :
    ∃ l, (Ledger.compute { houseOptions with ratePolicy := .gated, now := day2021 2 1 } houseItems).result
        = .ok l ∧
      (Ledger.compute { houseOptions with ratePolicy := .gated } houseItems).result
        = l.resume { houseOptions with ratePolicy := .gated } houseItems := by
  have computed : (Ledger.compute { houseOptions with ratePolicy := .gated, now := day2021 2 1 }
      houseItems).result.toOption.isSome := by
    simp only [Ledger.compute, replay, chronological_houseItems]
    decide +kernel
  obtain ⟨l, computed⟩ := Option.isSome_iff_exists.1 computed
  have computed := toOption_eq_some_iff.1 computed
  exact ⟨l, computed, compute_eq_resume rfl (by decide) computed⟩

end Daybook
