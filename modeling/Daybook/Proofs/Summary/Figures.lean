import Daybook.Proofs.Journal.Signs
import Daybook.Proofs.Replay.Rates
import Daybook.Proofs.Summary.Collected
import Daybook.Summary.Budget

/-!
# Figures of a period

Three figures of a summary are not checked for where they are worked out: the difference of revenues and
expenses, the expenses of a day, and what may be spent on a day. In the ledger of a journal they need no
check (`figures_of_parse`). Expenses are without sign, and revenues go to legs that are not below zero, so
that both sums are not below zero and their difference fits; and there is at least one day to divide by.
-/

namespace Daybook

open PeriodSummary

/-! ### Revenues -/

/-- Only what is written as revenue, or paid as a dividend, is booked as revenue. -/
theorem nonneg_outs_of_items {w : Written} {block : List Item} {t : Transaction} (complete : w.Complete)
    (h : w.items = .ok block) (mem : .transaction t ∈ block) (kind : t.kind = .revenue) :
    ∀ leg ∈ t.outs, leg.isOwned = true → .zero ≤ leg.value := by
  -- What is out of order is a transfer.
  rcases (signed_of_items complete h).1 t mem with signed | ⟨other, _⟩
  · exact signed.outs
  · rw [kind] at other
    cases other

theorem nonneg_outs_of_parse {lines : List Line} {j : Journal} (h : Journal.parse lines = .ok j)
    {t : Transaction} (mem : .transaction t ∈ j.items) (kind : t.kind = .revenue) :
    ∀ leg ∈ t.outs, leg.isOwned = true → .zero ≤ leg.value := by
  obtain ⟨w, written, block, booked, mem, _⟩ := Written.exists_of_mem_allItems (allItems_written h) mem
  exact nonneg_outs_of_items (complete_of_mem_written written) booked mem kind

section

variable {lines : List Line} {j : Journal} {o : Options} {l : Ledger} {t : Transaction} {value : Decimal}

theorem nonneg_valueOf (read : Journal.parse lines = .ok j) (computed : (Ledger.compute o j.items).result = .ok l)
    {money : Money} (nonneg : .zero ≤ money.amount) (h : valueOf l t money = .ok value) : .zero ≤ value := by
  simp only [valueOf, map_eq_ok_iff, mapError_eq_ok_iff] at h
  obtain ⟨converted, h, rfl⟩ := h
  exact nonneg_convert_of_parse read computed nonneg h

theorem nonneg_postings (read : Journal.parse lines = .ok j)
    (computed : (Ledger.compute o j.items).result = .ok l) {postings : List (AccountRef × Money)}
    {total : Decimal} (start : .zero ≤ total) (nonneg : ∀ p ∈ postings, .zero ≤ p.2.amount)
    (h : postings.foldlM (fun total posting => do
      let value ← valueOf l t posting.2
      orError (total.add value) (.overflow t.location)) total = .ok value) : .zero ≤ value := by
  induction postings generalizing total with
  | nil =>
    cases h
    exact start
  | cons p rest ih =>
    simp only [List.foldlM_cons, bind_eq_ok_iff, orError_eq_ok_iff] at h
    obtain ⟨next, ⟨amount, worth, sum⟩, h⟩ := h
    have first := nonneg_valueOf read computed (nonneg p List.mem_cons_self) worth
    apply ih (Decimal.nonneg_add start first sum) _ h
    intro q mem
    exact nonneg q (List.mem_cons_of_mem _ mem)

/-- Revenue counts as something that is not below zero, whatever it is converted from. -/
theorem nonneg_ownedValue (read : Journal.parse lines = .ok j)
    (computed : (Ledger.compute o j.items).result = .ok l) (mem : .transaction t ∈ j.items)
    (kind : t.kind = .revenue) (h : ownedValue l t t.outs = .ok value) : .zero ≤ value := by
  apply nonneg_postings read computed (Int.le_refl 0) _ h
  intro p posted
  obtain ⟨leg, inOuts, posted⟩ := List.mem_filterMap.1 posted
  have owned : leg.isOwned = true := by
    rw [Leg.isOwned, Leg.account?, (Leg.of_posting? posted).1]
    rfl
  have nonneg := nonneg_outs_of_parse read mem kind leg inOuts owned
  rwa [Leg.value_of_posting? posted] at nonneg

theorem nonneg_expenseValue (h : expenseValue l t = .ok value) : .zero ≤ value := by
  rw [expenseValue, map_eq_ok_iff] at h
  obtain ⟨spent, _, rfl⟩ := h
  exact Decimal.nonneg_abs spent

/-- The two sums of a summary are not below zero. -/
theorem nonneg_of_collect (read : Journal.parse lines = .ok j)
    (computed : (Ledger.compute o j.items).result = .ok l) {start stop : Timestamp} {s : PeriodSummary}
    (h : collect l j.items start stop = .ok s) : .zero ≤ s.expenses ∧ .zero ≤ s.revenues := by
  obtain ⟨revenues, expenses⟩ := sums_of_collect h
  have valued {kind : TransactionKind} {worth : Transaction → Except Error Decimal} {v : Decimal}
      (mem : v ∈ j.items.filterMap (Item.valueIn? l start stop kind worth)) :
      ∃ t, .transaction t ∈ j.items ∧ t.kind = kind ∧ worth t = .ok v := by
    obtain ⟨i, inItems, counts⟩ := List.mem_filterMap.1 mem
    cases i with
    | transaction t =>
      rw [Item.valueIn?] at counts
      split at counts
      · next covered => exact ⟨t, inItems, covered.2, toOption_eq_some_iff.1 counts⟩
      · cases counts
    | _ => cases counts
  constructor
  · apply Decimal.nonneg_foldlM_add (Int.le_refl 0) _ expenses
    intro v mem
    obtain ⟨t, _, _, worth⟩ := valued mem
    exact nonneg_expenseValue worth
  · apply Decimal.nonneg_foldlM_add (Int.le_refl 0) _ revenues
    intro v mem
    obtain ⟨t, inItems, kind, worth⟩ := valued mem
    exact nonneg_ownedValue read computed inItems kind worth

end

/-! ### Days -/

namespace Date

theorem daysBeforeMonth_le (year : Int) (month : Nat) : daysBeforeMonth year month ≤ 31 * month := by
  induction month with
  | zero => exact Nat.le_refl 0
  | succ month ih =>
    cases month with
    | zero => exact Nat.zero_le _
    | succ month =>
      have days : daysInMonth year (month + 1) ≤ 31 := by
        rw [daysInMonth]
        repeat' split
        all_goals decide
      rw [daysBeforeMonth]
      omega

/-- The calendar has less than two hundred million days. -/
theorem number_bounds (d : Date) : -100000000 < d.number ∧ d.number < 100000000 := by
  obtain ⟨first, last⟩ := d.year_le
  have months := d.month_le
  have before := daysBeforeMonth_le d.year d.month
  have day : d.day ≤ 31 := by
    apply Nat.le_trans d.day_le.2
    rw [daysInMonth]
    repeat' split
    all_goals decide
  simp only [number, daysBeforeYear]
  omega

end Date

theorem Timestamp.natAbs_daysUntil_lt (start stop : Timestamp) :
    (start.daysUntil stop).natAbs < 1000000000 := by
  have ofStart := Date.number_bounds start.date
  have ofStop := Date.number_bounds stop.date
  have := start.hour_lt
  have := start.minute_lt
  have := stop.hour_lt
  have := stop.minute_lt
  rw [daysUntil, Int.natAbs_tdiv]
  apply Nat.div_lt_of_lt_mul
  simp only [minutes]
  omega

/-- A summary has at least one day, and no more than can be counted. -/
theorem PeriodSummary.days_bounds (s : PeriodSummary) : 1 ≤ s.days ∧ s.days < Decimal.limit := by
  have most := Timestamp.natAbs_daysUntil_lt s.start s.stop
  rw [days, Decimal.limit]
  omega

theorem Budget.daysLeft_bounds {today : Date} {days : Nat} (h : daysLeft today = .ok days) :
    1 ≤ days ∧ days < Decimal.limit := by
  rw [daysLeft] at h
  obtain ⟨next, _, same⟩ := bind_eq_ok_iff.1 h
  have ofToday := Date.number_bounds today
  have ofNext := Date.number_bounds next
  cases same
  rw [Decimal.limit]
  omega

/-! ### Figures -/

theorem PeriodSummary.exists_perDay {days : Nat} (amount : Decimal) (bounds : 1 ≤ days ∧ days < Decimal.limit) :
    ∃ share, perDay amount days = .ok share := by
  obtain ⟨share, divided⟩ := Decimal.exists_share amount bounds.1 bounds.2
  exact ⟨share, orError_eq_ok_iff.2 divided⟩

/-- What may be spent on a day is known wherever there is a next month, if what is left is. -/
theorem Budget.dailyCap_of_available {b : Budget} {s : PeriodSummary} {left : Decimal}
    (available : b.available s = .ok left) (now : Timestamp) :
    (∃ days cap, daysLeft now.date = .ok days ∧ 1 ≤ days ∧ b.dailyCap s now = .ok cap) ∨
      now.date.nextMonthStart? = none ∧ b.dailyCap s now = .error (.plain (.noNextMonth now.date)) := by
  cases counted : daysLeft now.date with
  | ok days =>
    have bounds := daysLeft_bounds counted
    obtain ⟨cap, divided⟩ := PeriodSummary.exists_perDay left bounds
    refine .inl ⟨days, cap, rfl, bounds.1, ?_⟩
    rw [dailyCap, counted, available]
    exact divided
  | error e =>
    right
    have last : now.date.nextMonthStart? = none ∧ e = .plain (.noNextMonth now.date) := by
      rw [daysLeft, nextMonth] at counted
      cases next : now.date.nextMonthStart? with
      | none =>
        rw [next] at counted
        cases counted
        exact ⟨rfl, rfl⟩
      | some day =>
        rw [next] at counted
        cases counted
    refine ⟨last.1, ?_⟩
    rw [dailyCap, counted, last.2]
    rfl

/-- **The figures of a period need no check**, in the ledger of a journal and for every window and every
month. Expenses and revenues are not below zero, and their difference fits. The expenses of a day and what
may be spent on a day divide by one day at least and fit as well: only the last month of the calendar has
no next one, and that is told. -/
theorem figures_of_parse {lines : List Line} {j : Journal} {o : Options} {l : Ledger} {s : PeriodSummary}
    (read : Journal.parse lines = .ok j) (computed : (Ledger.compute o j.items).result = .ok l)
    (collected : (∃ start stop, collect l j.items start stop = .ok s) ∨
      ∃ time, month l j.items time = .ok s) :
    .zero ≤ s.expenses ∧ .zero ≤ s.revenues ∧ (∃ net, s.net = .ok net) ∧
      (1 ≤ s.days ∧ ∃ average, s.dailyAverage = .ok average) ∧
      ∀ (b : Budget) (left : Decimal), b.available s = .ok left → ∀ now,
        (∃ days cap, Budget.daysLeft now.date = .ok days ∧ 1 ≤ days ∧ b.dailyCap s now = .ok cap) ∨
          now.date.nextMonthStart? = none ∧ b.dailyCap s now = .error (.plain (.noNextMonth now.date)) := by
  -- A month is a window.
  obtain ⟨start, stop, collected⟩ : ∃ start stop, collect l j.items start stop = .ok s := by
    rcases collected with window | ⟨time, ofMonth⟩
    · exact window
    · obtain ⟨next, _, ofMonth⟩ := bind_eq_ok_iff.1 ofMonth
      exact ⟨_, _, ofMonth⟩
  obtain ⟨expenses, revenues⟩ := nonneg_of_collect read computed collected
  obtain ⟨net, difference⟩ := Decimal.exists_sub revenues expenses
  refine ⟨expenses, revenues, ⟨net, orError_eq_ok_iff.2 difference⟩, ?_, ?_⟩
  · exact ⟨s.days_bounds.1, PeriodSummary.exists_perDay s.expenses s.days_bounds⟩
  · intro b left available now
    exact Budget.dailyCap_of_available available now

/-- In January the household earns its salary and pays a fee, and is left with most of its budget. -/
theorem figures_of_houseBook :
    ∃ j l s, Journal.parse houseBook = .ok j ∧ (Ledger.compute houseOptions j.items).result = .ok l ∧
      month l j.items (day2021 1 15) = .ok s ∧ .zero < s.expenses ∧ .zero < s.revenues ∧
      (∃ net, s.net = .ok net) ∧ (∃ average, s.dailyAverage = .ok average) ∧
      ∃ cap, (Budget.fixed (usd 1000).amount).dailyCap s (day2021 1 15) = .ok cap := by
  obtain ⟨j, read, items⟩ := exists_journal_of_houseBook
  have computed : ∃ l ∈ (Ledger.compute houseOptions houseItems).result.toOption,
      (month l houseItems (day2021 1 15)).toOption
        = some ⟨.usd, day2021 1 1, day2021 2 1, .ofNat 5, .ofNat 3000⟩ := by
    simp only [Ledger.compute, replay, chronological_houseItems]
    decide +kernel
  obtain ⟨l, computed, collected⟩ := computed
  have computed := toOption_eq_some_iff.1 computed
  have collected := toOption_eq_some_iff.1 collected
  rw [← items] at computed collected
  obtain ⟨_, _, net, ⟨_, average⟩, caps⟩ := figures_of_parse read computed (.inr ⟨_, collected⟩)
  refine ⟨j, l, _, read, computed, collected, by decide, by decide, net, average, ?_⟩
  rcases caps (.fixed (usd 1000).amount) (.ofNat 995) rfl (day2021 1 15) with ⟨_, cap, _, _, known⟩ | ⟨last, _⟩
  · exact ⟨cap, known⟩
  · exact absurd last (by decide)

/-- A hand-made summary may well be without a difference. -/
example : PeriodSummary.net
    { currency := .usd, start := .epoch, stop := .epoch
      expenses := .ofNat (Decimal.limit - 1), revenues := (Decimal.ofNat 1).neg }
      = .error (.plain .differenceOverflow) := by
  decide +kernel

end Daybook
