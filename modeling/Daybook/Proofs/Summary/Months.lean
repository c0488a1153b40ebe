import Daybook.Proofs.Replay.Balance
import Daybook.Proofs.Summary.Collected
import Mathlib.Algebra.BigOperators.Fin

/-!
# Months tile time

A period includes its beginning and excludes its end, so two periods side by side share nothing and leave
nothing out: as long as no sum is rounded, the whole of them sums up to what the two sum up to, in whatever
order the items come (`units_of_collect_add`). Months lie side by side (`isMonthOf_of_month`), and twelve
of them are a year (`units_of_twelve_months`).
-/

namespace Daybook

open PeriodSummary

/-! ### Months of the calendar -/

namespace Date

/-- The number of the month of a day: consecutive months have consecutive numbers. -/
def monthNumber (d : Date) : Int := d.year * 12 + d.month

theorem day_le_31 (d : Date) : d.day ≤ 31 := by
  have few : daysInMonth d.year d.month ≤ 31 := by
    unfold daysInMonth
    split
    · split <;> decide
    · split <;> decide
  exact Nat.le_trans d.day_le.2 few

/-- A day is given by its month, and by its number in the month. -/
theorem eq_of_monthNumber_eq {d e : Date} (month : d.monthNumber = e.monthNumber) (day : d.day = e.day) :
    d = e := by
  have first := d.month_le
  have second := e.month_le
  have years : d.year = e.year := by
    unfold monthNumber at month
    omega
  have months : d.month = e.month := by
    unfold monthNumber at month
    omega
  cases d
  cases e
  cases years
  cases months
  cases day
  rfl

/-- The first day of a month. -/
theorem eq_monthStart {d e : Date} (month : d.monthNumber = e.monthNumber) (first : d.day = 1) :
    d = e.monthStart :=
  eq_of_monthNumber_eq month first

theorem of_nextMonthStart? {d next : Date} (h : d.nextMonthStart? = some next) :
    next.monthNumber = d.monthNumber + 1 ∧ next.day = 1 := by
  unfold nextMonthStart? at h
  split at h
  -- December is the last of the twelve months of its year.
  · next december =>
    simp only [ofParts?, Option.dite_none_right_eq_some, Option.some.injEq] at h
    obtain ⟨_, rfl⟩ := h
    refine ⟨?_, rfl⟩
    simp only [monthNumber, december]
    omega
  · simp only [ofParts?, Option.dite_none_right_eq_some, Option.some.injEq] at h
    obtain ⟨_, rfl⟩ := h
    refine ⟨?_, rfl⟩
    simp only [monthNumber]
    omega

end Date

/-- A time is in a month if it is neither before its first day nor after its last. -/
theorem Timestamp.isWithin_month_iff {d next : Date} (first : d.day = 1) (nextFirst : next.day = 1)
    (consecutive : next.monthNumber = d.monthNumber + 1) (t : Timestamp) :
    (midnight d ≤ t ∧ t < midnight next) ↔ t.date.monthNumber = d.monthNumber := by
  have early := t.date.day_le.1
  have late := t.date.day_le_31
  have hour := t.hour_lt
  have minute := t.minute_lt
  unfold Date.monthNumber at *
  show (midnight d).slot ≤ t.slot ∧ t.slot < (midnight next).slot ↔ _
  simp only [slot, midnight, first, nextFirst]
  omega

/-! ### Periods side by side -/

section

variable {l : Ledger} {items : List Item} {start mid stop : Timestamp} {kind : TransactionKind}
  {value : Transaction → Except Error Decimal}

theorem covers_of_lt {t : Transaction} (start : Timestamp) (late : mid ≤ stop)
    (before : t.effectiveDate < mid) :
    covers l start stop t = covers l start mid t ∧ covers l mid stop t = false := by
  have inside : t.effectiveDate < stop := Int.lt_of_lt_of_le before late
  have outside : ¬ mid ≤ t.effectiveDate := Int.not_le.2 before
  simp [covers, before, inside, outside]

theorem covers_of_le {t : Transaction} (stop : Timestamp) (early : start ≤ mid)
    (after : mid ≤ t.effectiveDate) :
    covers l start stop t = covers l mid stop t ∧ covers l start mid t = false := by
  have inside : start ≤ t.effectiveDate := Int.le_trans early after
  have outside : ¬ t.effectiveDate < mid := Int.not_lt.2 after
  simp [covers, after, inside, outside]

/-- What counts in a period counts in one of two halves, and not in the other. -/
theorem units_of_valueIn?_halves (early : start ≤ mid) (late : mid ≤ stop) (i : Item) :
    Decimal.unitsOf (i.valueIn? l start stop kind value).toList
      = Decimal.unitsOf (i.valueIn? l start mid kind value).toList
        + Decimal.unitsOf (i.valueIn? l mid stop kind value).toList := by
  cases i with
  | transaction t =>
    by_cases before : t.effectiveDate < mid
    · obtain ⟨same, none⟩ := covers_of_lt (l := l) start late before
      simp [Item.valueIn?, same, none]
    · obtain ⟨same, none⟩ := covers_of_le (l := l) stop early (Int.not_lt.1 before)
      simp [Item.valueIn?, same, none]
  | _ => rfl

theorem units_of_valueIn?_add (early : start ≤ mid) (late : mid ≤ stop) :
    Decimal.unitsOf (items.filterMap (Item.valueIn? l start stop kind value))
      = Decimal.unitsOf (items.filterMap (Item.valueIn? l start mid kind value))
        + Decimal.unitsOf (items.filterMap (Item.valueIn? l mid stop kind value)) := by
  induction items with
  | nil => rfl
  | cons i rest ih =>
    simp only [filterMap_cons_eq_append, Decimal.unitsOf_append]
    rw [ih, units_of_valueIn?_halves early late i]
    omega

variable {s : PeriodSummary}

/-- Where no sum is rounded, the order of the items does not matter to a summary. -/
theorem units_of_collect_perm {ordered : List Item} (order : ordered.Perm items)
    (h : collect l ordered start stop = .ok s) (exact : SumsExactly l start stop ordered) :
    s.revenues.units = Decimal.unitsOf (items.filterMap (Item.revenueIn? l start stop)) ∧
      s.expenses.units = Decimal.unitsOf (items.filterMap (Item.expenseIn? l start stop)) := by
  obtain ⟨revenues, expenses⟩ := sums_of_collect h
  rw [Decimal.units_of_sum exact.revenues revenues, Decimal.units_of_sum exact.expenses expenses]
  exact ⟨Decimal.unitsOf_perm (order.filterMap _), Decimal.unitsOf_perm (order.filterMap _)⟩

/-- Summaries are additive: two periods side by side sum up to what the whole of them sums up to. -/
theorem units_of_collect_add {first second : List Item} {earlier later whole : PeriodSummary}
    (early : start ≤ mid) (late : mid ≤ stop)
    (firstOrder : first.Perm items) (secondOrder : second.Perm items)
    (inFirst : collect l first start mid = .ok earlier)
    (inSecond : collect l second mid stop = .ok later) (inWhole : collect l items start stop = .ok whole)
    (firstExact : SumsExactly l start mid first) (secondExact : SumsExactly l mid stop second)
    (wholeExact : SumsExactly l start stop items) :
    whole.expenses.units = earlier.expenses.units + later.expenses.units ∧
      whole.revenues.units = earlier.revenues.units + later.revenues.units := by
  obtain ⟨wholeRevenues, wholeExpenses⟩ := units_of_collect_perm (.refl items) inWhole wholeExact
  obtain ⟨firstRevenues, firstExpenses⟩ := units_of_collect_perm firstOrder inFirst firstExact
  obtain ⟨secondRevenues, secondExpenses⟩ := units_of_collect_perm secondOrder inSecond secondExact
  rw [wholeRevenues, wholeExpenses, firstRevenues, firstExpenses, secondRevenues, secondExpenses]
  exact ⟨units_of_valueIn?_add early late, units_of_valueIn?_add early late⟩

/-! ### Months -/

/-- What makes a summary the one of the month of a time. -/
structure IsMonthOf (l : Ledger) (items : List Item) (time : Timestamp) (s : PeriodSummary) : Prop where
  within : s.start ≤ time ∧ time < s.stop
  start : s.start = .midnight time.date.monthStart
  /-- It stops where the next month starts, whichever time of that month is asked for. -/
  stop : ∀ later : Timestamp, later.date.monthNumber = time.date.monthNumber + 1 →
    s.stop = .midnight later.date.monthStart ∧
      ∀ next, month l items later = .ok next → next.start = s.stop
  /-- What counts in it is what is effective in that month of the calendar, and in no other. -/
  covers : ∀ t : Transaction, covers l s.start s.stop t = true ↔
    t.effectiveDate.date.monthNumber = time.date.monthNumber ∧ t.effectiveDate ≤ l.now

variable {time : Timestamp}

theorem period_of_foldlM {s s' : PeriodSummary} (h : items.foldlM (addItem l) s = .ok s') :
    s'.start = s.start ∧ s'.stop = s.stop := by
  induction items generalizing s with
  | nil =>
    cases h
    exact ⟨rfl, rfl⟩
  | cons i rest ih =>
    rw [List.foldlM_cons, bind_eq_ok_iff] at h
    obtain ⟨next, added, h⟩ := h
    obtain ⟨_, _, start, stop⟩ := addItem_ok added
    rw [← start, ← stop]
    exact ih h

/-- The month of a time is collected, from the first of the month to the first of the next one. -/
theorem exists_of_month (h : month l items time = .ok s) :
    collect l items s.start s.stop = .ok s ∧ s.start = .midnight time.date.monthStart ∧
      ∃ next : Date, s.stop = .midnight next ∧ next.day = 1 ∧
        next.monthNumber = time.date.monthNumber + 1 := by
  rw [month, bind_eq_ok_iff] at h
  obtain ⟨next, following, h⟩ := h
  rw [nextMonth, orError_eq_ok_iff] at following
  obtain ⟨number, day⟩ := Date.of_nextMonthStart? following
  obtain ⟨start, stop⟩ := period_of_foldlM h
  refine ⟨?_, start, next, stop, day, number⟩
  rw [start, stop]
  exact h

/-- **Months lie side by side**: each has its times, starts with its first day and stops where the next
starts. -/
theorem isMonthOf_of_month (h : month l items time = .ok s) : IsMonthOf l items time s := by
  obtain ⟨_, start, next, stop, first, number⟩ := exists_of_month h
  have within : ∀ t : Timestamp, s.start ≤ t ∧ t < s.stop ↔ t.date.monthNumber = time.date.monthNumber := by
    intro t
    rw [start, stop]
    exact Timestamp.isWithin_month_iff (d := time.date.monthStart) rfl first number t
  refine ⟨(within time).2 rfl, start, ?_, ?_⟩
  · intro later follows
    have same : next = later.date.monthStart := Date.eq_monthStart (number.trans follows.symm) first
    rw [stop, same]
    refine ⟨rfl, fun following h => ?_⟩
    exact (exists_of_month h).2.1
  · intro t
    rw [← within, PeriodSummary.covers, Bool.and_eq_true, Bool.and_eq_true, decide_eq_true_eq,
      decide_eq_true_eq, decide_eq_true_eq]

/-! ### Years -/

/-- Periods one after the other sum up to what the whole of them sums up to. -/
theorem units_of_valueIn?_sum {n : Nat} {periods : Fin (n + 1) → PeriodSummary}
    (forward : ∀ i, (periods i).start ≤ (periods i).stop)
    (next : ∀ i : Fin n, (periods i.succ).start = (periods i.castSucc).stop) :
    (periods 0).start ≤ (periods (Fin.last n)).stop ∧
      Decimal.unitsOf (items.filterMap
          (Item.valueIn? l (periods 0).start (periods (Fin.last n)).stop kind value))
        = ∑ i, Decimal.unitsOf (items.filterMap
            (Item.valueIn? l (periods i).start (periods i).stop kind value)) := by
  induction n with
  | zero =>
    refine ⟨forward 0, ?_⟩
    rw [Fin.sum_univ_one]
    rfl
  | succ n ih =>
    -- The first period, and the others after it.
    have others : ∀ i : Fin n, (periods i.succ.succ).start = (periods i.castSucc.succ).stop :=
      fun i => next i.succ
    obtain ⟨later, sum⟩ := ih (fun i => forward i.succ) others
    have side : (periods 1).start = (periods 0).stop := next 0
    have later : (periods 0).stop ≤ (periods (Fin.last (n + 1))).stop := by
      rw [← side]
      exact later
    refine ⟨Int.le_trans (forward 0) later, ?_⟩
    rw [Fin.sum_univ_succ, ← sum, units_of_valueIn?_add (forward 0) later]
    show _ = _ + Decimal.unitsOf (items.filterMap (Item.valueIn? l (periods 1).start _ kind value))
    rw [side]
    rfl

/-- The twelve months of a year sum up to the year. -/
theorem units_of_twelve_months {year : Int} {times : Fin 12 → Timestamp} {months : Fin 12 → PeriodSummary}
    {whole : PeriodSummary} {january next : Date}
    (each : ∀ i : Fin 12, (times i).date.year = year ∧ (times i).date.month = i + 1)
    (inMonth : ∀ i, month l items (times i) = .ok (months i))
    (first : january.year = year ∧ january.month = 1 ∧ january.day = 1)
    (last : next.year = year + 1 ∧ next.month = 1 ∧ next.day = 1)
    (inYear : collect l items (.midnight january) (.midnight next) = .ok whole)
    (exact : ∀ i, SumsExactly l (months i).start (months i).stop items)
    (wholeExact : SumsExactly l (.midnight january) (.midnight next) items) :
    whole.expenses.units = ∑ i, (months i).expenses.units ∧
      whole.revenues.units = ∑ i, (months i).revenues.units := by
  have isMonth := fun i => isMonthOf_of_month (inMonth i)
  have number : ∀ i : Fin 12, (times i).date.monthNumber = year * 12 + (i + 1) := by
    intro i
    rw [Date.monthNumber, (each i).1, (each i).2]
    rfl
  have forward : ∀ i, (months i).start ≤ (months i).stop := by
    intro i
    obtain ⟨early, late⟩ := (isMonth i).within
    exact Int.le_of_lt (Int.lt_of_le_of_lt early late)
  have following : ∀ i : Fin 11, (months i.succ).start = (months i.castSucc).stop := by
    intro i
    refine ((isMonth i.castSucc).stop (times i.succ) ?_).2 _ (inMonth i.succ)
    rw [number, number]
    simp only [Fin.val_succ, Fin.val_castSucc]
    omega
  -- The year starts with its first month, and stops where its last month stops.
  have starts : Timestamp.midnight january = (months 0).start := by
    rw [(isMonth 0).start, Date.eq_monthStart (e := (times 0).date) ?_ first.2.2]
    rw [number, Date.monthNumber, first.1, first.2.1]
    rfl
  have stops : Timestamp.midnight next = (months (Fin.last 11)).stop := by
    obtain ⟨_, _, firstOfNext, stop, day, december⟩ := exists_of_month (inMonth (Fin.last 11))
    rw [stop]
    congr 1
    refine Date.eq_of_monthNumber_eq ?_ (last.2.2.trans day.symm)
    rw [december, number, Date.monthNumber, last.1, last.2.1]
    simp only [Fin.val_last]
    omega
  have each := fun i => units_of_collect_perm (.refl items) (exists_of_month (inMonth i)).1 (exact i)
  obtain ⟨revenues, expenses⟩ := units_of_collect_perm (.refl items) inYear wholeExact
  rw [revenues, expenses, starts, stops]
  refine ⟨?_, ?_⟩
  · rw [Finset.sum_congr rfl fun i _ => (each i).2]
    exact (units_of_valueIn?_sum forward following).2
  · rw [Finset.sum_congr rfl fun i _ => (each i).1]
    exact (units_of_valueIn?_sum forward following).2

end

/-! ### The whole -/

/-- **Summaries are additive, and months tile time.** Two periods side by side sum up to what the whole of
them sums up to, whatever the order of the items; what `month` sums up is one month of the calendar, from
its first midnight to the first midnight of the next; and twelve months sum up to their year. -/
theorem months_tile_time (l : Ledger) (items : List Item) :
    (∀ (start mid stop : Timestamp) (first second : List Item) (earlier later whole : PeriodSummary),
      start ≤ mid → mid ≤ stop → first.Perm items → second.Perm items →
      collect l first start mid = .ok earlier → collect l second mid stop = .ok later →
      collect l items start stop = .ok whole →
      SumsExactly l start mid first → SumsExactly l mid stop second → SumsExactly l start stop items →
      whole.expenses.units = earlier.expenses.units + later.expenses.units ∧
        whole.revenues.units = earlier.revenues.units + later.revenues.units) ∧
    (∀ (time : Timestamp) (s : PeriodSummary), month l items time = .ok s → IsMonthOf l items time s) ∧
    (∀ (year : Int) (times : Fin 12 → Timestamp) (months : Fin 12 → PeriodSummary)
      (whole : PeriodSummary) (january next : Date),
      (∀ i : Fin 12, (times i).date.year = year ∧ (times i).date.month = i + 1) →
      (∀ i, month l items (times i) = .ok (months i)) →
      (january.year = year ∧ january.month = 1 ∧ january.day = 1) →
      (next.year = year + 1 ∧ next.month = 1 ∧ next.day = 1) →
      collect l items (.midnight january) (.midnight next) = .ok whole →
      (∀ i, SumsExactly l (months i).start (months i).stop items) →
      SumsExactly l (.midnight january) (.midnight next) items →
      whole.expenses.units = ∑ i, (months i).expenses.units ∧
        whole.revenues.units = ∑ i, (months i).revenues.units) := by
  refine ⟨?_, ?_, ?_⟩
  · intro start mid stop first second earlier later whole early late firstOrder secondOrder
    exact units_of_collect_add early late firstOrder secondOrder
  · intro time s
    exact isMonthOf_of_month
  · intro year times months whole january next
    exact units_of_twelve_months

/-! ### A leap year -/

def leapDate (year : Int) (month : Nat) : Date := (Date.ofParts? year month 1).getD .epoch

/-- The last minute of a day of 2020. -/
def leapNight (month day : Nat) : Timestamp :=
  ⟨(Date.ofParts? 2020 month day).getD .epoch, 23, 59, by decide, by decide⟩

def leapExpense (time : Timestamp) (n : Nat) : Item :=
  .transaction
    { kind := .expense
      timestamp := time
      ins := [.onAccount houseBank (usd n).neg (houseLine 5)]
      outs := [.outside "shop" (houseLine 4)]
      tags := []
      origin := .ledger
      location := houseLine 4 }

/-- Money spent in the last minute of February, in the last minute of the year and in the first minute of
the next year. -/
def leapItems : List Item :=
  [.opening ⟨.midnight (leapDate 2020 1), houseBank, usd 100, .empty, houseLine 1⟩,
    leapExpense (leapNight 2 29) 10, leapExpense (leapNight 12 31) 20,
    leapExpense (.midnight (leapDate 2021 1)) 40]

/-- What is spent in a month of 2020. -/
def leapMonth (i : Fin 12) : PeriodSummary where
  currency := .usd
  start := .midnight (leapDate 2020 (i + 1))
  stop := .midnight (if i = 11 then leapDate 2021 1 else leapDate 2020 (i + 2))
  expenses := if i = 1 then (usd 10).amount else if i = 11 then (usd 20).amount else .zero
  revenues := .zero

/-- The year is what its months are, and what January and February are with the items in reverse and the
rest of the year; the last minute of February is in February. -/
theorem expenses_of_leapYear :
    ∃ l whole early late, (Ledger.compute houseOptions leapItems).result = .ok l ∧
      collect l leapItems (.midnight (leapDate 2020 1)) (.midnight (leapDate 2021 1)) = .ok whole ∧
      collect l leapItems.reverse (.midnight (leapDate 2020 1)) (.midnight (leapDate 2020 3)) = .ok early ∧
      collect l leapItems (.midnight (leapDate 2020 3)) (.midnight (leapDate 2021 1)) = .ok late ∧
      whole.expenses.units = early.expenses.units + late.expenses.units ∧
      whole.expenses.units = ∑ i, (leapMonth i).expenses.units ∧
      IsMonthOf l leapItems (leapNight 2 29) (leapMonth 1) := by
  have ordered : chronological leapItems = leapItems := chronological_eq_self (by decide)
  have computed : ∃ l ∈ (Ledger.compute houseOptions leapItems).result.toOption,
      (∀ i : Fin 12, (month l leapItems (leapNight (i + 1) 15)).toOption = some (leapMonth i) ∧
        SumsExactly l (leapMonth i).start (leapMonth i).stop leapItems) ∧
      (month l leapItems (leapNight 2 29)).toOption = some (leapMonth 1) ∧
      (collect l leapItems (.midnight (leapDate 2020 1)) (.midnight (leapDate 2021 1))).toOption.isSome ∧
      SumsExactly l (.midnight (leapDate 2020 1)) (.midnight (leapDate 2021 1)) leapItems ∧
      (collect l leapItems.reverse (.midnight (leapDate 2020 1))
        (.midnight (leapDate 2020 3))).toOption.isSome ∧
      SumsExactly l (.midnight (leapDate 2020 1)) (.midnight (leapDate 2020 3)) leapItems.reverse ∧
      (collect l leapItems (.midnight (leapDate 2020 3)) (.midnight (leapDate 2021 1))).toOption.isSome ∧
      SumsExactly l (.midnight (leapDate 2020 3)) (.midnight (leapDate 2021 1)) leapItems := by
    simp only [Ledger.compute, replay, ordered]
    decide +kernel
  obtain ⟨l, computed, months, february, inYear, exact, inFirst, firstExact, inSecond, secondExact⟩ := computed
  simp only [Option.isSome_iff_exists, toOption_eq_some_iff] at inYear inFirst inSecond months february
  obtain ⟨whole, inYear⟩ := inYear
  obtain ⟨early, inFirst⟩ := inFirst
  obtain ⟨late, inSecond⟩ := inSecond
  obtain ⟨additive, month, year⟩ := months_tile_time l leapItems
  refine ⟨l, whole, early, late, toOption_eq_some_iff.1 computed, inYear, inFirst, inSecond, ?_, ?_, ?_⟩
  · exact (additive _ _ _ _ _ _ _ _ (by decide) (by decide) (List.reverse_perm _) (.refl _) inFirst inSecond
      inYear firstExact secondExact exact).1
  · exact (year 2020 (fun i => leapNight (i + 1) 15) leapMonth whole _ _ (by decide) (fun i => (months i).1)
      (by decide) (by decide) inYear (fun i => (months i).2) exact).1
  · exact month _ _ february

end Daybook
