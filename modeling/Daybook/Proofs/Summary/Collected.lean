import Daybook.Proofs.Basket.UnitRate
import Daybook.Proofs.Journal.Flow
import Daybook.Summary.Period

/-!
# What a summary sums up

The expenses of a period are a sum from left to right, over what its expenses count as, and so are its
revenues (`sums_of_collect`). In a ledger that is kept in one currency no conversion gets in the way, and
as long as no sum is rounded the two are the values of the legs (`units_of_collect`).
-/

namespace Daybook

open PeriodSummary

/-! ### Values of items -/

namespace Item

/-- What an item counts as in a period, if it is a transaction of a kind. -/
def valueIn? (l : Ledger) (start stop : Timestamp) (kind : TransactionKind)
    (value : Transaction → Except Error Decimal) : Item → Option Decimal
  | transaction t =>
    if covers l start stop t = true ∧ t.kind = kind then (value t).toOption else none
  | _ => none

def revenueIn? (l : Ledger) (start stop : Timestamp) : Item → Option Decimal :=
  valueIn? l start stop .revenue fun t => ownedValue l t t.outs

def expenseIn? (l : Ledger) (start stop : Timestamp) : Item → Option Decimal :=
  valueIn? l start stop .expense (expenseValue l)

end Item

section

variable {l : Ledger} {s s' : PeriodSummary} {items : List Item}

/-- An item adds its value to one of the two sums, and leaves the other and the period as they are. -/
theorem addItem_ok {i : Item} (h : addItem l s i = .ok s') :
    (i.revenueIn? l s.start s.stop).toList.foldlM Decimal.add s.revenues = some s'.revenues ∧
      (i.expenseIn? l s.start s.stop).toList.foldlM Decimal.add s.expenses = some s'.expenses ∧
      s'.start = s.start ∧ s'.stop = s.stop := by
  cases i with
  | transaction t =>
    rw [addItem, addTransaction] at h
    split at h
    · next covered =>
      split at h
      · next kind =>
        simp only [bind_eq_ok_iff, orError_eq_ok_iff, Except.ok.injEq] at h
        obtain ⟨value, worth, expenses, sum, rfl⟩ := h
        simp [Item.revenueIn?, Item.expenseIn?, Item.valueIn?, covered, kind, worth, sum, Except.toOption]
      · next kind =>
        simp only [bind_eq_ok_iff, orError_eq_ok_iff, Except.ok.injEq] at h
        obtain ⟨value, worth, revenues, sum, rfl⟩ := h
        simp [Item.revenueIn?, Item.expenseIn?, Item.valueIn?, covered, kind, worth, sum, Except.toOption]
      all_goals
        rename_i kind
        cases h
        simp [Item.revenueIn?, Item.expenseIn?, Item.valueIn?, kind]
    · next outside =>
      cases h
      simp [Item.revenueIn?, Item.expenseIn?, Item.valueIn?, outside]
  | _ =>
    cases h
    exact ⟨rfl, rfl, rfl, rfl⟩

theorem sums_of_foldlM (h : items.foldlM (addItem l) s = .ok s') :
    (items.filterMap (Item.revenueIn? l s.start s.stop)).foldlM Decimal.add s.revenues
        = some s'.revenues ∧
      (items.filterMap (Item.expenseIn? l s.start s.stop)).foldlM Decimal.add s.expenses
        = some s'.expenses := by
  induction items generalizing s with
  | nil =>
    cases h
    exact ⟨rfl, rfl⟩
  | cons i rest ih =>
    rw [List.foldlM_cons, bind_eq_ok_iff] at h
    obtain ⟨next, added, h⟩ := h
    obtain ⟨revenues, expenses, start, stop⟩ := addItem_ok added
    obtain ⟨laterRevenues, laterExpenses⟩ := ih h
    rw [start, stop] at laterRevenues laterExpenses
    rw [filterMap_cons_eq_append, filterMap_cons_eq_append, List.foldlM_append, List.foldlM_append,
      revenues, expenses]
    exact ⟨laterRevenues, laterExpenses⟩

/-- **A summary is two sums** from left to right, over what the items of the period count as. -/
theorem sums_of_collect {start stop : Timestamp} (h : collect l items start stop = .ok s) :
    Decimal.sum (items.filterMap (Item.revenueIn? l start stop)) = some s.revenues ∧
      Decimal.sum (items.filterMap (Item.expenseIn? l start stop)) = some s.expenses :=
  sums_of_foldlM h

/-! ### Values of legs -/

/-- What money on tracked accounts counts as, leg by leg. -/
def legValues (l : Ledger) (t : Transaction) (legs : List Leg) : List Decimal :=
  (legs.filterMap Leg.posting?).filterMap fun posting => (valueOf l t posting.2).toOption

variable {t : Transaction} {legs : List Leg} {value : Decimal}

/-- Money in the default currency counts as its amount. -/
theorem units_of_valueOf {money : Money} (kept : money.currency = l.defaultCurrency)
    (h : valueOf l t money = .ok value) : value.units = money.amount.units := by
  simp only [valueOf, map_eq_ok_iff, mapError_eq_ok_iff] at h
  obtain ⟨converted, h, rfl⟩ := h
  rw [Ledger.inDefaultCurrency, Ledger.convert] at h
  obtain ⟨rate, same, product⟩ := Basket.exists_rate_of_convert h
  rw [Basket.rate, if_pos kept] at same
  cases same
  exact Decimal.units_of_mul_one product

theorem units_of_postings {postings : List (AccountRef × Money)} {total : Decimal}
    (kept : ∀ p ∈ postings, p.2.currency = l.defaultCurrency)
    (exact : Decimal.AddsExactly total (postings.filterMap fun p => (valueOf l t p.2).toOption))
    (h : postings.foldlM (fun total posting => do
      let value ← valueOf l t posting.2
      orError (total.add value) (.overflow t.location)) total = .ok value) :
    value.units = total.units + Decimal.unitsOf (postings.map (·.2.amount)) := by
  induction postings generalizing total with
  | nil =>
    cases h
    exact (Int.add_zero _).symm
  | cons p rest ih =>
    simp only [List.foldlM_cons, bind_eq_ok_iff, orError_eq_ok_iff] at h
    obtain ⟨next, ⟨amount, worth, sum⟩, h⟩ := h
    rw [filterMap_cons_eq_append, worth] at exact
    obtain ⟨first, exact⟩ := exact next sum
    have units := units_of_valueOf (kept p List.mem_cons_self) worth
    rw [ih (fun q mem => kept q (List.mem_cons_of_mem _ mem)) exact h, first, units, List.map_cons,
      Decimal.unitsOf_cons, Int.add_assoc]

theorem units_of_ownedValue (kept : ∀ leg ∈ legs, leg.IsIn l.defaultCurrency)
    (exact : Decimal.AddsExactly .zero (legValues l t legs)) (h : ownedValue l t legs = .ok value) :
    value.units = Leg.net legs := by
  have inCurrency : ∀ p ∈ legs.filterMap Leg.posting?, p.2.currency = l.defaultCurrency := by
    intro p mem
    obtain ⟨leg, mem, posted⟩ := List.mem_filterMap.1 mem
    exact kept leg mem p.1 p.2 posted
  have units := units_of_postings inCurrency exact h
  rw [List.map_filterMap] at units
  rw [units, Decimal.units_zero, Int.zero_add]
  rfl

theorem units_of_expenseValue (free : t.tags.calculateAs? = none)
    (kept : ∀ leg ∈ t.ins, leg.IsIn l.defaultCurrency)
    (exact : Decimal.AddsExactly .zero (legValues l t t.ins)) (h : expenseValue l t = .ok value) :
    value.units = (Leg.net t.ins).natAbs := by
  rw [expenseValue, free, map_eq_ok_iff] at h
  obtain ⟨owned, h, rfl⟩ := h
  rw [Decimal.units_abs, units_of_ownedValue kept exact h]

/-! ### Values of a period -/

theorem values_of_addItem {t : Transaction} (h : addItem l s (.transaction t) = .ok s')
    (covered : covers l s.start s.stop t = true) :
    (t.kind = .revenue → ∃ v, ownedValue l t t.outs = .ok v) ∧
      (t.kind = .expense → ∃ v, expenseValue l t = .ok v) := by
  rw [addItem, addTransaction, if_pos covered] at h
  constructor
  · intro kind
    simp only [kind, bind_eq_ok_iff] at h
    obtain ⟨v, worth, _⟩ := h
    exact ⟨v, worth⟩
  · intro kind
    simp only [kind, bind_eq_ok_iff] at h
    obtain ⟨v, worth, _⟩ := h
    exact ⟨v, worth⟩

theorem values_of_foldlM (h : items.foldlM (addItem l) s = .ok s') {t : Transaction}
    (mem : .transaction t ∈ items) (covered : covers l s.start s.stop t = true) :
    (t.kind = .revenue → ∃ v, ownedValue l t t.outs = .ok v) ∧
      (t.kind = .expense → ∃ v, expenseValue l t = .ok v) := by
  induction items generalizing s with
  | nil => cases mem
  | cons i rest ih =>
    rw [List.foldlM_cons, bind_eq_ok_iff] at h
    obtain ⟨next, added, h⟩ := h
    rcases List.mem_cons.1 mem with rfl | mem
    · exact values_of_addItem added covered
    · obtain ⟨_, _, start, stop⟩ := addItem_ok added
      exact ih h mem (by rwa [start, stop])

/-- No sum is rounded when a period is summed up: neither those over the legs of one transaction, nor the
two over the items of the period. -/
structure SumsExactly (l : Ledger) (start stop : Timestamp) (items : List Item) : Prop where
  legs : ∀ t, .transaction t ∈ items → covers l start stop t = true →
    (t.kind = .revenue → Decimal.AddsExactly .zero (legValues l t t.outs)) ∧
      (t.kind = .expense → Decimal.AddsExactly .zero (legValues l t t.ins))
  revenues : Decimal.AddsExactly .zero (items.filterMap (Item.revenueIn? l start stop))
  expenses : Decimal.AddsExactly .zero (items.filterMap (Item.expenseIn? l start stop))

instance (l : Ledger) (start stop : Timestamp) (items : List Item) :
    Decidable (SumsExactly l start stop items) :=
  decidable_of_iff
    ((∀ t ∈ items.filterMap Item.transaction?, covers l start stop t = true →
      (t.kind = .revenue → Decimal.AddsExactly .zero (legValues l t t.outs)) ∧
        (t.kind = .expense → Decimal.AddsExactly .zero (legValues l t t.ins))) ∧
      Decimal.AddsExactly .zero (items.filterMap (Item.revenueIn? l start stop)) ∧
      Decimal.AddsExactly .zero (items.filterMap (Item.expenseIn? l start stop)))
    ⟨fun h => ⟨Item.forall_transaction_iff.2 h.1, h.2.1, h.2.2⟩,
      fun h => ⟨Item.forall_transaction_iff.1 h.legs, h.revenues, h.expenses⟩⟩

/-- A sum over the items of a period is one over the transactions that count. -/
theorem units_of_valueIn? {start stop now : Timestamp} {kind : TransactionKind}
    {value : Transaction → Except Error Decimal} {f : Transaction → Int}
    (window : ∀ t, .transaction t ∈ items → (covers l start stop t = true ↔ t.effectiveDate ≤ now))
    (each : ∀ t, .transaction t ∈ items → t.effectiveDate ≤ now → t.kind = kind →
      ∃ v, value t = .ok v ∧ v.units = f t) :
    Decimal.unitsOf (items.filterMap (Item.valueIn? l start stop kind value))
      = totalOf now (fun t => if t.kind = kind then f t else 0) items := by
  induction items with
  | nil => rfl
  | cons i rest ih =>
    rw [filterMap_cons_eq_append, Decimal.unitsOf_append,
      ih (fun t mem => window t (List.mem_cons_of_mem _ mem))
        (fun t mem => each t (List.mem_cons_of_mem _ mem)),
      ← List.singleton_append (x := i), totalOf_append]
    congr 1
    cases i with
    | transaction t =>
      have covered := window t List.mem_cons_self
      rw [totalOf_transaction, Item.valueIn?]
      by_cases counts : t.effectiveDate ≤ now
      · by_cases same : t.kind = kind
        · obtain ⟨v, worth, units⟩ := each t List.mem_cons_self counts same
          rw [if_pos ⟨covered.2 counts, same⟩, if_pos counts, if_pos same, worth, ← units]
          exact Int.add_zero _
        · rw [if_neg fun both => same both.2, if_pos counts, if_neg same]
          rfl
      · rw [if_neg fun both => counts (covered.1 both.1), if_neg counts]
        rfl
    | _ =>
      show 0 = totalOf now _ [_]
      rw [totalOf, List.filter_cons, List.filter_nil]
      split <;> rfl

/-- **In one currency, a summary counts the legs**: its revenues are the legs that revenues go to, and its
expenses are the legs that expenses come from. -/
theorem units_of_collect {start stop now : Timestamp} (h : collect l items start stop = .ok s)
    (window : ∀ t, .transaction t ∈ items → (covers l start stop t = true ↔ t.effectiveDate ≤ now))
    (free : ∀ t, .transaction t ∈ items → t.effectiveDate ≤ now → t.kind = .expense →
      t.tags.calculateAs? = none)
    (keptOuts : ∀ t, .transaction t ∈ items → t.effectiveDate ≤ now → t.kind = .revenue →
      ∀ leg ∈ t.outs, leg.IsIn l.defaultCurrency)
    (keptIns : ∀ t, .transaction t ∈ items → t.effectiveDate ≤ now → t.kind = .expense →
      ∀ leg ∈ t.ins, leg.IsIn l.defaultCurrency)
    (exact : SumsExactly l start stop items) :
    s.revenues.units = totalOf now Transaction.earned items ∧
      s.expenses.units = totalOf now Transaction.spent items := by
  -- The summary succeeded, so every value in the two sums is one that was found.
  obtain ⟨revenues, expenses⟩ := sums_of_collect h
  rw [Decimal.units_of_sum exact.revenues revenues, Decimal.units_of_sum exact.expenses expenses]
  constructor
  · refine units_of_valueIn? window fun t mem counts kind => ?_
    have covered := (window t mem).2 counts
    obtain ⟨v, worth⟩ := (values_of_foldlM h mem covered).1 kind
    have legs := (exact.legs t mem covered).1 kind
    exact ⟨v, worth, units_of_ownedValue (keptOuts t mem counts kind) legs worth⟩
  · refine units_of_valueIn? window fun t mem counts kind => ?_
    have covered := (window t mem).2 counts
    obtain ⟨v, worth⟩ := (values_of_foldlM h mem covered).2 kind
    have legs := (exact.legs t mem covered).2 kind
    exact ⟨v, worth, units_of_expenseValue (free t mem counts kind) (keptIns t mem counts kind) legs worth⟩

end

end Daybook
