import Daybook.Proofs.Replay.Balance
import Daybook.Proofs.Replay.Cutoff
import Daybook.Proofs.Summary.Collected

/-!
# Dividends, paid and earned

A dividend is booked twice: as the payment, and as revenue, its *mirror*. The books are kept by the
payments and summaries are made from the mirrors, and neither looks at the other. In a journal that has
been read, each dividend stands right before its mirror, and there are no other mirrors (`Mirrored`). So
every dividend is credited once and counted once (`dividends_of_parse`).
-/

namespace Daybook

open PeriodSummary

/-! ### Mirrors -/

namespace Transaction

/-- The same money, as revenue. -/
def mirror (t : Transaction) : Transaction := { t with kind := .revenue, origin := .dividendRevenue }

/-- The money that goes to the first tracked account. -/
def cash? (t : Transaction) : Option Money := (t.outs.findSome? Leg.posting?).map (·.2)

variable {t : Transaction}

@[simp]
theorem effectiveDate_mirror : t.mirror.effectiveDate = t.effectiveDate := rfl

/-- A mirror is in a period exactly if what it mirrors is. -/
@[simp]
theorem covers_mirror (l : Ledger) (start stop : Timestamp) :
    covers l start stop t.mirror = covers l start stop t := rfl

end Transaction

namespace Item

/-- The revenue that a dividend is. -/
def isMirror : Item → Bool
  | transaction t => decide (t.origin = .dividendRevenue)
  | _ => false

def isDividend : Item → Bool
  | transaction t =>
    match t.kind with
    | .dividend _ => true
    | _ => false
  | _ => false

end Item

/-- Each dividend pays into one tracked account and stands right before its mirror, and there are no
other mirrors. -/
inductive Mirrored : List Item → Prop
  | nil : Mirrored []
  | dividend {t company account money rest} (kind : t.kind = .dividend company) (origin : t.origin = .ledger)
      (paid : t.outs.filterMap Leg.posting? = [(account, money)]) (later : Mirrored rest) :
      Mirrored (.transaction t :: .transaction t.mirror :: rest)
  | other {i rest} (notDividend : i.isDividend = false) (notMirror : i.isMirror = false)
      (later : Mirrored rest) : Mirrored (i :: rest)

namespace Mirrored

variable {block rest : List Item}

theorem append (h : Mirrored block) (later : Mirrored rest) : Mirrored (block ++ rest) := by
  induction h with
  | nil => exact later
  | dividend kind origin paid _ ih => exact .dividend kind origin paid ih
  | other notDividend notMirror _ ih => exact .other notDividend notMirror ih

/-- Items of which none is a dividend or a mirror. -/
theorem of_forall (h : ∀ i ∈ block, i.isDividend = false ∧ i.isMirror = false) : Mirrored block := by
  induction block with
  | nil => exact .nil
  | cons i rest ih =>
    obtain ⟨notDividend, notMirror⟩ := h i List.mem_cons_self
    exact .other notDividend notMirror (ih fun j mem => h j (List.mem_cons_of_mem _ mem))

end Mirrored

/-! ### What is booked is mirrored -/

section

variable {b : Booked} {block : List Item} {w : Written}

theorem mirrored_of_expense {d : Draft} (h : d.expense = .ok b) :
    Mirrored (b.transactions.map .transaction) := by
  obtain ⟨payee, -, -, transactions⟩ := Draft.expense_ok h
  rw [transactions]
  exact .other rfl rfl .nil

theorem mirrored_of_revenue {d : Draft} (h : d.revenue = .ok b) :
    Mirrored (b.transactions.map .transaction) := by
  obtain ⟨payer, -, transactions⟩ := Draft.revenue_ok h
  rw [transactions]
  exact .other rfl rfl .nil

theorem mirrored_of_transfer {d : Draft} (h : d.transfer = .ok b) :
    Mirrored (b.transactions.map .transaction) := by
  obtain ⟨-, -, ⟨shares, -, booked⟩ | ⟨-, booked⟩⟩ := Draft.transfer_ok h
  · obtain ⟨_, _, _, _, _, _, _, _, _, _, _, _, _, transactions⟩ := Draft.shareTransfer_ok booked
    rw [transactions]
    exact .other rfl rfl .nil
  · apply Mirrored.of_forall
    intro i mem
    obtain ⟨t, isBooked, rfl⟩ := List.mem_map.1 mem
    rcases Draft.kind_of_cashTransfer booked isBooked with ⟨kind, origin⟩ | ⟨kind, origin⟩
    all_goals simp [Item.isDividend, Item.isMirror, kind, origin]

/-- The cash of a dividend has an amount, so it is on a tracked account. -/
theorem mirrored_of_dividend {d : DividendDraft} {money : Money} (complete : d.cash.Complete)
    (h : d.money = .ok money) : Mirrored ((d.book money).transactions.map .transaction) := by
  have amount : d.cash.money = some money := by
    rw [DividendDraft.money] at h
    split at h
    · cases h
    · split at h
      · cases h
      · next money' amount =>
        split at h
        · cases h
        · cases h
          exact amount
  have owned : d.cash.isOwned = true := by
    rw [complete, amount]
    rfl
  obtain ⟨account, money', posted⟩ := complete.exists_posting? owned
  have paid : [d.cash].filterMap Leg.posting? = [(account, money')] := by
    rw [List.filterMap_cons_some posted, List.filterMap_nil]
  exact .dividend rfl rfl paid .nil

theorem mirrored_of_items (complete : w.Complete) (h : w.items = .ok block) : Mirrored block := by
  cases w with
  | item i =>
    cases h
    refine .of_forall fun i' mem => ?_
    obtain rfl := List.mem_singleton.1 mem
    cases i' with
    | transaction t => exact absurd rfl (complete t)
    | _ => exact ⟨rfl, rfl⟩
  | expense d =>
    obtain ⟨b, booked, rfl⟩ := map_eq_ok_iff.1 h
    exact mirrored_of_expense booked
  | revenue d =>
    obtain ⟨b, booked, rfl⟩ := map_eq_ok_iff.1 h
    exact mirrored_of_revenue booked
  | transfer d =>
    obtain ⟨b, booked, rfl⟩ := map_eq_ok_iff.1 h
    exact mirrored_of_transfer booked
  | dividend d =>
    obtain ⟨money, amount, rfl⟩ := map_eq_ok_iff.1 h
    exact mirrored_of_dividend complete amount

theorem mirrored_of_allItems {ws : List Written} {items : List Item} (complete : ∀ w ∈ ws, w.Complete)
    (h : Written.allItems ws = .ok items) : Mirrored items := by
  induction ws generalizing items with
  | nil =>
    cases h
    exact .nil
  | cons w rest ih =>
    simp only [Written.allItems, bind_eq_ok_iff, Except.ok.injEq] at h
    obtain ⟨block, booked, more, later, rfl⟩ := h
    have here := mirrored_of_items (complete w List.mem_cons_self) booked
    exact here.append (ih (fun w mem => complete w (List.mem_cons_of_mem _ mem)) later)

end

/-- The dividends of a journal are mirrored. -/
theorem mirrored_of_parse {lines : List Line} {j : Journal} (h : Journal.parse lines = .ok j) :
    Mirrored j.items :=
  mirrored_of_allItems (fun _ => complete_of_mem_written) (allItems_written h)

/-! ### The books do not see mirrors -/

section

variable {items : List Item}

/-- A mirror changes nothing in the books, whether it counts or not. -/
theorem Books.apply_of_isMirror (o : Options) (b : Books) {i : Item} (h : i.isMirror = true) :
    ∃ notices, b.apply o i = .ok (b, notices) := by
  cases i with
  | transaction t =>
    have mirror : t.origin = .dividendRevenue := of_decide_eq_true h
    rw [Books.apply]
    split
    · exact ⟨_, rfl⟩
    · rw [Books.transaction, if_pos mirror]
      exact ⟨_, rfl⟩
  | _ => cases h

theorem result_replay_filter_isMirror (o : Options) (b : Books) :
    (replay o b (items.filter fun i => !i.isMirror)).result = (replay o b items).result := by
  rw [replay, replay, chronological_filter]
  refine result_foldTelling_filter _ (fun b i dropped => ?_) b _
  exact Books.apply_of_isMirror o b (by simpa using dropped)

/-- Without mirrors, the items come to the same ledger, or fail with the same error. -/
theorem result_compute_filter_isMirror (o : Options) (items : List Item) :
    (Ledger.compute o (items.filter fun i => !i.isMirror)).result = (Ledger.compute o items).result := by
  refine Ledger.result_compute_of_sameSetup (sameSetup_of_filter ?_) fun b => result_replay_filter_isMirror o b
  rw [List.filter_filter]
  refine List.filter_congr fun i _ => ?_
  cases i <;> simp [Item.isReplayed, Item.isMirror]

/-! ### Summaries do not see dividends -/

variable {l : Ledger} {start stop : Timestamp}

theorem addItem_of_isDividend (l : Ledger) (s : PeriodSummary) {i : Item} (h : i.isDividend = true) :
    addItem l s i = .ok s := by
  cases i with
  | transaction t =>
    rw [addItem, addTransaction]
    split
    · rw [Item.isDividend] at h
      split at h
      · next company kind => rw [kind]
      · cases h
    · rfl
  | _ => cases h

/-- Without dividends, a period has the same summary, or fails with the same error. -/
theorem collect_filter_isDividend (l : Ledger) (items : List Item) (start stop : Timestamp) :
    collect l (items.filter fun i => !i.isDividend) start stop = collect l items start stop := by
  rw [collect, collect, List.foldlM_filter]
  congr 1
  funext s i
  split
  · rfl
  · next dividend => exact (addItem_of_isDividend l s (by simpa using dividend)).symm

/-! ### Revenues, with the dividends themselves -/

/-- What an item earns in a period, where a dividend is counted for what it pays, and its mirror is not
counted. -/
def Item.earnedIn? (l : Ledger) (start stop : Timestamp) : Item → Option Decimal
  | transaction t =>
    if covers l start stop t = true then
      match t.kind with
      | .dividend _ => t.cash?.bind fun money => (valueOf l t money).toOption
      | .revenue => if t.origin = .dividendRevenue then none else (ownedValue l t t.outs).toOption
      | .expense | .transfer | .equity => none
    else
      none
  | _ => none

theorem Transaction.cash?_of_paid {t : Transaction} {account : AccountRef} {money : Money}
    (paid : t.outs.filterMap Leg.posting? = [(account, money)]) : t.cash? = some money := by
  rw [Transaction.cash?, ← List.head?_filterMap, paid]
  rfl

theorem ownedValue_of_paid {t : Transaction} {legs : List Leg} {account : AccountRef} {money : Money}
    (paid : legs.filterMap Leg.posting? = [(account, money)]) :
    ownedValue l t legs = valueOf l t money := by
  rw [ownedValue, paid]
  show (valueOf l t money >>= fun value => orError (Decimal.zero.add value) (.overflow t.location)) >>= _ = _
  cases valueOf l t money with
  | error e => rfl
  | ok value => rfl

/-- **Revenues count each dividend once**: what the items count as is what they earn. -/
theorem filterMap_revenueIn? (h : Mirrored items) :
    items.filterMap (Item.revenueIn? l start stop) = items.filterMap (Item.earnedIn? l start stop) := by
  induction h with
  | nil => rfl
  | @dividend t company account money rest kind origin paid _ ih =>
    have mirror : Item.revenueIn? l start stop (.transaction t.mirror)
        = Item.earnedIn? l start stop (.transaction t) := by
      rw [Item.revenueIn?, Item.valueIn?, Item.earnedIn?, Transaction.covers_mirror, kind]
      by_cases covered : covers l start stop t = true
      · rw [if_pos ⟨covered, rfl⟩, if_pos covered, Transaction.cash?_of_paid paid]
        exact congrArg Except.toOption (ownedValue_of_paid paid)
      · rw [if_neg fun both => covered both.1, if_neg covered]
    have notItself : Item.revenueIn? l start stop (.transaction t) = none := by
      simp [Item.revenueIn?, Item.valueIn?, kind]
    have notTwice : Item.earnedIn? l start stop (.transaction t.mirror) = none := by
      simp [Item.earnedIn?, Transaction.mirror]
    calc (Item.transaction t :: .transaction t.mirror :: rest).filterMap (Item.revenueIn? l start stop)
        = (Item.earnedIn? l start stop (.transaction t)).toList
            ++ rest.filterMap (Item.earnedIn? l start stop) := by
          rw [List.filterMap_cons_none notItself, filterMap_cons_eq_append, mirror, ih]
      _ = (Item.transaction t :: .transaction t.mirror :: rest).filterMap (Item.earnedIn? l start stop) := by
          rw [filterMap_cons_eq_append _ (Item.transaction t), List.filterMap_cons_none notTwice]
  | @other i rest notDividend notMirror _ ih =>
    have same : Item.revenueIn? l start stop i = Item.earnedIn? l start stop i := by
      cases i with
      | transaction t =>
        have direct : t.origin ≠ .dividendRevenue := of_decide_eq_false notMirror
        rw [Item.revenueIn?, Item.valueIn?, Item.earnedIn?]
        cases kind : t.kind <;> simp_all [Item.isDividend]
      | _ => rfl
    rw [filterMap_cons_eq_append, same, ih, ← filterMap_cons_eq_append]

theorem Mirrored.of_mem (h : Mirrored items) {t : Transaction} {company : String}
    (mem : .transaction t ∈ items) (kind : t.kind = .dividend company) :
    .transaction t.mirror ∈ items ∧ ∃ account money, t.outs.filterMap Leg.posting? = [(account, money)] := by
  induction h with
  | nil => cases mem
  | @dividend t' company' account money rest kind' origin paid _ ih =>
    rcases List.mem_cons.1 mem with same | mem
    · cases same
      exact ⟨List.mem_cons_of_mem _ List.mem_cons_self, account, money, paid⟩
    rcases List.mem_cons.1 mem with same | mem
    · cases same
      cases kind
    · exact ⟨List.mem_cons_of_mem _ (List.mem_cons_of_mem _ (ih mem).1), (ih mem).2⟩
  | other notDividend _ _ ih =>
    rcases List.mem_cons.1 mem with rfl | mem
    · simp [Item.isDividend, kind] at notDividend
    · exact ⟨List.mem_cons_of_mem _ (ih mem).1, (ih mem).2⟩

/-- A summary has found what each dividend of the period pays in the default currency. -/
theorem exists_value_of_collect (h : Mirrored items) {s : PeriodSummary}
    (collected : collect l items start stop = .ok s) {t : Transaction} {company : String}
    (mem : .transaction t ∈ items) (kind : t.kind = .dividend company)
    (covered : covers l start stop t = true) :
    ∃ money value, t.cash? = some money ∧ valueOf l t money = .ok value := by
  obtain ⟨beside, account, money, paid⟩ := h.of_mem mem kind
  obtain ⟨value, worth⟩ := (values_of_foldlM collected beside covered).1 rfl
  have worth : valueOf l t.mirror money = .ok value := by
    rw [← worth]
    exact (ownedValue_of_paid paid).symm
  exact ⟨money, value, Transaction.cash?_of_paid paid, worth⟩

end

/-- **A dividend is credited once and counted once.** In a journal that has been read, each dividend
stands right before its mirror, and there are no other mirrors. The books are the same without mirrors,
and summaries are the same without dividends. A mirror is in a period exactly if its dividend is, and the
revenues of a period have each dividend in it once, by what it pays in the default currency. -/
theorem dividends_of_parse {lines : List Line} {j : Journal} (read : Journal.parse lines = .ok j) :
    Mirrored j.items ∧
      (∀ o, (Ledger.compute o (j.items.filter fun i => !i.isMirror)).result
        = (Ledger.compute o j.items).result) ∧
      ∀ (l : Ledger) (start stop : Timestamp),
        collect l (j.items.filter fun i => !i.isDividend) start stop = collect l j.items start stop ∧
          (∀ t, covers l start stop t.mirror = covers l start stop t) ∧
          ∀ s, collect l j.items start stop = .ok s →
            Decimal.sum (j.items.filterMap (Item.earnedIn? l start stop)) = some s.revenues ∧
              ∀ t company, .transaction t ∈ j.items → t.kind = .dividend company →
                covers l start stop t = true →
                ∃ money value, t.cash? = some money ∧ valueOf l t money = .ok value := by
  have mirrored := mirrored_of_parse read
  refine ⟨mirrored, fun o => result_compute_filter_isMirror o j.items, fun l start stop => ?_⟩
  refine ⟨collect_filter_isDividend l j.items start stop, fun t => Transaction.covers_mirror l start stop,
    fun s collected => ⟨?_, fun t company mem kind covered => ?_⟩⟩
  · rw [← filterMap_revenueIn? mirrored]
    exact (sums_of_collect collected).1
  · exact exists_value_of_collect mirrored collected mem kind covered

/-- In March the household earns nothing but its dividend, and earns it once. -/
theorem dividends_of_houseBook :
    ∃ j l s, Journal.parse houseBook = .ok j ∧
      (Ledger.compute houseOptions (j.items.filter fun i => !i.isMirror)).result = .ok l ∧
      collect l (j.items.filter fun i => !i.isDividend) (day2021 3 1) (day2021 4 1) = .ok s ∧
      Decimal.sum (houseItems.filterMap (Item.earnedIn? l (day2021 3 1) (day2021 4 1))) = some s.revenues ∧
      s.revenues = .ofNat 50 := by
  obtain ⟨j, read, items⟩ := exists_journal_of_houseBook
  have computed : ∃ l ∈ (Ledger.compute houseOptions houseItems).result.toOption,
      (collect l houseItems (day2021 3 1) (day2021 4 1)).toOption
        = some ⟨.usd, day2021 3 1, day2021 4 1, .zero, .ofNat 50⟩ := by
    simp only [Ledger.compute, replay, chronological_houseItems]
    decide +kernel
  obtain ⟨l, computed, collected⟩ := computed
  have computed := toOption_eq_some_iff.1 computed
  have collected := toOption_eq_some_iff.1 collected
  rw [← items] at computed collected
  obtain ⟨_, books, summaries⟩ := dividends_of_parse read
  obtain ⟨same, _, revenues⟩ := summaries l (day2021 3 1) (day2021 4 1)
  have earned := (revenues _ collected).1
  rw [← books] at computed
  rw [← same] at collected
  rw [items] at earned
  exact ⟨j, l, _, read, computed, collected, earned, rfl⟩

end Daybook
