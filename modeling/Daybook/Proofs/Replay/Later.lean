import Daybook.Proofs.Replay.Cutoff
import Daybook.Proofs.Summary.Conservation
import Daybook.Summary.Balance

/-!
# What a computation does not see

Transactions and balances from after the time of a computation are not looked at, and neither are rates
from after it where such rates are gated. So it makes no difference whether they are written at all: the
ledger, or the error, is the same without any of them, and so is every summary of it
(`compute_of_leavesOut`). Nothing is asked of what is left out, which may name accounts that do not exist.
-/

namespace Daybook

/-! ### Items out of sight -/

namespace Item

/-- Whether a computation passes over an item because it is from after its time. -/
def isUnseen (o : Options) : Item → Bool
  | transaction t => decide (o.now < t.effectiveDate)
  | balance s => decide (o.now < s.timestamp)
  | rates r => decide (o.ratePolicy = .gated ∧ o.now < r.timestamp)
  | opening _ | closing _ | setting _ | group _ => false

variable {o : Options} {i : Item}

/-- Only what is replayed can be passed over. -/
theorem isUnseen_of_not_isReplayed (h : i.isReplayed = false) : i.isUnseen o = false := by
  cases i with
  | rates _ | balance _ | transaction _ => cases h
  | _ => rfl

end Item

/-- A list of items, and what is left of it without some of those that a computation does not see. Each
item stays or goes by itself, also where the same item is written twice. -/
inductive LeavesOut (o : Options) : List Item → List Item → Prop where
  | nil : LeavesOut o [] []
  | keep (i : Item) {items kept : List Item} (rest : LeavesOut o items kept) :
      LeavesOut o (i :: items) (i :: kept)
  | drop {i : Item} {items kept : List Item} (unseen : i.isUnseen o = true)
      (rest : LeavesOut o items kept) : LeavesOut o (i :: items) kept

variable {o : Options} {items kept : List Item}

/-- Items that are all seen stand in both lists, in the same order. -/
theorem filter_eq_of_leavesOut {p : Item → Bool} (seen : ∀ i, p i = true → i.isUnseen o = false)
    (h : LeavesOut o items kept) : kept.filter p = items.filter p := by
  induction h with
  | nil => rfl
  | keep i rest ih => rw [List.filter_cons, List.filter_cons, ih]
  | drop unseen rest ih =>
    rename_i i items kept
    have skipped : p i = false := by
      apply Bool.eq_false_iff.2
      intro picked
      rw [seen i picked] at unseen
      cases unseen
    rw [List.filter_cons, skipped]
    exact ih

/-! ### Ledgers -/

/-- An item that is not seen changes nothing in the books, whatever it says. -/
theorem apply_of_isUnseen {b : Books} {i : Item} (unseen : i.isUnseen o = true) :
    ∃ notices, b.apply o i = .ok (b, notices) := by
  cases i with
  | transaction t => exact ⟨_, if_pos (of_decide_eq_true unseen)⟩
  | balance s => exact ⟨_, if_pos (of_decide_eq_true unseen)⟩
  | rates r =>
    rw [Books.apply, Books.setRates, if_pos (of_decide_eq_true unseen)]
    exact ⟨_, rfl⟩
  | _ => cases unseen

theorem result_replay_filter_seen (o : Options) (b : Books) (items : List Item) :
    (replay o b (items.filter fun i => !i.isUnseen o)).result = (replay o b items).result := by
  rw [replay, chronological_filter]
  apply result_foldTelling_filter
  intro b i unseen
  apply apply_of_isUnseen
  simpa using unseen

theorem result_replay_of_leavesOut (h : LeavesOut o items kept) (b : Books) :
    (replay o b kept).result = (replay o b items).result := by
  have sameSeen : (kept.filter fun i => !i.isUnseen o) = items.filter fun i => !i.isUnseen o := by
    apply filter_eq_of_leavesOut _ h
    intro i seen
    simpa using seen
  rw [← result_replay_filter_seen, sameSeen, result_replay_filter_seen]

theorem result_compute_of_leavesOut (h : LeavesOut o items kept) :
    (Ledger.compute o kept).result = (Ledger.compute o items).result := by
  refine Ledger.result_compute_of_sameSetup (sameSetup_of_filter ?_) (result_replay_of_leavesOut h)
  apply filter_eq_of_leavesOut _ h
  intro i setsUp
  exact Item.isUnseen_of_not_isReplayed (by simpa using setsUp)

/-! ### Summaries -/

/-- A summary of a ledger leaves out what the ledger has not seen, whatever the period. -/
theorem addItem_of_isUnseen {l : Ledger} {s : PeriodSummary} {i : Item} (now : l.now = o.now)
    (unseen : i.isUnseen o = true) : s.addItem l i = .ok s := by
  cases i with
  | transaction t =>
    have late : ¬ t.effectiveDate ≤ l.now := by
      rw [now, ← Timestamp.not_lt, Decidable.not_not]
      exact of_decide_eq_true unseen
    rw [PeriodSummary.addItem, PeriodSummary.addTransaction, if_neg]
    simp [PeriodSummary.covers, late]
  | _ => rfl

theorem foldlM_addItem_of_leavesOut {l : Ledger} (now : l.now = o.now) (h : LeavesOut o items kept)
    (s : PeriodSummary) :
    kept.foldlM (PeriodSummary.addItem l) s = items.foldlM (PeriodSummary.addItem l) s := by
  induction h generalizing s with
  | nil => rfl
  | keep i rest ih =>
    rw [List.foldlM_cons, List.foldlM_cons]
    cases s.addItem l i with
    | error e => rfl
    | ok next => exact ih next
  | drop unseen rest ih =>
    rw [List.foldlM_cons, addItem_of_isUnseen now unseen]
    exact ih s

/-- **What lies after the time of a computation is not seen.** Leaving out any of the transactions and
balances from after it, and of the rates from after it where they are gated, leads to the same ledger or
the same error, and to the same summaries of that ledger, for balances and for every period. -/
theorem compute_of_leavesOut (h : LeavesOut o items kept) :
    (Ledger.compute o kept).result = (Ledger.compute o items).result ∧
      (Ledger.compute o kept).result >>= BalanceSummary.ofLedger
        = (Ledger.compute o items).result >>= BalanceSummary.ofLedger ∧
      ∀ start stop,
        ((Ledger.compute o kept).result >>= fun l => PeriodSummary.collect l kept start stop)
          = (Ledger.compute o items).result >>= fun l => PeriodSummary.collect l items start stop := by
  have same := result_compute_of_leavesOut h
  refine ⟨same, by rw [same], fun start stop => ?_⟩
  rw [same]
  cases computed : (Ledger.compute o items).result with
  | error e => rfl
  | ok l => exact foldlM_addItem_of_leavesOut (now_of_compute computed) h _

/-! ### A household that plans ahead -/

/-- A gift to an account that nobody has opened, in a currency that is not kept, long after everything
else. -/
def plannedGift : Item :=
  .transaction
    { kind := .expense
      timestamp := day2021 12 24
      ins := [.onAccount ⟨.asset, "nowhere"⟩ ⟨(usd 50).amount, .eur⟩ (houseLine 40)]
      outs := []
      tags := []
      origin := .ledger
      location := houseLine 39 }

theorem compute_houseItems_with_plannedGift :
    LeavesOut houseOptions (plannedGift :: houseItems) houseItems ∧
      (Ledger.compute houseOptions houseItems).result
        = (Ledger.compute houseOptions (plannedGift :: houseItems)).result := by
  have leavesOut : LeavesOut houseOptions (plannedGift :: houseItems) houseItems := by
    apply LeavesOut.drop
    · decide
    · induction houseItems with
      | nil => exact .nil
      | cons i rest ih => exact .keep i ih
  obtain ⟨same, _⟩ := compute_of_leavesOut leavesOut
  exact ⟨leavesOut, same⟩

/-- By the end of the year, the gift is refused. -/
example : (Ledger.compute { houseOptions with now := day2021 12 31 } [plannedGift]).result.toOption = none := by
  simp only [Ledger.result_compute, replay, chronological_eq_self (List.pairwise_singleton _ _)]
  rfl

end Daybook
