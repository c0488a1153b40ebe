import Daybook.Proofs.Replay.Frame
import Daybook.Proofs.Replay.Order

/-!
# What counts by a time, and what counts later

A replay falls into two parts: the items that count at the time of the computation come first, and those
that count only later come after them. The first part is the same whichever rates are let through, and
the second leaves nothing but rates (`result_replay_eq`). So whether exchange rates from after the time of
the computation are let through is seen in the basket and nowhere else (`compute_of_ratePolicy`).
-/

namespace Daybook

/-! ### Chronological parts -/

/-- What counts by a time stands before what counts later. -/
theorem eq_append_of_pairwise_countsBy {items : List Item}
    (sorted : items.Pairwise fun a b => a.countsBy b) (now : Timestamp) :
    items = items.filter (Item.countsAt now) ++ items.filter fun i => !i.countsAt now :=
  eq_filter_append_of_pairwise (Item.countsAt now) sorted fun _ _ le early =>
    decide_eq_true (Timestamp.le_trans (of_decide_eq_true le) (of_decide_eq_true early))

namespace Books

variable {b : Books} {o o' : Options} {i : Item} {items : List Item}

/-! ### One item -/

/-- Where an item counts, neither the time of a computation nor its way with rates matters. -/
theorem apply_eq_of_countsAt (counts : i.countsAt o.now = true) (counts' : i.countsAt o'.now = true)
    (b : Books) : b.apply o i = b.apply o' i := by
  have early : i.effectiveDate ≤ o.now := of_decide_eq_true counts
  have early' : i.effectiveDate ≤ o'.now := of_decide_eq_true counts'
  cases i with
  | rates r =>
    have free : ¬ (o.ratePolicy = .gated ∧ o.now < r.timestamp) :=
      fun gated => Timestamp.not_lt.2 early gated.2
    have free' : ¬ (o'.ratePolicy = .gated ∧ o'.now < r.timestamp) :=
      fun gated => Timestamp.not_lt.2 early' gated.2
    rw [apply, apply, setRates, setRates, if_neg free, if_neg free']
  | balance s =>
    exact (if_neg (Timestamp.not_lt.2 early)).trans (if_neg (Timestamp.not_lt.2 early')).symm
  | transaction t =>
    exact (if_neg (Timestamp.not_lt.2 early)).trans (if_neg (Timestamp.not_lt.2 early')).symm
  | _ => rfl

/-- An item that counts only later sets its rates, if they are let through, and does nothing else. -/
theorem apply_of_not_countsAt (late : i.countsAt o.now = false) (b : Books) :
    ∃ notices, b.apply o i = .ok (b.quoting (i.ratesAfter o b.basket), notices) := by
  have late : o.now < i.effectiveDate := by
    rw [← Decidable.not_not (p := o.now < i.effectiveDate), Timestamp.not_lt]
    simpa [Item.countsAt] using late
  cases i with
  | rates r =>
    rw [apply, setRates, Item.ratesAfter]
    split
    · exact ⟨_, rfl⟩
    · exact ⟨_, rfl⟩
  | balance s => exact ⟨_, if_pos late⟩
  | transaction t => exact ⟨_, if_pos late⟩
  | _ => exact ⟨_, rfl⟩

/-! ### Many items -/

theorem foldTelling_eq_of_countsAt (counts : ∀ i ∈ items, i.countsAt o.now = true)
    (counts' : ∀ i ∈ items, i.countsAt o'.now = true) (b : Books) :
    foldTelling (apply o) b items = foldTelling (apply o') b items :=
  foldTelling_congr (fun i mem b => apply_eq_of_countsAt (counts i mem) (counts' i mem) b) b

theorem result_of_not_countsAt (late : ∀ i ∈ items, i.countsAt o.now = false) (b : Books) :
    (foldTelling (apply o) b items).result
      = .ok (b.quoting (items.foldl (Item.ratesAfter o) b.basket)) := by
  induction items generalizing b with
  | nil => rfl
  | cons i rest ih =>
    obtain ⟨notices, applied⟩ := apply_of_not_countsAt (late i List.mem_cons_self) b
    have later := ih (fun j mem => late j (List.mem_cons_of_mem _ mem))
      (b.quoting (i.ratesAfter o b.basket))
    rw [foldTelling, applied]
    exact later

/-- **A replay is a replay of what counts**, and what counts only later leaves nothing but rates. -/
theorem result_replay_eq (o : Options) (b : Books) (items : List Item) :
    (replay o b items).result
      = (foldTelling (apply o) b ((chronological items).filter (Item.countsAt o.now))).result.map
          fun b' => b'.quoting ((chronological items).foldl (Item.ratesAfter o) b.basket) := by
  have parts := eq_append_of_pairwise_countsBy (pairwise_chronological items) o.now
  rw [replay]
  generalize chronological items = sorted at parts
  conv => lhs; rw [parts, result_foldTelling_append]
  cases played : (foldTelling (apply o) b (sorted.filter (Item.countsAt o.now))).result with
  | error e => rfl
  | ok b' =>
    have after : ∀ i ∈ sorted.filter (fun i => !i.countsAt o.now), i.countsAt o.now = false :=
      fun i mem => by simpa using (List.mem_filter.1 mem).2
    have late := result_of_not_countsAt after b'
    have rates : (sorted.filter fun i => !i.countsAt o.now).foldl (Item.ratesAfter o) b'.basket
        = sorted.foldl (Item.ratesAfter o) b.basket := by
      conv => rhs; rw [parts, List.foldl_append]
      rw [(sameFrame_of_foldTelling played).basket]
      rfl
    rw [rates] at late
    exact late

end Books

/-! ### Rates -/

def Item.rateSet? : Item → Option RateSet
  | rates r => some r
  | _ => none

/-- The rate sets among items, in the order in which they count. -/
def rateSets (items : List Item) : List RateSet := (chronological items).filterMap Item.rateSet?

/-- The rates in force after rate sets, one after the other. -/
def Basket.ofRateSets (sets : List RateSet) : Basket := sets.foldl (fun b r => b.setAll r.rates) .empty

variable {o : Options} {items : List Item}

theorem foldl_ratesAfter_of_unconditional (free : o.ratePolicy = .unconditional) (rates : Basket) :
    items.foldl (Item.ratesAfter o) rates
      = (items.filterMap Item.rateSet?).foldl (fun b r => b.setAll r.rates) rates := by
  induction items generalizing rates with
  | nil => rfl
  | cons i rest ih =>
    rw [List.foldl_cons, ih]
    cases i with
    | rates r => simp [Item.ratesAfter, Item.rateSet?, free]
    | _ => rfl

theorem foldl_ratesAfter_of_gated (gated : o.ratePolicy = .gated) (rates : Basket) :
    items.foldl (Item.ratesAfter o) rates
      = ((items.filterMap Item.rateSet?).filter fun r => decide (r.timestamp ≤ o.now)).foldl
          (fun b r => b.setAll r.rates) rates := by
  induction items generalizing rates with
  | nil => rfl
  | cons i rest ih =>
    rw [List.foldl_cons, ih]
    cases i with
    | rates r =>
      by_cases counts : r.timestamp ≤ o.now
      · have free : ¬ o.now < r.timestamp := Timestamp.not_lt.2 counts
        simp [Item.ratesAfter, Item.rateSet?, counts, free]
      · have late : o.now < r.timestamp := by rwa [← Timestamp.not_lt, Decidable.not_not] at counts
        simp [Item.ratesAfter, Item.rateSet?, gated, counts, late]
    | _ => rfl

/-! ### Ledgers -/

namespace Ledger

/-- A computation in its steps: settings, accounts, the replay, and the figures of shares. -/
theorem result_compute (o : Options) (items : List Item) :
    (compute o items).result = (do
      let config ← (foldTelling Config.step .empty items).result
      let registry ← Registry.ofItems items
      let books ← (replay o ⟨registry, .empty⟩ items).result
      let accounts ← books.accounts.revalue o.costBasis
      .ok ⟨accounts, books.basket, config, groupsOf items, o.currency config, o.now⟩) := by
  rw [compute]
  cases (foldTelling Config.step .empty items).result with
  | error e => rfl
  | ok config =>
    cases Registry.ofItems items with
    | error e => rfl
    | ok registry => rfl

/-- Items that set up the same and are replayed alike come to the same ledger, or fail with the same error. -/
theorem result_compute_of_sameSetup {o : Options} {xs ys : List Item} (h : SameSetup xs ys)
    (played : ∀ b, (replay o b xs).result = (replay o b ys).result) :
    (compute o xs).result = (compute o ys).result := by
  simp only [result_compute, h.config, h.registry, h.groups, played]

end Ledger

/-- Another way with rates puts another basket into the ledger, and changes nothing else. -/
theorem result_compute_of_ratePolicy (o : Options) (policy : RatePolicy) (items : List Item) :
    (Ledger.compute { o with ratePolicy := policy } items).result
      = (Ledger.compute o items).result.map fun l =>
          { l with basket :=
              (chronological items).foldl (Item.ratesAfter { o with ratePolicy := policy }) .empty } := by
  rw [Ledger.result_compute, Ledger.result_compute]
  cases (foldTelling Config.step .empty items).result with
  | error e => rfl
  | ok config =>
    cases Registry.ofItems items with
    | error e => rfl
    | ok registry =>
      -- What counts is replayed alike, since the policy does not matter to it.
      have counts : ∀ i ∈ (chronological items).filter (Item.countsAt o.now), i.countsAt o.now = true :=
        fun i mem => (List.mem_filter.1 mem).2
      have early : foldTelling (Books.apply { o with ratePolicy := policy }) ⟨registry, .empty⟩
            ((chronological items).filter (Item.countsAt o.now))
          = foldTelling (Books.apply o) ⟨registry, .empty⟩
            ((chronological items).filter (Item.countsAt o.now)) :=
        Books.foldTelling_eq_of_countsAt (o := { o with ratePolicy := policy }) counts counts _
      show (replay { o with ratePolicy := policy } ⟨registry, .empty⟩ items).result >>= _
        = ((replay o ⟨registry, .empty⟩ items).result >>= _).map _
      rw [Books.result_replay_eq, Books.result_replay_eq, early]
      cases (foldTelling (Books.apply o) ⟨registry, .empty⟩
          ((chronological items).filter (Item.countsAt o.now))).result with
      | error e => rfl
      | ok books =>
        show books.accounts.revalue o.costBasis >>= _ = (books.accounts.revalue o.costBasis >>= _).map _
        cases books.accounts.revalue o.costBasis with
        | error e => rfl
        | ok accounts => rfl

/-- **Whether later rates are let through is seen in the basket and nowhere else.** With either policy a
computation fails with the same error, or comes to the same accounts, settings and groups; all rate sets
are in force then, in the order in which they count, or exactly those that count by the time of the
computation. -/
theorem compute_of_ratePolicy (o : Options) (items : List Item) :
    (∃ e, ∀ policy, (Ledger.compute { o with ratePolicy := policy } items).result = .error e) ∨
      ∃ l : Ledger,
        (Ledger.compute { o with ratePolicy := .unconditional } items).result
            = .ok { l with basket := .ofRateSets (rateSets items) } ∧
          (Ledger.compute { o with ratePolicy := .gated } items).result
            = .ok { l with basket :=
                      .ofRateSets ((rateSets items).filter fun r => decide (r.timestamp ≤ o.now)) } := by
  cases computed : (Ledger.compute o items).result with
  | error e =>
    refine .inl ⟨e, fun policy => ?_⟩
    rw [result_compute_of_ratePolicy, computed]
    rfl
  | ok l =>
    refine .inr ⟨l, ?_, ?_⟩
    · rw [result_compute_of_ratePolicy, computed, foldl_ratesAfter_of_unconditional rfl]
      rfl
    · rw [result_compute_of_ratePolicy, computed, foldl_ratesAfter_of_gated rfl]
      rfl

end Daybook
