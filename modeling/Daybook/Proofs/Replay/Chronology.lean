import Daybook.Replay

/-!
# The order in which items count

Timestamps are totally ordered, and `chronological` is the stable sort by effective date: it holds the
same items, in ascending order, and those of any one date as they were written. No other list has these
properties (`eq_of_filter_date_eq`).
-/

namespace Daybook

/-! ### Timestamps -/

namespace Timestamp

/-- No two minutes share a slot. -/
theorem eq_of_slot_eq {a b : Timestamp} (h : a.slot = b.slot) : a = b := by
  obtain ⟨⟨year, month, day, _, hm, hd⟩, hour, minute, hh, hmin⟩ := a
  obtain ⟨⟨year', month', day', _, hm', hd'⟩, hour', minute', hh', hmin'⟩ := b
  have days (y : Int) (m : Nat) : daysInMonth y m ≤ 31 := by
    unfold daysInMonth
    split
    · split <;> omega
    · split <;> omega
  have := days year month
  have := days year' month'
  simp only [slot] at h
  obtain rfl : minute = minute' := by omega
  obtain rfl : hour = hour' := by omega
  obtain rfl : day = day' := by omega
  obtain rfl : month = month' := by omega
  obtain rfl : year = year' := by omega
  rfl

theorem le_trans {a b c : Timestamp} (h : a ≤ b) (h' : b ≤ c) : a ≤ c := Int.le_trans h h'

theorem le_total (a b : Timestamp) : a ≤ b ∨ b ≤ a := Int.le_total a.slot b.slot

theorem le_antisymm {a b : Timestamp} (h : a ≤ b) (h' : b ≤ a) : a = b :=
  eq_of_slot_eq (Int.le_antisymm h h')

@[simp]
theorem not_lt {a b : Timestamp} : ¬ a < b ↔ b ≤ a := Int.not_lt

end Timestamp

/-! ### The stable sort -/

variable {xs ys : List Item}

/-- One item counts no later than another. -/
def Item.countsBy (a b : Item) : Bool := decide (a.effectiveDate ≤ b.effectiveDate)

theorem Item.countsBy_trans (a b c : Item) (h : a.countsBy b) (h' : b.countsBy c) : a.countsBy c :=
  decide_eq_true (Timestamp.le_trans (of_decide_eq_true h) (of_decide_eq_true h'))

theorem Item.countsBy_total (a b : Item) : a.countsBy b || b.countsBy a := by
  simpa [countsBy] using Timestamp.le_total a.effectiveDate b.effectiveDate

theorem chronological_perm (xs : List Item) : (chronological xs).Perm xs := List.mergeSort_perm _ _

@[simp]
theorem mem_chronological {x : Item} : x ∈ chronological xs ↔ x ∈ xs := List.mem_mergeSort

theorem pairwise_chronological (xs : List Item) :
    (chronological xs).Pairwise fun a b => a.countsBy b :=
  List.pairwise_mergeSort Item.countsBy_trans Item.countsBy_total xs

/-- Items that are written in order stay as they are. -/
theorem chronological_eq_self (h : xs.Pairwise fun a b => a.countsBy b) : chronological xs = xs :=
  List.mergeSort_of_pairwise h

/-- **Stability**: the items of one date stay in the order in which they are written. -/
theorem filter_date_chronological (t : Timestamp) (xs : List Item) :
    (chronological xs).filter (fun i => decide (i.effectiveDate = t))
      = xs.filter fun i => decide (i.effectiveDate = t) := by
  have same : (xs.filter fun i => decide (i.effectiveDate = t)).Pairwise
      fun a b => a.countsBy b := by
    refine List.pairwise_iff_forall_sublist.2 fun {a b} sub => ?_
    have ha : a.effectiveDate = t := by
      simpa using (List.mem_filter.1 (sub.subset List.mem_cons_self)).2
    have hb : b.effectiveDate = t := by
      simpa using (List.mem_filter.1 (sub.subset (List.mem_cons_of_mem _ List.mem_cons_self))).2
    exact decide_eq_true (by rw [ha, hb]; exact Int.le_refl _)
  -- The items of the date are a sorted sublist, so the sort keeps them; there are no others.
  have sub : (xs.filter fun i => decide (i.effectiveDate = t)).Sublist (chronological xs) :=
    List.sublist_mergeSort Item.countsBy_trans Item.countsBy_total same List.filter_sublist
  have sub' := sub.filter fun i => decide (i.effectiveDate = t)
  rw [List.filter_filter] at sub'
  simp only [Bool.and_self] at sub'
  have length := ((chronological_perm xs).filter fun i => decide (i.effectiveDate = t)).length_eq
  exact (sub'.eq_of_length_le (Nat.le_of_eq length)).symm

/-- Two ascending lists that hold the same items of every date, in the same order, are equal. -/
theorem eq_of_filter_date_eq (hx : xs.Pairwise fun a b => a.countsBy b)
    (hy : ys.Pairwise fun a b => a.countsBy b)
    (h : ∀ t, xs.filter (fun i => decide (i.effectiveDate = t))
      = ys.filter fun i => decide (i.effectiveDate = t)) :
    xs = ys := by
  have mem (x : Item) : x ∈ xs ↔ x ∈ ys := by
    have := congrArg (x ∈ ·) (h x.effectiveDate)
    simpa using this
  induction xs generalizing ys with
  | nil =>
    cases ys with
    | nil => rfl
    | cons y ys => exact absurd ((mem y).2 List.mem_cons_self) (by simp)
  | cons x xs ih =>
    cases ys with
    | nil => exact absurd ((mem x).1 List.mem_cons_self) (by simp)
    | cons y ys =>
      obtain ⟨firstx, sortedx⟩ := List.pairwise_cons.1 hx
      obtain ⟨firsty, sortedy⟩ := List.pairwise_cons.1 hy
      -- Each head is among the other list's items, so neither counts after the other.
      have hxy : x.effectiveDate ≤ y.effectiveDate := by
        rcases List.mem_cons.1 ((mem y).2 List.mem_cons_self) with rfl | later
        · exact Int.le_refl _
        · exact of_decide_eq_true (firstx y later)
      have hyx : y.effectiveDate ≤ x.effectiveDate := by
        rcases List.mem_cons.1 ((mem x).1 List.mem_cons_self) with rfl | later
        · exact Int.le_refl _
        · exact of_decide_eq_true (firsty x later)
      have date := Timestamp.le_antisymm hxy hyx
      have heads := h x.effectiveDate
      rw [List.filter_cons_of_pos (by simp), List.filter_cons_of_pos (by simp [date])] at heads
      obtain rfl : x = y := (List.cons.inj heads).1
      have rest (t : Timestamp) : xs.filter (fun i => decide (i.effectiveDate = t))
          = ys.filter fun i => decide (i.effectiveDate = t) := by
        have := h t
        simp only [List.filter_cons] at this
        split at this
        · exact (List.cons.inj this).2
        · exact this
      rw [ih sortedx sortedy rest fun z => by
        have := congrArg (z ∈ ·) (rest z.effectiveDate)
        simpa using this]

/-- In ascending items, what is early by some measure stands before everything else. -/
theorem eq_filter_append_of_pairwise {items : List Item} (early : Item → Bool)
    (sorted : items.Pairwise fun a b => a.countsBy b)
    (closed : ∀ a b : Item, a.countsBy b → early b = true → early a = true) :
    items = items.filter early ++ items.filter fun i => !early i := by
  induction items with
  | nil => rfl
  | cons i rest ih =>
    obtain ⟨before, sorted⟩ := List.pairwise_cons.1 sorted
    cases here : early i with
    | true => simp [here, ← ih sorted]
    | false =>
      have none : rest.filter early = [] := by
        refine List.filter_eq_nil_iff.2 fun j mem later => ?_
        have := closed i j (before j mem) later
        rw [here] at this
        cases this
      have all : rest.filter (fun i => !early i) = rest := by
        have := ih sorted
        rwa [none, List.nil_append, eq_comm] at this
      simp [here, none, all]

/-- Items can be left out before they are put in order as well as after it. -/
theorem chronological_filter (keep : Item → Bool) (items : List Item) :
    chronological (items.filter keep) = (chronological items).filter keep := by
  refine eq_of_filter_date_eq (pairwise_chronological _) ((pairwise_chronological items).filter _)
    fun t => ?_
  calc (chronological (items.filter keep)).filter (fun i => decide (i.effectiveDate = t))
      = (items.filter fun i => decide (i.effectiveDate = t)).filter keep := by
        rw [filter_date_chronological]
        simp only [List.filter_filter, Bool.and_comm]
    _ = ((chronological items).filter keep).filter (fun i => decide (i.effectiveDate = t)) := by
        rw [← filter_date_chronological]
        simp only [List.filter_filter, Bool.and_comm]

/-- What counts before a time, at the time, and after it. -/
theorem chronological_eq_append (t : Timestamp) (items : List Item) :
    chronological items
      = chronological (items.filter fun i => decide (i.effectiveDate < t))
        ++ (items.filter fun i => decide (i.effectiveDate = t))
        ++ chronological (items.filter fun i => decide (t < i.effectiveDate)) := by
  have sorted := pairwise_chronological items
  let early (i : Item) : Bool := decide (i.effectiveDate < t)
  let upTo (i : Item) : Bool := decide (i.effectiveDate ≤ t)
  have earlier := eq_filter_append_of_pairwise early sorted fun a b le lt =>
    decide_eq_true (Int.lt_of_le_of_lt (of_decide_eq_true le) (of_decide_eq_true lt))
  have sorted' : ((chronological items).filter fun i => !early i).Pairwise fun a b => a.countsBy b :=
    sorted.filter _
  have later := eq_filter_append_of_pairwise upTo sorted' fun a b le lt =>
    decide_eq_true (Timestamp.le_trans (of_decide_eq_true le) (of_decide_eq_true lt))
  have now : ((chronological items).filter fun i => !early i).filter upTo
      = items.filter fun i => decide (i.effectiveDate = t) := by
    rw [← filter_date_chronological, List.filter_filter]
    refine List.filter_congr fun i _ => ?_
    have same : i.effectiveDate = t ↔ i.effectiveDate ≤ t ∧ t ≤ i.effectiveDate :=
      ⟨fun h => h ▸ ⟨Int.le_refl _, Int.le_refl _⟩, fun h => Timestamp.le_antisymm h.1 h.2⟩
    rw [Bool.eq_iff_iff]
    simp [early, upTo, same]
  have after : ((chronological items).filter fun i => !early i).filter (fun i => !upTo i)
      = (chronological items).filter fun i => decide (t < i.effectiveDate) := by
    rw [List.filter_filter]
    refine List.filter_congr fun i _ => ?_
    have both : t < i.effectiveDate ↔ ¬ i.effectiveDate ≤ t ∧ ¬ i.effectiveDate < t :=
      ⟨fun h => ⟨Int.not_le.2 h, Int.lt_asymm h⟩, fun h => Int.not_le.1 h.1⟩
    rw [Bool.eq_iff_iff]
    simp [early, upTo, both]
  rw [chronological_filter, chronological_filter, ← after, ← now, List.append_assoc, ← later, ← earlier]

/-- **Items of one date that are written between others** count between these, behind those of the date that
are written before them and ahead of those that are written after. -/
theorem exists_chronological_insert {t : Timestamp} {block : List Item} (date : ∀ i ∈ block, i.effectiveDate = t)
    (before after : List Item) :
    ∃ early late, chronological (before ++ block ++ after) = early ++ block ++ late ∧
      chronological (before ++ after) = early ++ late ∧
      ∀ i ∈ late, i ∈ before ∧ t < i.effectiveDate ∨ i ∈ after ∧ t ≤ i.effectiveDate := by
  have none (keep : Item → Bool) (other : ∀ i, i.effectiveDate = t → keep i = false) : block.filter keep = [] :=
    List.filter_eq_nil_iff.2 fun i mem => by simp [other i (date i mem)]
  have all : block.filter (fun i => decide (i.effectiveDate = t)) = block :=
    List.filter_eq_self.2 fun i mem => decide_eq_true (date i mem)
  refine ⟨chronological ((before ++ after).filter fun i => decide (i.effectiveDate < t))
      ++ before.filter fun i => decide (i.effectiveDate = t),
    (after.filter fun i => decide (i.effectiveDate = t))
      ++ chronological ((before ++ after).filter fun i => decide (t < i.effectiveDate)), ?_, ?_, fun i mem => ?_⟩
  · rw [chronological_eq_append t]
    simp only [List.filter_append, all, List.append_assoc]
    rw [none _ fun i same => decide_eq_false (same ▸ Int.lt_irrefl _),
      none _ fun i same => decide_eq_false (same ▸ Int.lt_irrefl _)]
    simp only [List.nil_append]
  · rw [chronological_eq_append t]
    simp only [List.filter_append, List.append_assoc]
  · rcases List.mem_append.1 mem with here | later
    · obtain ⟨mem, same⟩ := List.mem_filter.1 here
      exact .inr ⟨mem, of_decide_eq_true same ▸ Int.le_refl _⟩
    · rw [mem_chronological, List.mem_filter, List.mem_append] at later
      obtain ⟨mem | mem, after⟩ := later
      · exact .inl ⟨mem, of_decide_eq_true after⟩
      · exact .inr ⟨mem, Int.le_of_lt (of_decide_eq_true after)⟩

end Daybook
