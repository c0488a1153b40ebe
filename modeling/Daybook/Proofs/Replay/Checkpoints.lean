import Daybook.Proofs.Replay.Frame
import Daybook.Proofs.Replay.InPlace

/-!
# Where balances are compared

A balance that is asserted is compared with what its account has at that point of the replay: after
everything that counts before it, and after the entries before it of the same assertion. The comparisons of
a replay are listed here (`Books.compareAll`). They are those that the items assert, each once and in order,
and the warnings of the replay are those of the comparisons that fail (`compareAll_of_foldTelling`).
-/

namespace Daybook

/-! ### Asserted balances -/

/-- The balance that an entry asserts. -/
def BalanceEntry.cash? (e : BalanceEntry) : Option Money :=
  match e.assertion with
  | .cash money => some money
  | .sharePrice _ _ => none

/-- An asserted balance: when, by which entry, and how much. -/
structure Asserted where
  time : Timestamp
  entry : BalanceEntry
  money : Money
  deriving DecidableEq

/-- The balances that an item asserts, if it counts at a time. -/
def Item.asserted (now : Timestamp) : Item → List Asserted
  | balance a =>
    if a.timestamp ≤ now then a.entries.filterMap fun e => e.cash?.map (⟨a.timestamp, e, ·⟩) else []
  | _ => []

/-- An asserted balance and the one that was computed. -/
structure Checkpoint extends Asserted where
  balance : Decimal
  deriving DecidableEq

/-- The warning that the two balances differ in value, if they do. -/
def Checkpoint.warning? (c : Checkpoint) : Option Notice :=
  if c.balance.units = c.money.amount.units then none
  else some (.drift c.entry.location c.entry.account c.money c.time c.balance)

namespace Books

/-- The balance that an entry asserts, with the one that it finds. -/
def compare? (time : Timestamp) (b : Books) (e : BalanceEntry) : Option Checkpoint :=
  e.cash?.bind fun money => (b.balanceOf? e.account).map fun balance => ⟨⟨time, e, money⟩, balance⟩

/-- The comparisons of an assertion: each entry finds what the entries before it have left. -/
def compareEntries (time : Timestamp) (b : Books) : List BalanceEntry → List Checkpoint
  | [] => []
  | e :: rest =>
    (compare? time b e).toList ++
      match assertEntry time b e with
      | .error _ => []
      | .ok (next, _) => compareEntries time next rest

/-- The comparisons of an item, if it counts. -/
def compareItem (o : Options) (b : Books) : Item → List Checkpoint
  | .balance a => if a.timestamp ≤ o.now then compareEntries a.timestamp b a.entries else []
  | _ => []

/-- The comparisons of items that are applied one after the other. -/
def compareAll (o : Options) (b : Books) : List Item → List Checkpoint
  | [] => []
  | i :: rest =>
    compareItem o b i ++
      match b.apply o i with
      | .error _ => []
      | .ok (next, _) => compareAll o next rest

variable {o : Options} {b b' next : Books} {time : Timestamp} {notices : List Notice}

/-! ### Comparisons and warnings -/

/-- An entry compares what it asserts, and warns if that differs. -/
theorem compare_of_assertEntry {e : BalanceEntry} (known : ∃ found, b.accounts.get? e.account = some found)
    (h : assertEntry time b e = .ok (next, notices)) :
    (compare? time b e).map Checkpoint.toAsserted = e.cash?.map (⟨time, e, ·⟩) ∧
      notices.filter Notice.isWarning = ((compare? time b e).bind Checkpoint.warning?).toList := by
  obtain ⟨found, known⟩ := known
  obtain ⟨account, assertion, location⟩ := e
  cases assertion with
  | cash money =>
    cases h
    simp only [compare?, BalanceEntry.cash?, Option.bind_some, balanceOf?_of_get? known, Option.map_some, drift?, known,
      Checkpoint.warning?, Decimal.sameValue, beq_iff_eq, true_and]
    split <;> rfl
  | sharePrice company price =>
    simp only [assertEntry, bind_eq_ok_iff, Except.ok.injEq, Prod.mk.injEq] at h
    obtain ⟨_, _, _, rfl⟩ := h
    exact ⟨rfl, rfl⟩

theorem compareEntries_of_assertEntries {entries : List BalanceEntry}
    (known : ∀ e ∈ entries, ∃ found, b.accounts.get? e.account = some found)
    (h : assertEntries time b entries = .ok (b', notices)) :
    (compareEntries time b entries).map Checkpoint.toAsserted
        = entries.filterMap (fun e => e.cash?.map (⟨time, e, ·⟩)) ∧
      notices.filter Notice.isWarning = (compareEntries time b entries).filterMap Checkpoint.warning? := by
  induction entries generalizing b notices with
  | nil =>
    cases h
    exact ⟨rfl, rfl⟩
  | cons e rest ih =>
    simp only [assertEntries, bind_eq_ok_iff, Except.ok.injEq, Prod.mk.injEq] at h
    obtain ⟨⟨next, first⟩, asserted, ⟨_, later⟩, h, rfl, rfl⟩ := h
    have openings := (sameFrame_of_assertEntry asserted).openings
    obtain ⟨all, warned⟩ := ih (fun e mem => known_of_openings openings (known e (List.mem_cons_of_mem _ mem))) h
    obtain ⟨here, warns⟩ := compare_of_assertEntry (known e List.mem_cons_self) asserted
    rw [compareEntries, asserted, filterMap_cons_eq_append, ← here, ← all, List.filter_append, warns, warned]
    dsimp only
    rw [List.map_append, List.filterMap_append]
    cases compare? time b e with
    | none => exact ⟨rfl, rfl⟩
    | some c => exact ⟨rfl, by rw [Option.toList_some, filterMap_cons_eq_append]; simp⟩

theorem isWarning_of_equity {t : Transaction} (h : b.equity t = .ok (next, notices)) :
    notices.filter Notice.isWarning = [] := by
  simp only [equity, bind_eq_ok_iff] at h
  obtain ⟨_, _, _, _, _, _, _, _, _, _, h⟩ := h
  split at h
  · simp only [bind_eq_ok_iff, Except.ok.injEq, Prod.mk.injEq] at h
    obtain ⟨_, _, _, rfl⟩ := h
    rfl
  · cases h
    rfl

/-- A transaction does not warn. -/
theorem isWarning_of_transaction {t : Transaction} (h : b.transaction t = .ok (next, notices)) :
    notices.filter Notice.isWarning = [] := by
  cases applied_of_transaction h with
  | equity _ _ _ traded => exact isWarning_of_equity traded
  | _ => rfl

/-- **An item compares what it asserts, and warns of what differs.** -/
theorem compareItem_of_apply {i : Item} (h : b.apply o i = .ok (next, notices)) :
    (compareItem o b i).map Checkpoint.toAsserted = i.asserted o.now ∧
      notices.filter Notice.isWarning = (compareItem o b i).filterMap Checkpoint.warning? := by
  cases i with
  | balance a =>
    rw [apply] at h
    rw [compareItem, Item.asserted]
    split at h
    · next late =>
      cases h
      have uncounted : ¬ a.timestamp ≤ o.now := Int.not_le.2 late
      rw [if_neg uncounted, if_neg uncounted]
      exact ⟨rfl, rfl⟩
    · next counts =>
      rw [if_pos (Timestamp.not_lt.1 counts), if_pos (Timestamp.not_lt.1 counts)]
      obtain ⟨_, checked, asserted⟩ := bind_eq_ok_iff.1 h
      exact compareEntries_of_assertEntries (fun e mem => (checkEntries_ok checked e mem).1) asserted
  | transaction t =>
    refine ⟨rfl, ?_⟩
    rw [apply] at h
    split at h
    · cases h
      rfl
    · exact isWarning_of_transaction h
  | rates r =>
    rw [apply, setRates] at h
    split at h <;> cases h <;> exact ⟨rfl, rfl⟩
  | _ =>
    cases h
    exact ⟨rfl, rfl⟩

/-- **Every asserted balance is compared, and the warnings are those of the comparisons that fail.** -/
theorem compareAll_of_foldTelling {items : List Item} (played : (foldTelling (apply o) b items).result = .ok b') :
    (compareAll o b items).map Checkpoint.toAsserted = items.flatMap (Item.asserted o.now) ∧
      (foldTelling (apply o) b items).notices.filter Notice.isWarning
        = (compareAll o b items).filterMap Checkpoint.warning? := by
  induction items generalizing b with
  | nil => exact ⟨rfl, rfl⟩
  | cons i rest ih =>
    obtain ⟨next, notices, applied, played⟩ := result_foldTelling_cons.1 played
    obtain ⟨all, warned⟩ := ih played
    obtain ⟨here, warns⟩ := compareItem_of_apply applied
    rw [compareAll, foldTelling, applied]
    dsimp only
    rw [List.map_append, List.filterMap_append, List.filter_append, List.flatMap_cons, here, all, warns, warned]
    exact ⟨rfl, rfl⟩

end Books

/-! ### Steps that assert -/

/-- The balance that a step asserts. -/
def Step.asserted? : Step → Option Asserted
  | assertion time e => e.cash?.map (⟨time, e, ·⟩)
  | _ => none

section

variable {t : Transaction} {s : Step}

theorem asserted?_of_mem_writes (mem : s ∈ t.writes) : s.asserted? = none := by
  rw [Transaction.writes] at mem
  split at mem
  · cases mem
  split at mem
  case h_4 =>
    split at mem
    · obtain rfl := List.mem_singleton.1 mem
      rfl
    · split at mem
      · obtain rfl := List.mem_singleton.1 mem
        rfl
      · next m _ price _ =>
        simp only [Books.ShareMove.writes, List.mem_append, List.mem_cons, List.not_mem_nil, or_false] at mem
        rcases mem with ((rfl | rfl | rfl | rfl) | back) | rfl
        any_goals rfl
        split at back
        · simp only [List.mem_cons, List.not_mem_nil, or_false] at back
          rcases back with rfl | rfl <;> rfl
        · cases back
  case h_5 =>
    split at mem
    · obtain rfl := List.mem_singleton.1 mem
      rfl
    · simp only [List.mem_cons, List.not_mem_nil, or_false] at mem
      rcases mem with rfl | rfl <;> rfl
  all_goals
    obtain ⟨leg, _, credits⟩ := List.mem_filterMap.1 mem
    obtain ⟨_, _, rfl⟩ := Option.map_eq_some_iff.1 credits
    rfl

theorem asserted?_of_mem_needs {needs : List Need} (mem : s ∈ needs.map .need) : s.asserted? = none := by
  obtain ⟨_, _, rfl⟩ := List.mem_map.1 mem
  rfl

/-- The steps of an item assert what the item asserts. -/
theorem Item.asserted_steps (o : Options) (i : Item) :
    (i.steps o).filterMap Step.asserted? = i.asserted o.now := by
  cases i with
  | balance a =>
    by_cases counts : a.timestamp ≤ o.now
    · have looked : ((balance a).needs.map .need).filterMap Step.asserted? = [] :=
        List.filterMap_eq_nil_iff.2 fun s mem => asserted?_of_mem_needs mem
      rw [steps, if_neg (Timestamp.not_lt.2 counts), asserted, if_pos counts, List.filterMap_append, looked,
        List.nil_append, List.filterMap_map]
      rfl
    · have late : o.now < a.timestamp := Int.not_le.1 counts
      rw [steps, if_pos late, asserted, if_neg counts]
      rfl
  | transaction t =>
    rw [steps]
    split
    · rfl
    · refine List.filterMap_eq_nil_iff.2 fun s mem => ?_
      rcases List.mem_append.1 mem with looked | written
      · exact asserted?_of_mem_needs looked
      · exact asserted?_of_mem_writes written
  | rates r =>
    rw [steps]
    split <;> rfl
  | _ => rfl

end

end Daybook
