import Daybook.Proofs.Account.Recorded
import Daybook.Proofs.Decimal.Signs
import Daybook.Proofs.Replay.Balance
import Daybook.Proofs.Replay.Checkpoints
import Daybook.Proofs.Replay.Cutoff
import Daybook.Proofs.Replay.SideBySide

/-!
# Asserted balances

A balance that is asserted takes the place of the one that was computed, and there is a warning if the two
differ. Where none differs, the assertions could as well not be there: without them the same items come to
the same ledger, with balances of the same value (`assertions_only_warn`).

The two replays are followed side by side. The shorter one leaves out spare steps (`Omits`), which are those
of the asserted balances; all others find books in which the balances have the same value and everything
else is equal (`Tie.sameValues`).
-/

namespace Daybook

/-! ### Books with balances of the same value -/

/-- Balances of the same value, maybe with other digits, and equal positions. -/
def Tie.sameValues : Tie where
  balance _ v v' := v'.units = v.units
  held _ _ p p' := p' = p

theorem keeps_sameValues (s : Step) : Tie.sameValues.Keeps s := by
  cases s with
  | credit a x location =>
    intro v v' w w' same _ _ sum sum'
    show w'.units = w.units
    rw [sum, sum', same]
  | hold a company =>
    rintro p _ rfl
    rfl
  | record a company leg price location =>
    rintro p _ q q' rfl new new'
    exact congrArg some (Except.ok.inj (new'.symm.trans new))
  | earn a company money location =>
    rintro x p _ q q' rfl new new' _ _
    exact new'.symm.trans new
  | assertion time e =>
    obtain ⟨a, assertion, location⟩ := e
    cases assertion with
    | cash money => exact rfl
    | sharePrice company price =>
      rintro p _ rfl
      rfl
  | _ => trivial

theorem eq_of_sameValues {a : AccountRef} {s s' : AccountState} (h : s.Tied .sameValues a s') :
    s' = { s with balance := s'.balance } := by
  obtain ⟨balance, active, shares, totals⟩ := s
  obtain ⟨balance', active', shares', totals'⟩ := s'
  obtain ⟨_, rfl, rfl, both⟩ := h
  cases both with
  | none => rfl
  | some both => rw [SortedMap.eq_of_get?_eq both]

namespace Books

namespace Tied

variable {b b' next : Books} {s : Step} {notices : List Notice} {a : AccountRef} {company : String}

/-- The same is lacking in both. -/
theorem problem? (h : Tied .sameValues b b') (n : Need) : b'.problem? n = b.problem? n := by
  rw [Books.problem?, Books.problem?, h.basket]
  cases known : b.accounts.get? n.account with
  | none => rw [h.get?_eq_none known]
  | some found =>
    obtain ⟨⟨opening, state⟩, known', rfl, tied⟩ := h.exists_get? known
    have same : state = { found.state with balance := state.balance } := eq_of_sameValues tied
    generalize state.balance = v at same
    rw [known', same]
    rfl

theorem exists_modifyPosition (h : Tied .sameValues b b') {f : Position → Except Error Position}
    (taken : b.modifyPosition a company f = .ok next) : ∃ next', b'.modifyPosition a company f = .ok next' := by
  obtain ⟨found, shares, q, known, holds, changed, _⟩ := exists_of_modifyPosition taken
  obtain ⟨found', known', _, tied⟩ := h.exists_get? known
  have holds' : found'.state.shares = some shares := by
    rw [eq_of_sameValues tied]
    exact holds
  rw [Books.modifyPosition, known', Option.bind_some, holds']
  simp only [changed, ok_bind]
  exact ⟨_, rfl⟩

/-- **A step that is taken on one side is taken on the other**, where it adds exactly. -/
theorem exists_take (h : Tied .sameValues b b') (exact : b.AddsExactly s)
    (taken : b.take s = .ok (next, notices)) : ∃ next' notices', b'.take s = .ok (next', notices') := by
  cases s with
  | need n =>
    rw [Books.take, meet, h.problem?, (take_need_ok taken).2]
    exact ⟨_, _, rfl⟩
  | refuse why => cases taken
  | credit account amount location =>
    rw [Books.take, Books.credit]
    cases known : b.accounts.get? account with
    | none =>
      rw [h.get?_eq_none known]
      exact ⟨_, _, rfl⟩
    | some found =>
      obtain ⟨found', known', _, tied⟩ := h.exists_get? known
      obtain ⟨w, sum, _⟩ := exists_of_credit (ok_of_take rfl taken) known
      have value : w.units = found'.state.balance.units + amount.units := by
        rw [(exact _ (balanceOf?_of_get? known) w sum).1, tied.balance]
      obtain ⟨w', sum'⟩ := Decimal.exists_add_of_units_eq value
      rw [known']
      simp only [sum', orError, ok_bind]
      exact ⟨_, _, rfl⟩
  | hold account company =>
    obtain ⟨next', changed⟩ := h.exists_modifyPosition (ok_of_take rfl taken)
    rw [Books.take, changed]
    exact ⟨_, _, rfl⟩
  | record account company leg price location =>
    obtain ⟨next', changed⟩ := h.exists_modifyPosition (ok_of_take rfl taken)
    rw [Books.take, changed]
    exact ⟨_, _, rfl⟩
  | earn account company money location =>
    obtain ⟨earned, worth, changed⟩ := take_earn_ok taken
    obtain ⟨next', changed⟩ := h.exists_modifyPosition changed
    rw [Books.take, h.worth, worth, ok_bind, changed]
    exact ⟨_, _, rfl⟩
  | assertion time e =>
    obtain ⟨account, assertion, location⟩ := e
    cases assertion with
    | cash money => exact ⟨_, _, rfl⟩
    | sharePrice company price =>
      obtain ⟨next', changed⟩ := h.exists_modifyPosition (take_sharePrice_ok taken)
      refine ⟨next', [], ?_⟩
      simp only [Books.take, assertEntry, changed, ok_bind]
  | quote rates => exact ⟨_, _, rfl⟩
  | tell notice => exact ⟨_, _, rfl⟩

end Tied

end Books

/-! ### Steps that are left out -/

/-- A step that changes no more than the digits of a balance, as long as that agrees. -/
def Step.isSpare : Step → Bool
  | need _ => true
  | assertion _ e => e.cash?.isSome
  | _ => false

/-- The same steps without some spare ones. -/
inductive Omits : List Step → List Step → Prop
  | nil : Omits [] []
  | keep (s : Step) {steps kept : List Step} : Omits steps kept → Omits (s :: steps) (s :: kept)
  | leave {s : Step} {steps kept : List Step} : s.isSpare = true → Omits steps kept → Omits (s :: steps) kept

namespace Omits

theorem refl (steps : List Step) : Omits steps steps := by
  induction steps with
  | nil => exact .nil
  | cons s rest ih => exact .keep s ih

theorem append {xs xs' ys ys' : List Step} (h : Omits xs xs') (h' : Omits ys ys') :
    Omits (xs ++ ys) (xs' ++ ys') := by
  induction h with
  | nil => exact h'
  | keep s _ ih => exact .keep s ih
  | leave spare _ ih => exact .leave spare ih

theorem all {steps : List Step} (spare : ∀ s ∈ steps, s.isSpare = true) : Omits steps [] := by
  induction steps with
  | nil => exact .nil
  | cons s rest ih => exact .leave (spare s List.mem_cons_self) (ih fun s mem => spare s (List.mem_cons_of_mem _ mem))

theorem flatMap {α : Type} {f g : α → List Step} (each : ∀ x, Omits (f x) (g x)) (xs : List α) :
    Omits (xs.flatMap f) (xs.flatMap g) := by
  induction xs with
  | nil => exact .nil
  | cons x rest ih => exact (each x).append ih

/-- The steps of some elements of a list, if those of the others are spare. -/
theorem filter {α : Type} {f : α → List Step} {keep : α → Bool}
    (spare : ∀ x, keep x = false → ∀ s ∈ f x, s.isSpare = true) (xs : List α) :
    Omits (xs.flatMap f) ((xs.filter keep).flatMap f) := by
  induction xs with
  | nil => exact .nil
  | cons x rest ih =>
    cases kept : keep x with
    | true =>
      rw [List.filter_cons_of_pos kept]
      exact (refl (f x)).append ih
    | false =>
      rw [List.filter_cons_of_neg (by rw [kept]; exact Bool.false_ne_true)]
      exact (all (spare x kept)).append ih

end Omits

/-! ### Items without asserted balances -/

/-- An item without the balances that it asserts, if it counts at a time. -/
def Item.withoutCash (now : Timestamp) : Item → Item
  | balance a =>
    if a.timestamp ≤ now then balance { a with entries := a.entries.filter fun e => e.cash?.isNone }
    else balance a
  | i => i

theorem effectiveDate_withoutCash (now : Timestamp) (i : Item) :
    (i.withoutCash now).effectiveDate = i.effectiveDate := by
  cases i with
  | balance a =>
    rw [Item.withoutCash]
    split <;> rfl
  | _ => rfl

/-- All that an entry of a balance does is to look things up and to assert. -/
theorem BalanceEntry.isSpare_of_cash {e : BalanceEntry} {s : Step} (cash : e.cash?.isNone = false)
    (mem : s ∈ e.needs.map .need ∨ ∃ time, s = .assertion time e) : s.isSpare = true := by
  rcases mem with looked | ⟨time, rfl⟩
  · obtain ⟨_, _, rfl⟩ := List.mem_map.1 looked
    rfl
  · rw [Step.isSpare, ← Option.not_isNone, cash]
    rfl

theorem omits_withoutCash (o : Options) (i : Item) : Omits (i.steps o) ((i.withoutCash o.now).steps o) := by
  cases i with
  | balance a =>
    rw [Item.withoutCash]
    split
    · next counts =>
      rw [Item.steps, Item.steps, if_neg (Timestamp.not_lt.2 counts), if_neg (Timestamp.not_lt.2 counts)]
      refine .append ?_ ?_
      · rw [Item.needs, Item.needs, List.map_flatMap, List.map_flatMap]
        exact .filter (fun e cash s mem => e.isSpare_of_cash cash (.inl mem)) _
      · rw [List.map_eq_flatMap, List.map_eq_flatMap]
        exact .filter (fun e cash s mem => e.isSpare_of_cash cash (.inr ⟨_, List.mem_singleton.1 mem⟩)) _
    · exact .refl _
  | _ => exact .refl _

theorem chronological_map_withoutCash (now : Timestamp) (items : List Item) :
    chronological (items.map (Item.withoutCash now)) = (chronological items).map (Item.withoutCash now) := by
  refine (List.map_mergeSort fun a _ b _ => ?_).symm
  rw [effectiveDate_withoutCash, effectiveDate_withoutCash]

theorem omits_replaySteps (o : Options) (items : List Item) :
    Omits (replaySteps o items) (replaySteps o (items.map (Item.withoutCash o.now))) := by
  rw [replaySteps, replaySteps, chronological_map_withoutCash, List.flatMap_map]
  exact .flatMap (omits_withoutCash o) _

/-! ### Runs without spare steps -/

namespace Books.Tied

variable {b b' next : Books} {s : Step} {notices : List Notice} {steps kept : List Step}

/-- A spare step can be taken on one side alone, if it does not warn. -/
theorem take_spare (h : Tied .sameValues b b') (spare : s.isSpare = true)
    (agrees : notices.filter Notice.isWarning = []) (taken : b.take s = .ok (next, notices)) :
    Tied .sameValues next b' := by
  cases s with
  | need n =>
    obtain ⟨rfl, _⟩ := take_need_ok taken
    exact h
  | assertion time e =>
    obtain ⟨account, assertion, location⟩ := e
    cases assertion with
    | cash money =>
      cases taken
      rw [← modify_id b' account]
      refine h.modify fun found s' known tied => ⟨?_, tied.active, tied.totals, tied.shares⟩
      -- No warning means that the balances have the same value.
      have agree : found.state.balance.units = money.amount.units := by
        by_contra differ
        simp [drift?, known, Decimal.sameValue, differ, Notice.isWarning] at agrees
      exact Eq.trans tied.balance agree
    | sharePrice company price => cases spare
  | _ => cases spare

/-- **Spare steps that do not warn can be left out of a run.** -/
theorem run_omits (h : Tied .sameValues b b') (omits : Omits steps kept)
    (agree : (foldTelling Books.take b steps).notices.filter Notice.isWarning = [])
    (exact : b.RunsExactly steps) (exact' : b'.RunsExactly kept)
    (ran : (foldTelling Books.take b steps).result = .ok next) :
    ∃ next', (foldTelling Books.take b' kept).result = .ok next' ∧ Tied .sameValues next next' := by
  induction omits generalizing b b' with
  | nil =>
    cases ran
    exact ⟨b', rfl, h⟩
  | @keep s steps kept _ ih =>
    obtain ⟨c, notices, taken, ran⟩ := result_foldTelling_cons.1 ran
    rw [foldTelling, taken, List.filter_append, List.append_eq_nil_iff] at agree
    obtain ⟨c', _, taken'⟩ := h.exists_take exact.1 taken
    have tied := h.take (keeps_sameValues s) exact.1 exact'.1 taken taken'
    obtain ⟨next', ran', tied⟩ := ih tied agree.2 (exact.tail taken) (exact'.tail taken') ran
    exact ⟨next', result_foldTelling_cons.2 ⟨c', _, taken', ran'⟩, tied⟩
  | @leave s steps kept spare _ ih =>
    obtain ⟨c, notices, taken, ran⟩ := result_foldTelling_cons.1 ran
    rw [foldTelling, taken, List.filter_append, List.append_eq_nil_iff] at agree
    exact ih (h.take_spare spare agree.1 taken) agree.2 (exact.tail taken) exact' ran

end Books.Tied

/-! ### Figures -/

/-- Accounts with balances of the same value that are otherwise the same. -/
structure Account.SameInValue (a a' : Account) : Prop where
  balance : a'.state.balance.units = a.state.balance.units
  others : a' = { a with state := { a.state with balance := a'.state.balance } }

theorem Account.sameInValue_of_tied {a a' : Account} (h : a.Tied .sameValues a') : a.SameInValue a' := by
  obtain ⟨opening, state⟩ := a
  obtain ⟨opening', state'⟩ := a'
  obtain ⟨rfl, tied⟩ := h
  exact ⟨tied.balance, congrArg (Account.mk _) (eq_of_sameValues tied)⟩

/-- Figures are worked out from positions, whatever the balance is. -/
theorem Account.revalued_withBalance (a : Account) (method : CostBasis) (v : Decimal) :
    Account.revalued method { a with state := { a.state with balance := v } }
      = (a.revalued method).map fun state => { state with balance := v } := by
  obtain ⟨opening, balance, active, shares, totals⟩ := a
  cases shares with
  | none => rfl
  | some shares =>
    show (shares.revise (revalueInto method opening.account) {} >>= _)
      = (shares.revise (revalueInto method opening.account) {} >>= _).map _
    cases shares.revise (revalueInto method opening.account) {} <;> rfl

namespace Registry

theorem exists_modifyAll {ε : Type} {r : Registry} {f : Account → Except ε AccountState} {accounts : List Account}
    (h : mapStates f r.accounts = .ok accounts) : ∃ r', r.modifyAll f = .ok r' ∧ r'.accounts = accounts := by
  rw [modifyAll]
  split
  · next failed =>
    rw [h] at failed
    cases failed
  · next _ new =>
    rw [h] at new
    cases new
    exact ⟨_, rfl, rfl⟩

theorem exists_mapStates {method : CostBasis} {accounts accounts' new : List Account}
    (same : List.Forall₂ Account.SameInValue accounts accounts')
    (worked : mapStates (Account.revalued method) accounts = .ok new) :
    ∃ new', mapStates (Account.revalued method) accounts' = .ok new' ∧ List.Forall₂ Account.SameInValue new new' := by
  induction same generalizing new with
  | nil =>
    cases worked
    exact ⟨[], rfl, .nil⟩
  | @cons a a' rest rest' first _ ih =>
    simp only [mapStates, bind_eq_ok_iff, Except.ok.injEq] at worked
    obtain ⟨state, here, later, worked, rfl⟩ := worked
    obtain ⟨later', worked', later⟩ := ih worked
    have here' : a'.revalued method = .ok { state with balance := a'.state.balance } := by
      rw [first.others, Account.revalued_withBalance, here]
      rfl
    refine ⟨{ a' with state := { state with balance := a'.state.balance } } :: later', ?_, .cons ⟨?_, ?_⟩ later⟩
    · rw [mapStates, here', ok_bind, worked']
      rfl
    · exact first.balance.trans (congrArg Decimal.units (Account.revalued_ok here).1.symm)
    · have opening : a'.opening = a.opening := by rw [first.others]
      exact congrArg (Account.mk · _) opening

/-- **Figures can be worked out of balances with other digits**, and are the same. -/
theorem exists_revalue {r r' new : Registry} {method : CostBasis}
    (same : List.Forall₂ Account.SameInValue r.accounts r'.accounts) (worked : r.revalue method = .ok new) :
    ∃ new', r'.revalue method = .ok new' ∧ List.Forall₂ Account.SameInValue new.accounts new'.accounts := by
  obtain ⟨_, mapped, same⟩ := exists_mapStates same (mapStates_of_modifyAll worked)
  obtain ⟨new', worked', rfl⟩ := exists_modifyAll mapped
  exact ⟨new', worked', same⟩

end Registry

/-! ### Ledgers -/

theorem Config.isWarning_of_step {c next : Config} {i : Item} {notices : List Notice}
    (h : c.step i = .ok (next, notices)) : notices.filter Notice.isWarning = [] := by
  cases i with
  | setting s =>
    rw [step, set] at h
    split at h
    · simp only [bind_eq_ok_iff, Except.ok.injEq, Prod.mk.injEq] at h
      obtain ⟨_, _, _, rfl⟩ := h
      rfl
    · split at h
      · simp only [bind_eq_ok_iff, Except.ok.injEq, Prod.mk.injEq] at h
        obtain ⟨_, _, _, rfl⟩ := h
        rfl
      · cases h
        rfl
  | _ =>
    cases h
    rfl

/-- Nothing that is told of settings is a warning. -/
theorem Config.isWarning_of_foldTelling (c : Config) (items : List Item) :
    (foldTelling Config.step c items).notices.filter Notice.isWarning = [] := by
  induction items generalizing c with
  | nil => rfl
  | cons i rest ih =>
    rw [foldTelling]
    split
    · rfl
    · next c' notices taken =>
      rw [List.filter_append, ih, isWarning_of_step taken]
      rfl

/-- Balances set nothing up. -/
theorem sameSetup_withoutCash (now : Timestamp) (items : List Item) :
    SameSetup (items.map (Item.withoutCash now)) items := by
  apply sameSetup_of_filter
  induction items with
  | nil => rfl
  | cons i rest ih =>
    rw [List.map_cons, List.filter_cons, List.filter_cons, ih]
    cases i with
    | balance a =>
      rw [Item.withoutCash]
      split <;> rfl
    | _ => rfl

namespace Ledger

/-- The comparisons of asserted balances in the replay of some items. -/
def checkpoints (o : Options) (items : List Item) : List Checkpoint :=
  match Registry.ofItems items with
  | .error _ => []
  | .ok registry => Books.compareAll o ⟨registry, .empty⟩ (chronological items)

/-- Ledgers with balances of the same value that are otherwise the same. -/
structure SameInValue (l l' : Ledger) : Prop where
  accounts : List.Forall₂ Account.SameInValue l.accounts.accounts l'.accounts.accounts
  others : l' = { l with accounts := l'.accounts }

variable {o : Options} {items : List Item} {l : Ledger}

/-- What is told of a computation is told of settings, and then in the replay. -/
theorem notices_of_compute {registry : Registry} (h : (compute o items).result = .ok l)
    (opened : Registry.ofItems items = .ok registry) :
    (compute o items).notices.filter Notice.isWarning
      = (replay o ⟨registry, .empty⟩ items).notices.filter Notice.isWarning := by
  obtain ⟨config, set, -⟩ := bind_eq_ok_iff.1 (result_compute o items ▸ h)
  rw [compute, set, opened]
  show List.filter _ (_ ++ _) = _
  rw [List.filter_append, Config.isWarning_of_foldTelling, List.nil_append]

/-- **Asserted balances warn where they differ.** -/
theorem warnings_of_compute (h : (compute o items).result = .ok l) :
    (checkpoints o items).map Checkpoint.toAsserted = (chronological items).flatMap (Item.asserted o.now) ∧
      (compute o items).notices.filter Notice.isWarning = (checkpoints o items).filterMap Checkpoint.warning? := by
  obtain ⟨registry, books, opened, played, -⟩ := exists_of_compute h
  rw [notices_of_compute h opened, checkpoints, opened]
  exact Books.compareAll_of_foldTelling played

/-- **Asserted balances that agree can be left out.** -/
theorem exists_without_assertions (h : (compute o items).result = .ok l)
    (agree : (compute o items).notices.filter Notice.isWarning = []) (exact : ReplaysExactly o items)
    (exact' : ReplaysExactly o (items.map (Item.withoutCash o.now))) :
    ∃ l', (compute o (items.map (Item.withoutCash o.now))).result = .ok l' ∧ l.SameInValue l' := by
  obtain ⟨registry, books, opened, played, -⟩ := exists_of_compute h
  rw [notices_of_compute h opened] at agree
  have outcome : (replay o ⟨registry, .empty⟩ items).outcome = .ok (books, _) := outcome_eq_ok_iff.2 ⟨played, rfl⟩
  rw [Books.replay_eq_steps] at outcome
  obtain ⟨ran, told⟩ := outcome_eq_ok_iff.1 outcome
  rw [← told] at agree
  have setup := sameSetup_withoutCash o.now items
  have opened' := setup.registry.trans opened
  rw [result_compute] at h ⊢
  simp only [opened, opened', ok_bind, bind_eq_ok_iff, Except.ok.injEq] at h ⊢
  obtain ⟨config, set, _, played', accounts, worked, rfl⟩ := h
  cases Except.ok.inj (played.symm.trans played')
  -- The items come to books in which only balances are different, and these have the same value.
  obtain ⟨books', played', tied⟩ :=
    (Books.Tied.refl (fun _ _ => rfl) (fun _ _ _ => rfl) ⟨registry, .empty⟩).run_omits
      (omits_replaySteps o items) agree
      (exact registry (toOption_eq_some_iff.2 opened)) (exact' registry (toOption_eq_some_iff.2 opened')) ran
  obtain ⟨accounts', worked', same⟩ :=
    Registry.exists_revalue (tied.accounts.imp fun _ _ => Account.sameInValue_of_tied) worked
  refine ⟨_, ⟨config, ?_, books', ?_, accounts', worked', rfl⟩, same, ?_⟩
  · rw [setup.config, set]
  · rw [replay, Books.result_eq_steps]
    exact played'
  · rw [tied.basket, setup.groups]

end Ledger

/-- **Assertions warn exactly where they differ, and matter no further.** The balances that are compared are
those that the items assert, each once and in the order in which they count; the warnings are those of the
comparisons that fail, in that order. If there are none, and nothing is rounded, then without the asserted
balances the items come to the same ledger, with balances of the same value. -/
theorem assertions_only_warn {o : Options} {items : List Item} {l : Ledger}
    (h : (Ledger.compute o items).result = .ok l) :
    (Ledger.checkpoints o items).map Checkpoint.toAsserted = (chronological items).flatMap (Item.asserted o.now) ∧
      (Ledger.compute o items).notices.filter Notice.isWarning
        = (Ledger.checkpoints o items).filterMap Checkpoint.warning? ∧
      ((Ledger.compute o items).notices.filter Notice.isWarning = [] →
        ReplaysExactly o items → ReplaysExactly o (items.map (Item.withoutCash o.now)) →
        ∃ l', (Ledger.compute o (items.map (Item.withoutCash o.now))).result = .ok l' ∧ l.SameInValue l') := by
  obtain ⟨compared, warned⟩ := Ledger.warnings_of_compute h
  exact ⟨compared, warned, Ledger.exists_without_assertions h⟩

/-- The household asserts what is on its bank account, to the cent, and what its shares are worth, and pays
a bill after that. -/
def checkedItems : List Item :=
  houseItems ++
    [.balance
      { timestamp := day2021 3 20
        entries :=
          [⟨houseBank, .cash ⟨(Decimal.fit? false 683500 2).getD .zero, .usd⟩, houseLine 34⟩,
            ⟨houseBroker, .sharePrice "ACME" (usd 120), houseLine 35⟩]
        location := houseLine 33 },
      .transaction
      { kind := .expense
        timestamp := day2021 3 21
        ins := [.onAccount houseBank (usd 35).neg (houseLine 38)]
        outs := [.outside "plumber" (houseLine 39)]
        tags := []
        origin := .ledger
        location := houseLine 37 }]

theorem chronological_checkedItems : chronological checkedItems = checkedItems :=
  chronological_eq_self (by decide)

theorem chronological_uncheckedItems :
    chronological (checkedItems.map (Item.withoutCash houseOptions.now))
      = checkedItems.map (Item.withoutCash houseOptions.now) :=
  chronological_eq_self (by decide)

/-- The household could as well not have looked. -/
theorem unchecked_of_checkedItems :
    ∃ l l', (Ledger.compute houseOptions checkedItems).result = .ok l ∧
      (Ledger.compute houseOptions (checkedItems.map (Item.withoutCash houseOptions.now))).result = .ok l' ∧
      l.SameInValue l' := by
  have computed : (Ledger.compute houseOptions checkedItems).result.toOption.isSome ∧
      (Ledger.compute houseOptions checkedItems).notices.filter Notice.isWarning = [] := by
    simp only [Ledger.compute, replay, chronological_checkedItems]
    decide +kernel
  obtain ⟨isSome, agree⟩ := computed
  obtain ⟨l, computed⟩ := Option.isSome_iff_exists.1 isSome
  have exact : ReplaysExactly houseOptions checkedItems := by
    rw [ReplaysExactly, replaySteps, chronological_checkedItems]
    decide +kernel
  have exact' : ReplaysExactly houseOptions (checkedItems.map (Item.withoutCash houseOptions.now)) := by
    rw [ReplaysExactly, replaySteps, chronological_uncheckedItems]
    decide +kernel
  have computed := toOption_eq_some_iff.1 computed
  obtain ⟨l', computed', same⟩ := (assertions_only_warn computed).2.2 agree exact exact'
  exact ⟨l, l', computed, computed', same⟩

end Daybook
