import Daybook.Proofs.Replay.Cutoff
import Daybook.Proofs.Replay.InPlace
import Mathlib.Data.List.Perm.Basic

/-!
# Accounts that are opened in another order

The order in which accounts are opened is the order in which they stand in a ledger, and nothing else
(`reopened_of_compute`). An account is found wherever it stands, so the steps of a replay do the same to the same
accounts in another order (`Books.Reordered.take`).
-/

namespace Daybook

/-- The same items, but for the order of the openings and where these stand among the others. -/
structure Reopened (items items' : List Item) : Prop where
  openings : (items'.filterMap Item.opening?).Perm (items.filterMap Item.opening?)
  others : (items'.filter fun i => i.opening?.isNone) = items.filter fun i => i.opening?.isNone

/-! ### Registries -/

namespace Registry

variable {r r' : Registry}

/-- An account is found wherever it stands. -/
theorem get?_of_perm (h : r'.accounts.Perm r.accounts) (account : AccountRef) :
    r'.get? account = r.get? account := by
  cases found : r.get? account with
  | some a =>
    have there : r'.get? a.reference = some a := get?_of_mem (h.mem_iff.2 (mem_of_get? found))
    rwa [reference_of_get? found] at there
  | none =>
    unfold get? at found ⊢
    rw [List.find?_eq_none] at found ⊢
    intro a mem
    exact found a (h.mem_iff.1 mem)

/-- A change of all states leaves the order of the accounts to itself. -/
theorem perm_of_mapStates {ε : Type} {f : Account → Except ε AccountState} {accounts accounts' new new' : List Account}
    (h : accounts'.Perm accounts) (worked : mapStates f accounts = .ok new)
    (worked' : mapStates f accounts' = .ok new') : new'.Perm new := by
  let after (a : Account) : Except ε Account := (f a).map (Account.mk a.opening)
  have each {accounts new : List Account} (worked : mapStates f accounts = .ok new) :
      new.map Except.ok = accounts.map after := by
    apply map_eq_of_forall₂
    apply (forall₂_of_mapStates worked).imp
    rintro a _ ⟨state, here, rfl⟩
    show _ = (f a).map _
    rw [here]
    rfl
  have injective : Function.Injective (Except.ok : Account → Except ε Account) := by
    intro a b same
    exact Except.ok.inj same
  apply (List.map_perm_map_iff injective).1
  rw [each worked, each worked']
  exact h.map after

end Registry

/-! ### Accounts that items open and close -/

def Item.closes (a : AccountRef) : Item → Bool
  | closing c => decide (a = c.account)
  | _ => false

namespace Account

def close (a : Account) : Account := { a with state := { a.state with active := false } }

/-- The account, closed if one of the items closes it. -/
def closedBy (items : List Item) (a : Account) : Account :=
  if items.any (Item.closes a.reference) then a.close else a

variable {c : Closing} {rest : List Item} {a : Account}

theorem closedBy_closing (here : a.reference = c.account) :
    closedBy (.closing c :: rest) a = closedBy rest a.close := by
  unfold closedBy
  rw [List.any_cons, show Item.closes a.reference (.closing c) = true from decide_eq_true here, Bool.true_or,
    if_pos rfl]
  split <;> rfl

theorem closedBy_closing_of_ne (other : a.reference ≠ c.account) :
    closedBy (.closing c :: rest) a = closedBy rest a := by
  unfold closedBy
  rw [List.any_cons, show Item.closes a.reference (.closing c) = false from decide_eq_false other, Bool.false_or]

theorem reference_closedBy (items : List Item) (a : Account) : (a.closedBy items).reference = a.reference := by
  unfold closedBy
  split <;> rfl

end Account

namespace Registry

variable {r r' : Registry} {items items' : List Item}

/-- To close an account now, or to have it closed by the next of the items, is the same. -/
theorem map_closedBy_modify (r : Registry) (c : Closing) (rest : List Item) :
    (r.modify c.account fun state => { state with active := false }).accounts.map (Account.closedBy rest)
      = r.accounts.map (Account.closedBy (.closing c :: rest)) := by
  show (r.accounts.map _).map _ = r.accounts.map _
  rw [List.map_map]
  apply List.map_congr_left
  intro a _
  by_cases here : a.reference = c.account
  · rw [Account.closedBy_closing here, Function.comp_apply, if_pos here]
    rfl
  · rw [Account.closedBy_closing_of_ne here, Function.comp_apply, if_neg here]

/-- An account that is opened later is another one than those that are there. -/
theorem ne_of_opened_later {opened : List Opening} {account : AccountRef} {found : Account}
    (later : r'.accounts = (r.accounts ++ opened.map Account.ofOpening).map (Account.closedBy items))
    (known : r.get? account = some found) : ∀ o ∈ opened, o.account ≠ account := by
  have nodup := r'.nodup
  have kept : Account.reference ∘ Account.closedBy items = Account.reference :=
    funext (Account.reference_closedBy items)
  rw [later, List.map_map, kept, List.map_append, List.nodup_append] at nodup
  intro o mem same
  apply nodup.2.2 found.reference (List.mem_map_of_mem (mem_of_get? known)) o.account
    (List.mem_map_of_mem (List.mem_map_of_mem mem))
  rw [same, reference_of_get? known]

/-- **What is opened by items, and closed by them.** Nothing is closed before it is opened. -/
theorem accounts_of_foldlM_step (h : items.foldlM step r = .ok r') :
    r'.accounts = (r.accounts ++ (items.filterMap Item.opening?).map Account.ofOpening).map
      (Account.closedBy items) := by
  induction items generalizing r with
  | nil =>
    cases h
    show r'.accounts = (r'.accounts ++ []).map id
    rw [List.append_nil, List.map_id]
  | cons i rest ih =>
    rw [List.foldlM_cons] at h
    obtain ⟨next, stepped, h⟩ := bind_eq_ok_iff.1 h
    have later := ih h
    cases i with
    | opening o =>
      rw [step, opened] at stepped
      split at stepped
      · cases stepped
      · cases stepped
        rw [later, List.append_assoc]
        rfl
    | closing c =>
      rw [step, closed] at stepped
      split at stepped
      · cases stepped
      · next found known =>
        cases stepped
        obtain ⟨a, isOpen, _⟩ := exists_get?_of_openings (openings_modify r c.account _) known
        have others := ne_of_opened_later later isOpen
        rw [later, List.map_append, List.map_append, map_closedBy_modify]
        congr 1
        show (List.map _ _).map _ = (List.map _ (rest.filterMap Item.opening?)).map _
        rw [List.map_map, List.map_map]
        apply List.map_congr_left
        intro o mem
        exact (Account.closedBy_closing_of_ne (a := .ofOpening o) (others o mem)).symm
    | _ =>
      cases stepped
      exact later

/-- Items that open accounts in another order have the same accounts, in another order. -/
theorem perm_of_ofItems (reopened : Reopened items items') (opened : ofItems items = .ok r)
    (opened' : ofItems items' = .ok r') : r'.accounts.Perm r.accounts := by
  have closes (a : Account) : items'.any (Item.closes a.reference) = items.any (Item.closes a.reference) := by
    have picked (items : List Item) : items.any (Item.closes a.reference)
        = (items.filter fun i => i.opening?.isNone).any (Item.closes a.reference) := by
      rw [List.any_filter]
      congr 1
      funext i
      cases i <;> rfl
    rw [picked, reopened.others, ← picked]
  have same : Account.closedBy items' = Account.closedBy items := by
    funext a
    unfold Account.closedBy
    rw [closes]
  rw [accounts_of_foldlM_step opened, accounts_of_foldlM_step opened', same]
  apply List.Perm.map
  apply List.Perm.append_left
  exact reopened.openings.map Account.ofOpening

end Registry

/-! ### Books -/

namespace Books

variable {b b' next next' : Books} {account : AccountRef} {company : String} {location : Location}

/-- The same accounts in another order, and the same rates. -/
structure Reordered (b b' : Books) : Prop where
  accounts : b'.accounts.accounts.Perm b.accounts.accounts
  basket : b'.basket = b.basket

namespace Reordered

theorem get? (h : Reordered b b') (account : AccountRef) : b'.accounts.get? account = b.accounts.get? account :=
  Registry.get?_of_perm h.accounts account

theorem modify (h : Reordered b b') (account : AccountRef) (f : AccountState → AccountState) :
    Reordered (b.modify account f) (b'.modify account f) :=
  ⟨h.accounts.map _, h.basket⟩

theorem credit (h : Reordered b b') {amount : Decimal} (taken : b.credit account amount location = .ok next)
    (taken' : b'.credit account amount location = .ok next') : Reordered next next' := by
  have same := h.get? account
  cases known : b.accounts.get? account with
  | none =>
    rw [known] at same
    obtain rfl := eq_of_credit taken known
    obtain rfl := eq_of_credit taken' same
    exact h
  | some found =>
    rw [known] at same
    obtain ⟨w, sum, rfl⟩ := exists_of_credit taken known
    obtain ⟨w', sum', rfl⟩ := exists_of_credit taken' same
    cases sum.symm.trans sum'
    exact h.modify account _

theorem modifyPosition (h : Reordered b b') {f : Position → Except Error Position}
    (taken : b.modifyPosition account company f = .ok next)
    (taken' : b'.modifyPosition account company f = .ok next') : Reordered next next' := by
  obtain ⟨found, shares, q, known, holds, changed, rfl⟩ := exists_of_modifyPosition taken
  obtain ⟨found', shares', q', known', holds', changed', rfl⟩ := exists_of_modifyPosition taken'
  cases known.symm.trans ((h.get? account).symm.trans known')
  cases holds.symm.trans holds'
  cases changed.symm.trans changed'
  exact h.modify account _

theorem worth (h : Reordered b b') (account : AccountRef) (money : Money) (location : Location) :
    b'.worth account money location = b.worth account money location := by
  unfold Books.worth Registry.lookup
  rw [h.get?, h.basket]

/-- **One step of the replay.** -/
theorem take (h : Reordered b b') {s : Step} {notices notices' : List Notice}
    (taken : b.take s = .ok (next, notices)) (taken' : b'.take s = .ok (next', notices')) :
    Reordered next next' := by
  cases s with
  | need n =>
    obtain ⟨rfl, _⟩ := take_need_ok taken
    obtain ⟨rfl, _⟩ := take_need_ok taken'
    exact h
  | refuse why => cases taken
  | credit account amount location =>
    exact h.credit (ok_of_take rfl taken) (ok_of_take rfl taken')
  | hold account company | record account company leg price location =>
    exact h.modifyPosition (ok_of_take rfl taken) (ok_of_take rfl taken')
  | earn account company money location =>
    obtain ⟨earned, worth, changed⟩ := take_earn_ok taken
    obtain ⟨earned', worth', changed'⟩ := take_earn_ok taken'
    rw [h.worth, worth] at worth'
    cases worth'
    exact h.modifyPosition changed changed'
  | assertion time e =>
    obtain ⟨account, assertion, location⟩ := e
    cases assertion with
    | cash money =>
      cases taken
      cases taken'
      exact h.modify account _
    | sharePrice company price =>
      exact h.modifyPosition (take_sharePrice_ok taken) (take_sharePrice_ok taken')
  | quote rates =>
    cases taken
    cases taken'
    exact ⟨h.accounts, congrArg (·.setAll rates) h.basket⟩
  | tell notice =>
    cases taken
    cases taken'
    exact h

/-- **The same steps**, one after the other. -/
theorem run (h : Reordered b b') {steps : List Step} (ran : (foldTelling Books.take b steps).result = .ok next)
    (ran' : (foldTelling Books.take b' steps).result = .ok next') : Reordered next next' := by
  induction steps generalizing b b' with
  | nil =>
    cases ran
    cases ran'
    exact h
  | cons s rest ih =>
    obtain ⟨c, _, taken, ran⟩ := result_foldTelling_cons.1 ran
    obtain ⟨c', _, taken', ran'⟩ := result_foldTelling_cons.1 ran'
    exact ih (h.take taken taken') ran ran'

end Reordered

end Books

/-! ### Ledgers -/

namespace Reopened

variable {items items' : List Item} {o : Options} {b b' next next' : Books} {l l' : Ledger}

/-- Whatever is no opening stands in the same order. -/
theorem filter_eq (reopened : Reopened items items') {p : Item → Bool}
    (passes : ∀ i, p i = true → i.opening? = none) : items'.filter p = items.filter p := by
  apply filter_eq_of_filter_eq _ reopened.others
  intro i picked
  rw [passes i picked]
  rfl

theorem config (reopened : Reopened items items') :
    foldTelling Config.step .empty items' = foldTelling Config.step .empty items := by
  rw [← foldTelling_configStep, ← foldTelling_configStep _ items, reopened.filter_eq]
  intro i setting
  cases i <;> first | rfl | cases setting

theorem groups (reopened : Reopened items items') : Ledger.groupsOf items' = Ledger.groupsOf items := by
  rw [← groupsOf_filter_isGroup, ← groupsOf_filter_isGroup items, reopened.filter_eq]
  intro i isGroup
  cases i <;> first | rfl | cases isGroup

/-- The same is replayed. -/
theorem filter_chronological (reopened : Reopened items items') :
    (chronological items').filter Item.isReplayed = (chronological items).filter Item.isReplayed := by
  rw [← chronological_filter, ← chronological_filter, reopened.filter_eq]
  intro i replayed
  cases i <;> first | rfl | cases replayed

theorem replay (reopened : Reopened items items') (h : Books.Reordered b b')
    (played : (Daybook.replay o b items).result = .ok next)
    (played' : (Daybook.replay o b' items').result = .ok next') : Books.Reordered next next' := by
  rw [replay_eq_foldTelling_filter] at played played'
  rw [reopened.filter_chronological] at played'
  rw [Books.result_eq_steps] at played played'
  exact h.run played played'

end Reopened

/-- **The order of openings is the order of accounts, and nothing else.** -/
theorem reopened_of_compute {items items' : List Item} {o : Options} {l l' : Ledger}
    (reopened : Reopened items items') (computed : (Ledger.compute o items).result = .ok l)
    (computed' : (Ledger.compute o items').result = .ok l') :
    l'.accounts.accounts.Perm l.accounts.accounts ∧ l' = { l with accounts := l'.accounts } := by
  rw [Ledger.result_compute] at computed computed'
  simp only [bind_eq_ok_iff, Except.ok.injEq] at computed computed'
  obtain ⟨config, set, registry, opened, books, played, accounts, worked, rfl⟩ := computed
  obtain ⟨config', set', registry', opened', books', played', accounts', worked', rfl⟩ := computed'
  rw [reopened.config, set] at set'
  cases set'
  have start : Books.Reordered ⟨registry, .empty⟩ ⟨registry', .empty⟩ :=
    ⟨Registry.perm_of_ofItems reopened opened opened', rfl⟩
  have after := reopened.replay start played played'
  refine ⟨?_, ?_⟩
  · exact Registry.perm_of_mapStates after.accounts (Registry.mapStates_of_modifyAll worked)
      (Registry.mapStates_of_modifyAll worked')
  · rw [reopened.groups, after.basket]

end Daybook
