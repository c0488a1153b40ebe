import Daybook.Proofs.Account.Revaluation

/-!
# Accounts without their derived figures

`Registry.recorded` takes all derived figures off the positions of a registry, and the totals off the
accounts that hold shares. Working out figures starts from what is left: it comes to the same with or
without figures from before (`revalue_recorded`), and what was recorded is recorded after it as well
(`recorded_of_revalue`).
-/

namespace Daybook

/-! ### Positions and accounts -/

namespace Position

/-- Figures are worked out from what is recorded. -/
theorem revalue_recorded (p : Position) (method : CostBasis) :
    p.recorded.revalue method = p.revalue method := rfl

end Position

/-- A state without derived figures. Only what holds shares has any. -/
def AccountState.recorded (s : AccountState) : AccountState :=
  { s with
    shares := s.shares.map (SortedMap.map Position.recorded)
    totals := if s.shares.isSome then none else s.totals }

namespace Account

def recorded (a : Account) : Account := { a with state := a.state.recorded }

theorem position?_recorded (a : Account) (company : String) :
    a.recorded.position? company = (a.position? company).map Position.recorded := by
  rw [position?, position?]
  show (a.state.shares.map (SortedMap.map Position.recorded)).bind _ = _
  cases a.state.shares with
  | none => rfl
  | some shares => exact SortedMap.get?_map Position.recorded shares company

theorem revalued_recorded (a : Account) (method : CostBasis) :
    a.recorded.revalued method = a.revalued method := by
  obtain ⟨opening, balance, active, shares, totals⟩ := a
  cases shares with
  | none => rfl
  | some shares =>
    have same := SortedMap.revise_map (f := revalueInto method opening.account) Position.recorded
      (fun _ _ p => by rw [revalueInto, revalueInto, Position.revalue_recorded]) {} shares
    exact congrArg (fun r => r >>= fun r => .ok (AccountState.mk balance active (some r.1) (some r.2))) same

theorem recorded_of_revalued {a : Account} {method : CostBasis} {state : AccountState}
    (h : a.revalued method = .ok state) : state.recorded = a.state.recorded := by
  rw [revalued] at h
  split at h
  · cases h
    rfl
  · next shares holds =>
    simp only [bind_eq_ok_iff, Except.ok.injEq] at h
    obtain ⟨⟨revised, totals⟩, new, rfl⟩ := h
    have kept := SortedMap.map_of_revise Position.recorded (fun _ _ _ _ _ h => recorded_of_revalueInto h) new
    simp [AccountState.recorded, holds, kept]

end Account

/-! ### Registries -/

namespace Registry

variable {r r' : Registry} {account : AccountRef} {method : CostBasis}

theorem eq_of_accounts_eq (h : r.accounts = r'.accounts) : r = r' := by
  cases r
  cases r'
  cases h
  rfl

/-- Two changes of a state, one after the other, are one. -/
theorem modify_modify (r : Registry) (account : AccountRef) (f g : AccountState → AccountState) :
    (r.modify account f).modify account g = r.modify account (g ∘ f) := by
  apply eq_of_accounts_eq
  show (r.accounts.map _).map _ = r.accounts.map _
  rw [List.map_map]
  refine List.map_congr_left fun a _ => ?_
  by_cases here : a.reference = account
  · have kept : ({ a with state := f a.state } : Account).reference = account := here
    simp [here, kept]
  · simp [here]

/-- The registry without derived figures. -/
def recorded (r : Registry) : Registry where
  accounts := r.accounts.map Account.recorded
  nodup := by
    rw [List.map_map]
    exact r.nodup

theorem get?_recorded (r : Registry) (account : AccountRef) :
    r.recorded.get? account = (r.get? account).map Account.recorded := by
  rw [get?, get?, recorded, List.find?_map]
  rfl

/-- A change of a state is the same with and without figures, if it is so for the state of the account. -/
theorem recorded_modify {f g : AccountState → AccountState}
    (same : ∀ a, r.get? account = some a → (f a.state).recorded = g a.state.recorded) :
    (r.modify account f).recorded = r.recorded.modify account g := by
  apply eq_of_accounts_eq
  show (r.accounts.map _).map Account.recorded = (r.accounts.map Account.recorded).map _
  rw [List.map_map, List.map_map]
  refine List.map_congr_left fun a mem => ?_
  simp only [Function.comp_apply]
  by_cases here : a.reference = account
  · have known : r.get? account = some a := here ▸ get?_of_mem mem
    rw [if_pos here, if_pos (show a.recorded.reference = account from here)]
    rw [Account.recorded, Account.recorded, same a known]
  · rw [if_neg here, if_neg (show ¬ a.recorded.reference = account from here)]

/-- Changes of all states that come to the same accounts are the same change. -/
theorem modifyAll_eq_of_mapStates {ε : Type} {f g : Account → Except ε AccountState}
    (h : mapStates f r.accounts = mapStates g r'.accounts) : r.modifyAll f = r'.modifyAll g := by
  rw [modifyAll, modifyAll]
  split
  · next e failed =>
    rw [h] at failed
    split
    · next e' failed' => rw [failed] at failed'; cases failed'; rfl
    · next _ new => rw [failed] at new; cases new
  · next accounts new =>
    rw [h] at new
    split
    · next e' failed => rw [new] at failed; cases failed
    · next accounts' new' => rw [new] at new'; cases new'; rfl

/-- **Figures do not depend on figures from before.** -/
theorem revalue_recorded (r : Registry) (method : CostBasis) :
    r.recorded.revalue method = r.revalue method := by
  apply modifyAll_eq_of_mapStates
  show mapStates _ (r.accounts.map Account.recorded) = _
  generalize r.accounts = accounts
  induction accounts with
  | nil => rfl
  | cons a rest ih => simp only [List.map_cons, mapStates, Account.revalued_recorded, ih]; rfl

/-- **What is recorded stays when figures are worked out.** -/
theorem recorded_of_revalue (h : r.revalue method = .ok r') : r'.recorded = r.recorded := by
  have new := mapStates_of_modifyAll h
  apply eq_of_accounts_eq
  show r'.accounts.map Account.recorded = r.accounts.map Account.recorded
  generalize r.accounts = accounts at new
  generalize r'.accounts = result at new
  induction accounts generalizing result with
  | nil =>
    cases new
    rfl
  | cons a rest ih =>
    simp only [mapStates, bind_eq_ok_iff, Except.ok.injEq] at new
    obtain ⟨state, revalued, later, new, rfl⟩ := new
    rw [List.map_cons, List.map_cons, ih later new]
    rw [Account.recorded, Account.recorded, Account.recorded_of_revalued revalued]

end Registry

end Daybook
