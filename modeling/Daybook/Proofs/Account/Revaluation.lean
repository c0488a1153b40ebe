import Daybook.Ledger
import Daybook.Proofs.Account.Openings
import Daybook.Proofs.SortedMap

/-!
# What working out figures leaves as it is

At the end of a computation the derived figures of all positions are worked out. That changes nothing
that was recorded: openings, balances, and of each position all but the derived figures. So a ledger is
known from the books that its items are replayed to (`Ledger.exists_of_compute`).
-/

namespace Daybook

/-! ### Positions -/

/-- A position without its derived figures. -/
def Position.recorded (p : Position) : Position :=
  { p with costBasis := .zero, marketValue := .zero, totalReturn := .zero }

theorem Position.recorded_of_revalue {p p' : Position} {method : CostBasis}
    (h : p.revalue method = some p') : p'.recorded = p.recorded := by
  simp only [revalue, Option.bind_eq_bind, Option.bind_eq_some_iff, Option.some.injEq] at h
  obtain ⟨_, _, _, _, _, _, _, _, rfl⟩ := h
  rfl

theorem recorded_of_revalueInto {method : CostBasis} {account : AccountRef} {totals totals' : EquityTotals}
    {company : String} {p p' : Position} (h : revalueInto method account totals company p = .ok (p', totals')) :
    p'.recorded = p.recorded := by
  simp only [revalueInto, orError_eq_ok_iff, Option.bind_eq_bind, Option.bind_eq_some_iff,
    Option.some.injEq, Prod.mk.injEq] at h
  obtain ⟨_, revalued, _, _, rfl, _⟩ := h
  exact Position.recorded_of_revalue revalued

/-! ### Accounts -/

theorem Account.revalued_ok {a : Account} {method : CostBasis} {state : AccountState}
    (h : a.revalued method = .ok state) :
    state.balance = a.state.balance ∧ ∀ company,
      (Account.position? { a with state } company).map Position.recorded
        = (a.position? company).map Position.recorded := by
  rw [revalued] at h
  split at h
  · cases h
    exact ⟨rfl, fun _ => rfl⟩
  · next shares holds =>
    simp only [bind_eq_ok_iff, Except.ok.injEq] at h
    obtain ⟨⟨revised, totals⟩, new, rfl⟩ := h
    refine ⟨rfl, fun company => ?_⟩
    have kept : (revised.get? company).map Position.recorded = (shares.get? company).map Position.recorded := by
      rw [← SortedMap.get?_map, ← SortedMap.get?_map]
      rw [SortedMap.map_of_revise Position.recorded (fun _ _ _ _ _ h => recorded_of_revalueInto h) new]
    simpa [Account.position?, holds] using kept

namespace Registry

variable {r r' : Registry} {method : CostBasis}

theorem openings_of_revalue (h : r.revalue method = .ok r') : r'.openings = r.openings :=
  openings_of_mapStates (mapStates_of_modifyAll h)

/-- An account with its figures is one from before, with the same balance and the same records. -/
theorem get?_of_revalue (h : r.revalue method = .ok r') {account : AccountRef} {a' : Account}
    (found : r'.get? account = some a') :
    ∃ a, r.get? account = some a ∧ a'.opening = a.opening ∧ a'.state.balance = a.state.balance ∧
      ∀ company, (a'.position? company).map Position.recorded
        = (a.position? company).map Position.recorded := by
  obtain ⟨a, mem, state, revalued, rfl⟩ :=
    exists_of_mem_mapStates (mapStates_of_modifyAll h) (mem_of_get? found)
  have known : r.get? (Account.reference { a with state }) = some a := get?_of_mem mem
  rw [reference_of_get? found] at known
  exact ⟨a, known, rfl, Account.revalued_ok revalued⟩

end Registry

/-! ### Ledgers -/

namespace Ledger

/-- A ledger that is computed comes from books to which its items have been replayed. -/
theorem exists_of_compute {o : Options} {items : List Item} {l : Ledger}
    (h : (compute o items).result = .ok l) :
    ∃ registry books, Registry.ofItems items = .ok registry ∧
      (foldTelling (Books.apply o) ⟨registry, .empty⟩ (chronological items)).result = .ok books ∧
      books.accounts.revalue o.costBasis = .ok l.accounts ∧ l.basket = books.basket ∧ l.now = o.now := by
  simp only [compute] at h
  split at h
  · cases h
  · next config _ =>
    split at h
    · cases h
    · next registry opened =>
      simp only [bind_eq_ok_iff, Except.ok.injEq] at h
      obtain ⟨books, played, accounts, revalued, rfl⟩ := h
      exact ⟨registry, books, opened, played, revalued, rfl, rfl⟩

end Ledger

end Daybook
