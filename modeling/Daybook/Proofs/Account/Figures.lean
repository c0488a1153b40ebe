import Daybook.Proofs.Account.CostBasis

/-!
# The figures of shares

What working out figures leaves behind. The figures of every position follow from what is recorded of it
(`Position.IsValued`), and the totals of an account are the sums over its positions from left to right
(`EquityTotals.SumsUp`). Where nothing is rounded, the total return of a position is its market value less
its cost basis, and the dividends; and so it is for the totals of the account (`SumsUp.units_totalReturn`).
-/

namespace Daybook

/-! ### One position -/

namespace Position

/-- The derived figures of a position are the ones that follow from what is recorded of it. -/
structure IsValued (method : CostBasis) (p : Position) : Prop where
  costBasis : p.costBasisBy method = some p.costBasis
  marketValue : p.held.mul p.price = some p.marketValue
  totalReturn : (p.marketValue.sub p.costBasis).bind (·.add p.dividends) = some p.totalReturn

/-- Neither the gain of a position nor its total return is rounded. -/
def HasExactReturn (p : Position) : Prop :=
  ∀ gain ∈ p.marketValue.sub p.costBasis,
    gain.units = p.marketValue.units - p.costBasis.units ∧ Decimal.AddsExactly gain [p.dividends]

instance (p : Position) : Decidable p.HasExactReturn := inferInstanceAs (Decidable (∀ _ ∈ _, _))

variable {p p' : Position} {method : CostBasis}

theorem isValued_of_revalue (h : p.revalue method = some p') : p'.IsValued method := by
  unfold revalue at h
  simp only [Option.bind_eq_bind, Option.bind_eq_some_iff, Option.some.injEq] at h
  obtain ⟨basis, cost, market, worth, gain, difference, total, sum, rfl⟩ := h
  refine ⟨cost, worth, ?_⟩
  rw [difference, Option.bind_some]
  exact sum

theorem IsValued.units_totalReturn (valued : p.IsValued method) (exact : p.HasExactReturn) :
    p.totalReturn.units = p.marketValue.units - p.costBasis.units + p.dividends.units := by
  obtain ⟨gain, difference, sum⟩ := Option.bind_eq_some_iff.1 valued.totalReturn
  obtain ⟨units, adds⟩ := exact gain difference
  rw [(adds _ sum).1, units]

end Position

/-! ### All positions of an account -/

/-- Figures are worked out position by position, and the totals are their sums. -/
theorem figures_of_reviseEntries {method : CostBasis} {account : AccountRef}
    {entries new : List (String × Position)} {t t' : EquityTotals}
    (h : reviseEntries (revalueInto method account) t entries = .ok (new, t')) :
    List.Forall₂ (fun e e' => e'.1 = e.1 ∧ e.2.revalue method = some e'.2) entries new ∧
      (new.map (·.2.costBasis)).foldlM Decimal.add t.costBasis = some t'.costBasis ∧
      (new.map (·.2.marketValue)).foldlM Decimal.add t.marketValue = some t'.marketValue ∧
      (new.map (·.2.totalReturn)).foldlM Decimal.add t.totalReturn = some t'.totalReturn := by
  induction entries generalizing new t with
  | nil =>
    cases h
    exact ⟨.nil, rfl, rfl, rfl⟩
  | cons e rest ih =>
    obtain ⟨company, p⟩ := e
    simp only [reviseEntries, bind_eq_ok_iff, Except.ok.injEq, revalueInto, orError_eq_ok_iff,
      Option.bind_eq_bind, Option.bind_eq_some_iff, Option.some.injEq, Prod.mk.injEq] at h
    obtain ⟨⟨q, s⟩, ⟨_, worked, _, added, rfl, rfl⟩, ⟨later, _⟩, revised, rfl, rfl⟩ := h
    obtain ⟨side, basis, market, total⟩ := ih revised
    simp only [EquityTotals.add, Option.bind_eq_bind, Option.bind_eq_some_iff, Option.some.injEq] at added
    obtain ⟨b, basis', m, market', r, total', rfl⟩ := added
    refine ⟨.cons ⟨rfl, worked⟩ side, ?_, ?_, ?_⟩
    · simpa [basis'] using basis
    · simpa [market'] using market
    · simpa [total'] using total

/-- The totals are the sums of the figures of some positions, from left to right. -/
structure EquityTotals.SumsUp (t : EquityTotals) (positions : List Position) : Prop where
  costBasis : Decimal.sum (positions.map (·.costBasis)) = some t.costBasis
  marketValue : Decimal.sum (positions.map (·.marketValue)) = some t.marketValue
  totalReturn : Decimal.sum (positions.map (·.totalReturn)) = some t.totalReturn

/-- No figure of some positions is rounded, and no sum of their figures. -/
structure HasExactFigures (positions : List Position) : Prop where
  returns : ∀ p ∈ positions, p.HasExactReturn
  costBasis : Decimal.AddsExactly .zero (positions.map (·.costBasis))
  marketValue : Decimal.AddsExactly .zero (positions.map (·.marketValue))
  totalReturn : Decimal.AddsExactly .zero (positions.map (·.totalReturn))

instance (positions : List Position) : Decidable (HasExactFigures positions) :=
  decidable_of_iff
    ((∀ p ∈ positions, p.HasExactReturn) ∧ Decimal.AddsExactly .zero (positions.map (·.costBasis)) ∧
      Decimal.AddsExactly .zero (positions.map (·.marketValue)) ∧
      Decimal.AddsExactly .zero (positions.map (·.totalReturn)))
    ⟨fun h => ⟨h.1, h.2.1, h.2.2.1, h.2.2.2⟩, fun h => ⟨h.returns, h.costBasis, h.marketValue, h.totalReturn⟩⟩

/-- The returns of positions together are what the positions are worth, less what they have cost, and their
dividends. -/
theorem unitsOf_totalReturns {positions : List Position} {method : CostBasis}
    (valued : ∀ p ∈ positions, p.IsValued method) (exact : ∀ p ∈ positions, p.HasExactReturn) :
    Decimal.unitsOf (positions.map (·.totalReturn))
      = Decimal.unitsOf (positions.map (·.marketValue)) - Decimal.unitsOf (positions.map (·.costBasis))
        + Decimal.unitsOf (positions.map (·.dividends)) := by
  induction positions with
  | nil => rfl
  | cons p rest ih =>
    have first := (valued p List.mem_cons_self).units_totalReturn (exact p List.mem_cons_self)
    have later := ih (fun q mem => valued q (List.mem_cons_of_mem p mem))
      (fun q mem => exact q (List.mem_cons_of_mem p mem))
    simp only [List.map_cons, Decimal.unitsOf_cons]
    omega

namespace EquityTotals.SumsUp

variable {t : EquityTotals} {positions : List Position} {method : CostBasis}

/-- **The identity of the totals.** -/
theorem units_totalReturn (sums : t.SumsUp positions) (valued : ∀ p ∈ positions, p.IsValued method)
    (exact : HasExactFigures positions) :
    t.totalReturn.units
      = t.marketValue.units - t.costBasis.units + Decimal.unitsOf (positions.map (·.dividends)) := by
  rw [Decimal.units_of_sum exact.costBasis sums.costBasis, Decimal.units_of_sum exact.marketValue sums.marketValue,
    Decimal.units_of_sum exact.totalReturn sums.totalReturn]
  exact unitsOf_totalReturns valued exact.returns

end EquityTotals.SumsUp

/-! ### Accounts -/

/-- **The figures of an account with shares**: those of its positions, and the sums of these. -/
theorem Account.exists_of_revalued {a : Account} {method : CostBasis} {state : AccountState}
    {shares : SortedMap String Position} (holds : a.state.shares = some shares)
    (h : a.revalued method = .ok state) :
    ∃ new t, state = { a.state with shares := some new, totals := some t } ∧
      List.Forall₂ (fun e e' => e'.1 = e.1 ∧ e.2.revalue method = some e'.2) shares.entries new.entries ∧
      (∀ p ∈ new.values, p.IsValued method) ∧ t.SumsUp new.values := by
  unfold revalued at h
  rw [holds] at h
  simp only [bind_eq_ok_iff, Except.ok.injEq] at h
  obtain ⟨⟨new, t⟩, revised, rfl⟩ := h
  obtain ⟨side, basis, market, total⟩ := figures_of_reviseEntries (SortedMap.reviseEntries_of_revise revised)
  refine ⟨new, t, rfl, side, ?_, ?_⟩
  · intro p mem
    obtain ⟨e', isEntry, rfl⟩ := List.mem_map.1 mem
    obtain ⟨e, _, _, worked⟩ := exists_of_mem_forall₂ side isEntry
    exact Position.isValued_of_revalue worked
  · unfold SortedMap.values
    constructor
    · rw [List.map_map]
      exact basis
    · rw [List.map_map]
      exact market
    · rw [List.map_map]
      exact total

/-- The cost basis that an account shows is worked out from its legs. -/
theorem Registry.costBasisBy_of_revalue {r r' : Registry} {method : CostBasis} (h : r.revalue method = .ok r')
    {account : Account} (mem : account ∈ r'.accounts) {company : String} {p : Position}
    (holds : account.position? company = some p) : p.costBasisBy method = some p.costBasis := by
  obtain ⟨before, _, state, revalued, rfl⟩ := exists_of_mem_mapStates (mapStates_of_modifyAll h) mem
  cases had : before.state.shares with
  | none =>
    rw [Account.revalued, had] at revalued
    cases revalued
    simp [Account.position?, had] at holds
  | some shares =>
    obtain ⟨new, _, rfl, _, valued, _⟩ := Account.exists_of_revalued had revalued
    exact (valued p (SortedMap.mem_values_of_get? holds)).costBasis

end Daybook
