import Daybook.Proofs.Account.Recorded
import Daybook.Proofs.Replay.Cutoff
import Daybook.Proofs.Replay.Valued

/-!
# Cost bases by another method

The method by which cost bases are worked out is used at the very end of a computation, and nothing that is
worked out there is read again (`Registry.revalue_revalue`). So two ledgers of the same items that are
computed by two methods differ in cost bases and total returns only, and what one method adds to a cost basis
it takes off the total return (`compute_of_costBasis`).
-/

namespace Daybook

/-! ### Positions -/

namespace Position

/-- Another cost basis and another total return, and nothing else is different. The two together are the
same where nothing is rounded. -/
structure SameButReturns (p p' : Position) : Prop where
  others : p' = { p with costBasis := p'.costBasis, totalReturn := p'.totalReturn }
  together : p.HasExactReturn → p'.HasExactReturn →
    p'.totalReturn.units + p'.costBasis.units = p.totalReturn.units + p.costBasis.units

variable {p q q' : Position} {method method' : CostBasis}

theorem sameButReturns_of_revalue (h : p.revalue method = some q) (h' : p.revalue method' = some q') :
    q.SameButReturns q' := by
  have valued := isValued_of_revalue h
  have valued' := isValued_of_revalue h'
  have others : q' = { q with costBasis := q'.costBasis, totalReturn := q'.totalReturn } := by
    unfold revalue at h h'
    simp only [Option.bind_eq_bind, Option.bind_eq_some_iff, Option.some.injEq] at h h'
    obtain ⟨_, _, market, worth, _, _, _, _, rfl⟩ := h
    obtain ⟨_, _, market', worth', _, _, _, _, rfl⟩ := h'
    cases worth.symm.trans worth'
    rfl
  refine ⟨others, ?_⟩
  intro exact exact'
  have returns := valued.units_totalReturn exact
  have returns' := valued'.units_totalReturn exact'
  have worth : q'.marketValue = q.marketValue := by rw [others]
  have earned : q'.dividends = q.dividends := by rw [others]
  rw [worth, earned] at returns'
  omega

end Position

/-! ### Accounts -/

/-- The shares of an account, with their totals, where cost bases and total returns are others. -/
structure SharesSameButReturns (m m' : SortedMap String Position) (t t' : EquityTotals) : Prop where
  positions : List.Forall₂ (fun e e' => e'.1 = e.1 ∧ e.2.SameButReturns e'.2) m.entries m'.entries
  totals : t' = { t with costBasis := t'.costBasis, totalReturn := t'.totalReturn }
  together : HasExactFigures m.values → HasExactFigures m'.values →
    t'.totalReturn.units + t'.costBasis.units = t.totalReturn.units + t.costBasis.units

/-- An account where the cost bases and total returns of shares are others. -/
structure Account.SameButReturns (a a' : Account) : Prop where
  others : a' = { a with state := { a.state with shares := a'.state.shares, totals := a'.state.totals } }
  cash : a.state.shares = none → a' = a
  equity : ∀ m, a.state.shares = some m → ∃ m' t t', a'.state.shares = some m' ∧ a.state.totals = some t ∧
    a'.state.totals = some t' ∧ SharesSameButReturns m m' t t'

section

variable {m m' : SortedMap String Position} {t t' : EquityTotals} {method method' : CostBasis}

/-- Whatever is no cost basis and no total return is the same, position by position. -/
theorem map_values_of_sameButReturns {α : Type} (f : Position → α)
    (same : ∀ p p', p.SameButReturns p' → f p' = f p)
    (h : List.Forall₂ (fun e e' => e'.1 = e.1 ∧ e.2.SameButReturns e'.2) m.entries m'.entries) :
    m'.values.map f = m.values.map f := by
  unfold SortedMap.values
  rw [List.map_map, List.map_map]
  apply map_eq_of_forall₂
  apply h.imp
  intro e e' pair
  exact same e.2 e'.2 pair.2

/-- Figures of the same positions by two methods. -/
theorem sharesSameButReturns_of_sumsUp
    (positions : List.Forall₂ (fun e e' => e'.1 = e.1 ∧ e.2.SameButReturns e'.2) m.entries m'.entries)
    (valued : ∀ p ∈ m.values, p.IsValued method) (valued' : ∀ p ∈ m'.values, p.IsValued method')
    (sums : t.SumsUp m.values) (sums' : t'.SumsUp m'.values) : SharesSameButReturns m m' t t' := by
  have worth : t'.marketValue = t.marketValue := by
    have same : m'.values.map (·.marketValue) = m.values.map (·.marketValue) :=
      map_values_of_sameButReturns _ (fun p p' h => by rw [h.others]) positions
    have total := sums'.marketValue
    rw [same, sums.marketValue] at total
    exact (Option.some.inj total).symm
  have earned : m'.values.map (·.dividends) = m.values.map (·.dividends) :=
    map_values_of_sameButReturns _ (fun p p' h => by rw [h.others]) positions
  refine ⟨positions, ?_, ?_⟩
  · rw [← worth]
  · intro exact exact'
    have returns := sums.units_totalReturn valued exact
    have returns' := sums'.units_totalReturn valued' exact'
    rw [worth, earned] at returns'
    omega

/-- **One account**, with its figures by two methods. -/
theorem Account.sameButReturns_of_revalued {a : Account} {state state' : AccountState}
    (worked : a.revalued method = .ok state) (worked' : a.revalued method' = .ok state') :
    SameButReturns { a with state } { a with state := state' } := by
  cases holds : a.state.shares with
  | none =>
    unfold revalued at worked worked'
    rw [holds] at worked worked'
    cases worked
    cases worked'
    refine ⟨rfl, fun _ => rfl, ?_⟩
    intro m some
    cases holds.symm.trans some
  | some before =>
    obtain ⟨new, t, rfl, side, valued, sums⟩ := exists_of_revalued holds worked
    obtain ⟨new', t', rfl, side', valued', sums'⟩ := exists_of_revalued holds worked'
    have positions : List.Forall₂ (fun e e' => e'.1 = e.1 ∧ e.2.SameButReturns e'.2) new.entries new'.entries := by
      apply forall₂_fork side side'
      rintro e f f' ⟨key, here⟩ ⟨key', here'⟩
      exact ⟨key'.trans key.symm, Position.sameButReturns_of_revalue here here'⟩
    refine ⟨rfl, ?_, ?_⟩
    · intro none
      cases none
    · intro m same
      cases same
      exact ⟨new', t, t', rfl, rfl, rfl, sharesSameButReturns_of_sumsUp positions valued valued' sums sums'⟩

end

/-! ### Registries -/

namespace Registry

variable {r r₁ r₂ : Registry} {method method' : CostBasis}

/-- **All accounts**, with their figures by two methods. -/
theorem sameButReturns_of_revalue (worked : r.revalue method = .ok r₁) (worked' : r.revalue method' = .ok r₂) :
    List.Forall₂ Account.SameButReturns r₁.accounts r₂.accounts := by
  apply forall₂_fork (forall₂_of_mapStates (mapStates_of_modifyAll worked))
    (forall₂_of_mapStates (mapStates_of_modifyAll worked'))
  rintro a _ _ ⟨state, here, rfl⟩ ⟨state', here', rfl⟩
  exact Account.sameButReturns_of_revalued here here'

/-- **No figure is worked out from another figure**, so those by one method are lost without a trace when they
are worked out by another one. -/
theorem revalue_revalue (worked : r.revalue method = .ok r₁) (method' : CostBasis) :
    r₁.revalue method' = r.revalue method' := by
  calc r₁.revalue method'
      = r₁.recorded.revalue method' := (revalue_recorded r₁ method').symm
    _ = r.recorded.revalue method' := by rw [recorded_of_revalue worked]
    _ = r.revalue method' := revalue_recorded r method'

end Registry

/-! ### Ledgers -/

/-- The replay knows nothing of cost bases. -/
theorem replay_of_costBasis (o : Options) (method : CostBasis) (b : Books) (items : List Item) :
    replay { o with costBasis := method } b items = replay o b items := rfl

/-- **The method of cost bases changes cost bases and total returns only.** Two ledgers of the same items by two
methods have the same rates, settings and groups, and the same accounts but for these figures; and the cost
basis and the total return together are the same for each position and for the totals of each account, where
nothing is rounded. Working out figures by a second method comes to what it comes to without the first. -/
theorem compute_of_costBasis {o : Options} {items : List Item} {method method' : CostBasis} {l l' : Ledger}
    (computed : (Ledger.compute { o with costBasis := method } items).result = .ok l)
    (computed' : (Ledger.compute { o with costBasis := method' } items).result = .ok l') :
    l' = { l with accounts := l'.accounts } ∧
      List.Forall₂ Account.SameButReturns l.accounts.accounts l'.accounts.accounts ∧
      ∀ (r r₁ : Registry) (first second : CostBasis),
        r.revalue first = .ok r₁ → r₁.revalue second = r.revalue second := by
  rw [Ledger.result_compute] at computed computed'
  simp only [bind_eq_ok_iff, Except.ok.injEq, replay_of_costBasis] at computed computed'
  obtain ⟨config, set, registry, opened, books, played, accounts, worked, rfl⟩ := computed
  obtain ⟨config', set', registry', opened', books', played', accounts', worked', rfl⟩ := computed'
  -- Up to the figures the two computations are one.
  cases set.symm.trans set'
  cases opened.symm.trans opened'
  cases played.symm.trans played'
  refine ⟨rfl, Registry.sameButReturns_of_revalue worked worked', ?_⟩
  intro r r₁ first second h
  exact Registry.revalue_revalue h second

/-- What a ledger says of the shares of the household. -/
def brokerFigures (l : Ledger) (company : String) : Option (Int × Int) :=
  ((l.accounts.get? houseBroker).bind (·.position? company)).map fun p => (p.costBasis.units, p.totalReturn.units)

/-- No figure of the shares of the household is rounded. -/
def BrokerIsExact (l : Ledger) : Prop :=
  ∃ shares ∈ (l.accounts.get? houseBroker).bind (·.state.shares), HasExactFigures shares.values

instance (l : Ledger) : Decidable (BrokerIsExact l) := inferInstanceAs (Decidable (∃ _ ∈ _, _))

/-- The shares that were bought back have cost 300 or 500, and made 250 or 50. The figures of one ledger can be
worked out again by the other method, and back. -/
theorem compute_dealtItems_of_costBasis :
    ∃ l l' again, (Ledger.compute { houseOptions with costBasis := .cumulative } dealtItems).result = .ok l ∧
      (Ledger.compute { houseOptions with costBasis := .resetWhenFlat } dealtItems).result = .ok l' ∧
      BrokerIsExact l ∧ BrokerIsExact l' ∧
      brokerFigures l "ACME" = some ((usd 300).amount.units, (usd 250).amount.units) ∧
      brokerFigures l' "ACME" = some ((usd 500).amount.units, (usd 50).amount.units) ∧
      l' = { l with accounts := l'.accounts } ∧
      List.Forall₂ Account.SameButReturns l.accounts.accounts l'.accounts.accounts ∧
      l.accounts.revalue .resetWhenFlat = .ok again ∧
      again.revalue .cumulative = l.accounts.revalue .cumulative := by
  have computed : ∃ l ∈ (Ledger.compute { houseOptions with costBasis := .cumulative } dealtItems).result.toOption,
      BrokerIsExact l ∧ (l.accounts.revalue .resetWhenFlat).toOption.isSome = true ∧
        brokerFigures l "ACME" = some ((usd 300).amount.units, (usd 250).amount.units) := by
    simp only [Ledger.compute, replay, chronological_dealtItems]
    decide +kernel
  have computed' : ∃ l ∈ (Ledger.compute { houseOptions with costBasis := .resetWhenFlat } dealtItems).result.toOption,
      BrokerIsExact l ∧ brokerFigures l "ACME" = some ((usd 500).amount.units, (usd 50).amount.units) := by
    simp only [Ledger.compute, replay, chronological_dealtItems]
    decide +kernel
  obtain ⟨l, computed, exact, succeeds, figures⟩ := computed
  obtain ⟨l', computed', exact', figures'⟩ := computed'
  have computed := toOption_eq_some_iff.1 computed
  have computed' := toOption_eq_some_iff.1 computed'
  obtain ⟨again, revalued⟩ := Option.isSome_iff_exists.1 succeeds
  have revalued := toOption_eq_some_iff.1 revalued
  obtain ⟨others, accounts, back⟩ := compute_of_costBasis computed computed'
  exact ⟨l, l', again, computed, computed', exact, exact', figures, figures', others, accounts, revalued,
    back l.accounts again .resetWhenFlat .cumulative revalued⟩

end Daybook
