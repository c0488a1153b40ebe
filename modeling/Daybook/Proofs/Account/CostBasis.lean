import Daybook.Proofs.Account.Revaluation
import Daybook.Proofs.Decimal.Exact

/-!
# What shares have cost

The cumulative cost basis of a position is one long sum: of every leg its value, with the direction of the
shares as its sign, and its fee (`Position.sum_of_costBasisBy`).
-/

namespace Daybook

/-- What a leg adds to the cost basis. -/
def ShareLeg.costs (leg : ShareLeg) : List Decimal := [leg.signedValue, leg.fee]

theorem Decimal.unitsOf_flatMap {α : Type} (f : α → List Decimal) (xs : List α) :
    unitsOf (xs.flatMap f) = (xs.map fun x => unitsOf (f x)).sum := by
  induction xs with
  | nil => rfl
  | cons x rest ih => rw [List.flatMap_cons, unitsOf_append, ih, List.map_cons, List.sum_cons]

namespace Position

/-! ### The sum over all legs -/

theorem foldlM_of_cumulative {legs : List ShareLeg} {r r' : Running}
    (h : legs.foldlM (Running.step .cumulative) r = some r') :
    (legs.flatMap ShareLeg.costs).foldlM Decimal.add r.basis = some r'.basis := by
  induction legs generalizing r with
  | nil =>
    cases h
    rfl
  | cons leg rest ih =>
    rw [List.foldlM_cons] at h
    obtain ⟨next, step, h⟩ := Option.bind_eq_some_iff.1 h
    simp only [Running.step, Option.bind_eq_bind, Option.bind_eq_some_iff, Option.some.injEq] at step
    obtain ⟨worth, valued, basis, paid, held, _, rfl⟩ := step
    have basis : (leg.costs ++ rest.flatMap ShareLeg.costs).foldlM Decimal.add r.basis
        = (rest.flatMap ShareLeg.costs).foldlM Decimal.add basis := by
      simp [ShareLeg.costs, valued, paid]
    rw [List.flatMap_cons, basis]
    exact ih h

theorem sum_of_costBasisBy {p : Position} {basis : Decimal} (h : p.costBasisBy .cumulative = some basis) :
    Decimal.sum (p.legs.flatMap ShareLeg.costs) = some basis := by
  obtain ⟨r, run, rfl⟩ := Option.map_eq_some_iff.1 h
  exact foldlM_of_cumulative run

/-- No sum of shares, of values or of fees of a position is rounded. -/
structure IsExact (p : Position) : Prop where
  held : Decimal.AddsExactly .zero (p.legs.map ShareLeg.shares)
  basis : Decimal.AddsExactly .zero (p.legs.flatMap ShareLeg.costs)

end Position

end Daybook
