import Daybook.Decimal.Arithmetic
import Daybook.Timestamp.Basic

/-!
# Share positions

A position is what an equity account holds of one company. The replay of a ledger records legs,
dividends and prices; cost basis, market value and total return are worked out from them afterwards, by
`Position.revalue`.
-/

namespace Daybook

/-- How the cost basis of a position is worked out. -/
inductive CostBasis where
  /-- From all legs. -/
  | cumulative
  /-- From the legs since no shares were held. -/
  | resetWhenFlat
  deriving DecidableEq, Repr

/-- Shares that came in or went out. -/
structure ShareLeg where
  /-- What they were worth, without sign. -/
  value : Decimal
  /-- How many; negative when they went out. -/
  shares : Decimal
  fee : Decimal
  timestamp : Timestamp
  deriving DecidableEq, Repr

/-- The value with the direction of the shares as its sign. -/
def ShareLeg.signedValue (l : ShareLeg) : Decimal := if l.shares < .zero then l.value.neg else l.value

/-- What is held of one company. -/
structure Position where
  held : Decimal := .zero
  costBasis : Decimal := .zero
  fees : Decimal := .zero
  dividends : Decimal := .zero
  price : Decimal := .zero
  marketValue : Decimal := .zero
  totalReturn : Decimal := .zero
  legs : List ShareLeg := []
  deriving DecidableEq, Repr

namespace Position

def empty : Position := {}

/-- The position after a leg, unless a total does not fit. -/
def record (p : Position) (leg : ShareLeg) : Option Position := do
  let held ← p.held.add leg.shares
  let fees ← p.fees.add leg.fee
  some { p with held, fees, legs := p.legs ++ [leg] }

/-- The position after a dividend, unless the total does not fit. -/
def addDividend (p : Position) (amount : Decimal) : Option Position :=
  (p.dividends.add amount).map fun dividends => { p with dividends }

/-- Shares held and cost basis so far. -/
structure Running where
  held : Decimal := .zero
  basis : Decimal := .zero

/-- Shares and cost basis after one more leg. -/
def Running.step (method : CostBasis) (r : Running) (leg : ShareLeg) : Option Running := do
  let basis ← (← r.basis.add leg.signedValue).add leg.fee
  let held ← r.held.add leg.shares
  some ⟨held, if method = .resetWhenFlat ∧ held.isZero then .zero else basis⟩

/-- What the shares held have cost, unless a partial sum does not fit. -/
def costBasisBy (p : Position) (method : CostBasis) : Option Decimal :=
  (p.legs.foldlM (Running.step method) {}).map Running.basis

/-- The position with its derived figures worked out, unless one does not fit. -/
def revalue (p : Position) (method : CostBasis) : Option Position := do
  let costBasis ← p.costBasisBy method
  let marketValue ← p.held.mul p.price
  let totalReturn ← (← marketValue.sub costBasis).add p.dividends
  some { p with costBasis, marketValue, totalReturn }

def averagePrice? (p : Position) : Option Decimal :=
  if p.held.isZero then none else (p.costBasis.div p.held).map Decimal.abs

def returnPercent? (p : Position) : Option Decimal :=
  if p.costBasis.isZero then none else (p.totalReturn.div p.costBasis).bind (·.mul .hundred)

end Position

/-- The figures of all positions of an account together. -/
structure EquityTotals where
  costBasis : Decimal := .zero
  marketValue : Decimal := .zero
  totalReturn : Decimal := .zero
  deriving DecidableEq, Repr

def EquityTotals.add (t : EquityTotals) (p : Position) : Option EquityTotals := do
  let costBasis ← t.costBasis.add p.costBasis
  let marketValue ← t.marketValue.add p.marketValue
  let totalReturn ← t.totalReturn.add p.totalReturn
  some ⟨costBasis, marketValue, totalReturn⟩

end Daybook
