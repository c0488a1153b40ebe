import Daybook.Proofs.Account.Flat

/-!
# Runs of a position

A position is changed in place by one action after another, and an action may fail on its way. Here every
action is written down as it is carried out (`Position.Action.perform`): its checked operations, and the
assignments one by one. An action that fails has not come to its assignments yet (`perform_eq_result`).

A run takes actions of any kind, and goes on after those that fail. What it does step by step
(`legs_run`, `held_run`, `fees_run`) is what the cost basis does over again from the first leg, so the
shares that it counts are the ones that have been held before (`exists_held_of_run`), and only the sum of
values and fees can come to nothing (`costBasisBy_eq_none_iff`).
-/

namespace Daybook

/-- A checked loop that fails has gone through up to one element. -/
theorem foldlM_eq_none_iff {α σ : Type} {f : σ → α → Option σ} {s : σ} {xs : List α} :
    xs.foldlM f s = none ↔
      ∃ before x later reached, xs = before ++ x :: later ∧ before.foldlM f s = some reached ∧
        f reached x = none := by
  constructor
  · intro failed
    induction xs generalizing s with
    | nil => cases failed
    | cons x rest ih =>
      rw [List.foldlM_cons] at failed
      cases first : f s x with
      | none => exact ⟨[], x, rest, s, rfl, rfl, first⟩
      | some next =>
        rw [first] at failed
        obtain ⟨before, y, later, reached, rfl, through, last⟩ := ih failed
        refine ⟨x :: before, y, later, reached, rfl, ?_, last⟩
        rw [List.foldlM_cons, first]
        exact through
  · rintro ⟨before, x, later, reached, rfl, through, last⟩
    rw [List.foldlM_append, through]
    show (f reached x).bind _ = none
    rw [last]
    rfl

namespace Position

open ShareLeg

/-! ### Actions -/

/-- Something that is done to a position, or asked of it. -/
inductive Action where
  | record (leg : ShareLeg)
  | setPrice (price : Decimal)
  | setDividends (dividends : Decimal)
  | costBasis (method : CostBasis)
  | revalue (method : CostBasis)
  deriving DecidableEq

/-- A computation that changes a position as it goes along. It may give up on the way, and what it has
written until then stays. -/
abbrev InPlace := OptionT (StateM Position)

/-- An operation with a result that may not fit. -/
def checked {α : Type} (x : Option α) : InPlace α := OptionT.mk (pure x)

namespace Action

/-- An action, one operation and one assignment after the other. -/
def perform : Action → InPlace Unit
  | record leg => do
    let held ← checked ((← get).held.add leg.shares)
    let fees ← checked ((← get).fees.add leg.fee)
    modify fun p => { p with held }
    modify fun p => { p with fees }
    modify fun p => { p with legs := p.legs ++ [leg] }
  | setPrice price => modify fun p => { p with price }
  | setDividends dividends => modify fun p => { p with dividends }
  | costBasis method => do
    let _ ← checked ((← get).costBasisBy method)
  | revalue method => do
    let costBasis ← checked ((← get).costBasisBy method)
    let marketValue ← checked ((← get).held.mul (← get).price)
    let gain ← checked (marketValue.sub costBasis)
    let totalReturn ← checked (gain.add (← get).dividends)
    modify fun p => { p with costBasis }
    modify fun p => { p with marketValue }
    modify fun p => { p with totalReturn }

/-- The position that an action leads to, if it goes through. -/
def result (p : Position) : Action → Option Position
  | record leg => p.record leg
  | setPrice price => some { p with price }
  | setDividends dividends => some { p with dividends }
  | costBasis method => (p.costBasisBy method).map fun _ => p
  | revalue method => p.revalue method

def leg? : Action → Option ShareLeg
  | record leg => some leg
  | _ => none

def IsRevaluation (a : Action) : Prop := ∃ method, a = revalue method

end Action

/-- A checked operation of an action has no result that fits. -/
inductive Overflows (p : Position) : Action → Prop
  | held {leg} (h : p.held.add leg.shares = none) : Overflows p (.record leg)
  | fees {leg} (h : p.fees.add leg.fee = none) : Overflows p (.record leg)
  | cost {method} (h : p.costBasisBy method = none) : Overflows p (.costBasis method)
  | basis {method} (h : p.costBasisBy method = none) : Overflows p (.revalue method)
  | value {method} (h : p.held.mul p.price = none) : Overflows p (.revalue method)
  | gain {method basis value} (cost : p.costBasisBy method = some basis)
      (worth : p.held.mul p.price = some value) (h : value.sub basis = none) : Overflows p (.revalue method)
  | total {method basis value gain} (cost : p.costBasisBy method = some basis)
      (worth : p.held.mul p.price = some value) (difference : value.sub basis = some gain)
      (h : gain.add p.dividends = none) : Overflows p (.revalue method)

/-- What an action answers, and the position that it leaves. -/
def outcome (p : Position) (a : Action) : Option Unit × Position := a.perform.run.run p

/-- The position after an action, whether it went through or not. -/
def after (p : Position) (a : Action) : Position := (p.outcome a).2

/-- The action gives up. -/
def Fails (p : Position) (a : Action) : Prop := (p.outcome a).1 = none

instance (p : Position) (a : Action) : Decidable (p.Fails a) := inferInstanceAs (Decidable (_ = none))

/-! ### One action -/

section

variable {α β : Type} (p : Position)

theorem run_get (next : Position → InPlace β) : (get >>= next).run.run p = (next p).run.run p := rfl

theorem run_checked_some (a : α) (next : α → InPlace β) :
    (checked (some a) >>= next).run.run p = (next a).run.run p := rfl

end

theorem outcome_eq_result (p : Position) (a : Action) :
    p.outcome a = ((a.result p).map fun _ => (), (a.result p).getD p) := by
  unfold outcome
  cases a with
  | record leg =>
    rw [Action.perform, run_get, Action.result, record]
    cases held : p.held.add leg.shares with
    | none => rfl
    | some held =>
      rw [run_checked_some, run_get]
      cases fees : p.fees.add leg.fee with
      | none => rfl
      | some fees => rfl
  | setPrice price => rfl
  | setDividends dividends => rfl
  | costBasis method =>
    rw [Action.perform, run_get, Action.result]
    cases p.costBasisBy method with
    | none => rfl
    | some basis => rfl
  | revalue method =>
    rw [Action.perform, run_get, Action.result, revalue]
    simp only [Option.bind_eq_bind]
    cases p.costBasisBy method with
    | none => rfl
    | some basis =>
      rw [run_checked_some, run_get, run_get, Option.bind_some]
      cases p.held.mul p.price with
      | none => rfl
      | some value =>
        rw [run_checked_some, Option.bind_some]
        cases value.sub basis with
        | none => rfl
        | some gain =>
          rw [run_checked_some, run_get, Option.bind_some]
          cases gain.add p.dividends with
          | none => rfl
          | some total => rfl

variable {p q : Position} {a : Action} {actions : List Action} {method : CostBasis}
  {legs before later : List ShareLeg} {leg : ShareLeg} {r : Running}

theorem fails_iff_result : p.Fails a ↔ a.result p = none := by
  unfold Fails
  rw [outcome_eq_result]
  exact Option.map_eq_none_iff

theorem after_eq_getD (p : Position) (a : Action) : p.after a = (a.result p).getD p := by
  unfold after
  rw [outcome_eq_result]

/-- **An action that fails leaves the position as it is.** -/
theorem after_of_fails (fails : p.Fails a) : p.after a = p := by
  rw [after_eq_getD, fails_iff_result.1 fails]
  rfl

theorem result_of_not_fails (h : ¬ p.Fails a) : a.result p = some (p.after a) := by
  rw [fails_iff_result] at h
  obtain ⟨q, result⟩ := Option.ne_none_iff_exists'.1 h
  rw [after_eq_getD, result]
  rfl

theorem record_eq_none_iff :
    p.record leg = none ↔ p.held.add leg.shares = none ∨ p.fees.add leg.fee = none := by
  unfold record
  cases p.held.add leg.shares <;> cases p.fees.add leg.fee <;> simp

theorem revalue_eq_none_iff :
    p.revalue method = none ↔
      p.costBasisBy method = none ∨ p.held.mul p.price = none ∨
        ∃ basis ∈ p.costBasisBy method, ∃ value ∈ p.held.mul p.price,
          value.sub basis = none ∨ ∃ gain ∈ value.sub basis, gain.add p.dividends = none := by
  unfold revalue
  cases p.costBasisBy method with
  | none => simp
  | some basis =>
    cases p.held.mul p.price with
    | none => simp
    | some value =>
      cases difference : value.sub basis with
      | none => simp [difference]
      | some gain => cases total : gain.add p.dividends <;> simp [difference, total]

/-- An action fails when one of its operations has no result, and only then. -/
theorem fails_iff_overflows : p.Fails a ↔ p.Overflows a := by
  rw [fails_iff_result]
  constructor
  · intro fails
    cases a with
    | record leg =>
      rcases record_eq_none_iff.1 fails with h | h
      · exact .held h
      · exact .fees h
    | setPrice price => cases fails
    | setDividends dividends => cases fails
    | costBasis method => exact .cost (Option.map_eq_none_iff.1 fails)
    | revalue method =>
      rcases revalue_eq_none_iff.1 fails with h | h | ⟨basis, cost, value, worth, h | ⟨gain, difference, h⟩⟩
      · exact .basis h
      · exact .value h
      · exact .gain cost worth h
      · exact .total cost worth difference h
  · intro overflows
    cases overflows with
    | held h => exact record_eq_none_iff.2 (.inl h)
    | fees h => exact record_eq_none_iff.2 (.inr h)
    | cost h => exact Option.map_eq_none_iff.2 h
    | basis h => exact revalue_eq_none_iff.2 (.inl h)
    | value h => exact revalue_eq_none_iff.2 (.inr (.inl h))
    | gain cost worth h =>
      exact revalue_eq_none_iff.2 (.inr (.inr ⟨_, cost, _, worth, .inl h⟩))
    | total cost worth difference h =>
      exact revalue_eq_none_iff.2 (.inr (.inr ⟨_, cost, _, worth, .inr ⟨_, difference, h⟩⟩))

/-! ### Runs -/

/-- The position after some actions, of which some may fail. -/
def run (p : Position) (actions : List Action) : Position := actions.foldl after p

/-- The actions of a run that go through. -/
def done (p : Position) : List Action → List Action
  | [] => []
  | a :: rest => if p.Fails a then (p.after a).done rest else a :: (p.after a).done rest

theorem run_cons (p : Position) (a : Action) (rest : List Action) :
    p.run (a :: rest) = (p.after a).run rest := rfl

/-- What holds of a position, and is kept by every action that goes through, holds at the end of a run. -/
theorem run_induction {motive : Position → Prop} (start : motive p)
    (step : ∀ (q : Position) (a : Action) (next : Position), motive q → a.result q = some next → motive next) : motive (p.run actions) := by
  induction actions generalizing p with
  | nil => exact start
  | cons a rest ih =>
    rw [run_cons]
    apply ih
    by_cases fails : p.Fails a
    · rw [after_of_fails fails]
      exact start
    · exact step p a _ start (result_of_not_fails fails)

/-! ### What is recorded -/

theorem legs_of_result (h : a.result p = some q) : q.legs = p.legs ++ a.leg?.toList := by
  cases a with
  | record leg => exact legs_of_record h
  | setPrice price =>
    cases h
    exact (List.append_nil _).symm
  | setDividends dividends =>
    cases h
    exact (List.append_nil _).symm
  | costBasis method =>
    obtain ⟨_, _, rfl⟩ := Option.map_eq_some_iff.1 h
    exact (List.append_nil _).symm
  | revalue method =>
    simp only [Action.result, revalue, Option.bind_eq_bind, Option.bind_eq_some_iff, Option.some.injEq] at h
    obtain ⟨_, _, _, _, _, _, _, _, rfl⟩ := h
    exact (List.append_nil _).symm

/-- **The legs of a position are those that were recorded, in their order.** -/
theorem legs_run (p : Position) (actions : List Action) :
    (p.run actions).legs = p.legs ++ (p.done actions).filterMap Action.leg? := by
  induction actions generalizing p with
  | nil => exact (List.append_nil _).symm
  | cons a rest ih =>
    rw [run_cons, ih, done]
    split
    · next fails => rw [after_of_fails fails]
    · next through =>
      rw [legs_of_result (result_of_not_fails through), List.append_assoc, List.filterMap_cons]
      cases a.leg? <;> rfl

/-- The totals of a position are the sums over its legs. -/
structure IsTotalled (p : Position) : Prop where
  held : Decimal.sum (p.legs.map shares) = some p.held
  fees : Decimal.sum (p.legs.map fee) = some p.fees

theorem isTotalled_empty : IsTotalled empty := ⟨rfl, rfl⟩

theorem sum_concat {values : List Decimal} {total last : Decimal} (sum : Decimal.sum values = some total) :
    Decimal.sum (values ++ [last]) = total.add last := by
  unfold Decimal.sum at sum ⊢
  rw [List.foldlM_append, sum]
  simp

theorem IsTotalled.of_record (totalled : p.IsTotalled) (h : p.record leg = some q) : q.IsTotalled := by
  unfold record at h
  simp only [Option.bind_eq_bind, Option.bind_eq_some_iff, Option.some.injEq] at h
  obtain ⟨held, counted, fees, paid, rfl⟩ := h
  constructor
  · show Decimal.sum ((p.legs ++ [leg]).map shares) = some held
    rw [List.map_append, List.map_singleton, sum_concat totalled.held, counted]
  · show Decimal.sum ((p.legs ++ [leg]).map fee) = some fees
    rw [List.map_append, List.map_singleton, sum_concat totalled.fees, paid]

theorem IsTotalled.of_result (totalled : p.IsTotalled) (h : a.result p = some q) : q.IsTotalled := by
  cases a with
  | record leg => exact totalled.of_record h
  | setPrice price =>
    cases h
    exact ⟨totalled.held, totalled.fees⟩
  | setDividends dividends =>
    cases h
    exact ⟨totalled.held, totalled.fees⟩
  | costBasis method =>
    obtain ⟨_, _, rfl⟩ := Option.map_eq_some_iff.1 h
    exact totalled
  | revalue method =>
    simp only [Action.result, revalue, Option.bind_eq_bind, Option.bind_eq_some_iff, Option.some.injEq] at h
    obtain ⟨_, _, _, _, _, _, _, _, rfl⟩ := h
    exact ⟨totalled.held, totalled.fees⟩

theorem IsTotalled.run (totalled : p.IsTotalled) (actions : List Action) : (p.run actions).IsTotalled :=
  run_induction totalled fun _ _ _ before through => before.of_result through

/-! ### The cost basis over again -/

/-- A sum that fits fits up to every one of its parts. -/
theorem exists_of_sum_append {values more : List Decimal} {total : Decimal}
    (h : Decimal.sum (values ++ more) = some total) : ∃ part, Decimal.sum values = some part := by
  unfold Decimal.sum at h ⊢
  rw [List.foldlM_append] at h
  obtain ⟨part, sum, _⟩ := Option.bind_eq_some_iff.1 h
  exact ⟨part, sum⟩

/-- **Counting shares over again never overflows:** it counts what was held after each leg. -/
theorem IsTotalled.exists_held (totalled : p.IsTotalled) (parts : p.legs = before ++ leg :: later)
    (through : before.foldlM (Running.step method) {} = some r) :
    ∃ held, r.held.add leg.shares = some held ∧ count? (before ++ [leg]) = some held := by
  have all : Decimal.sum ((before ++ [leg]).map shares ++ later.map shares) = some p.held := by
    rw [← List.map_append, List.append_assoc, List.singleton_append, ← parts]
    exact totalled.held
  obtain ⟨held, counted⟩ := exists_of_sum_append all
  refine ⟨held, ?_, counted⟩
  rw [← counted, List.map_append, List.map_singleton]
  exact (sum_concat (held_of_foldlM through)).symm

/-- The legs of which the values and fees make up the cost basis. -/
def costed : CostBasis → List ShareLeg → List ShareLeg
  | .cumulative, legs => legs
  | .resetWhenFlat, legs => sinceFlat legs

/-- With either method the basis is the sum over the legs that count. -/
theorem sum_costed (through : legs.foldlM (Running.step method) {} = some r) :
    Decimal.sum ((costed method legs).flatMap ShareLeg.costs) = some r.basis := by
  have known : (ofLegs legs).costBasisBy method = some r.basis := Option.map_eq_some_iff.2 ⟨r, through, rfl⟩
  cases method with
  | cumulative => exact sum_of_costBasisBy known
  | resetWhenFlat =>
    have parts := take_lastFlat_append_sinceFlat legs
    have isSome : ((ofLegs (legs.take (lastFlat legs) ++ sinceFlat legs)).costBasisBy .resetWhenFlat).isSome := by
      rw [parts, known]
      rfl
    have since : (ofLegs (sinceFlat legs)).costBasisBy .resetWhenFlat = some r.basis := by
      rw [← costBasisBy_append (isFlat_take_lastFlat legs) (isSome_costBasisBy_of_append isSome), parts, known]
    rw [costBasisBy_eq_of_not_isFlat (not_isFlat_take_sinceFlat legs)] at since
    exact sum_of_costBasisBy since

/-- The next leg adds its value and its fee to the sum. -/
theorem sum_costed_concat (through : before.foldlM (Running.step method) {} = some r) :
    Decimal.sum ((costed method before ++ [leg]).flatMap ShareLeg.costs)
      = (r.basis.add leg.signedValue).bind (·.add leg.fee) := by
  have sum := sum_costed through
  unfold Decimal.sum at sum ⊢
  rw [List.flatMap_append, List.foldlM_append, sum]
  simp [ShareLeg.costs]

/-- **A cost basis is unknown only for a sum of values and fees that does not fit.** -/
theorem IsTotalled.costBasisBy_eq_none_iff (totalled : p.IsTotalled) :
    p.costBasisBy method = none ↔
      ∃ before leg later, p.legs = before ++ leg :: later ∧
        Decimal.sum ((costed method before ++ [leg]).flatMap ShareLeg.costs) = none := by
  rw [costBasisBy, Option.map_eq_none_iff]
  constructor
  · intro failed
    obtain ⟨before, leg, later, r, parts, through, last⟩ := foldlM_eq_none_iff.1 failed
    refine ⟨before, leg, later, parts, ?_⟩
    obtain ⟨held, counted, _⟩ := totalled.exists_held parts through
    rw [sum_costed_concat through, Option.eq_none_iff_forall_ne_some]
    intro basis sum
    obtain ⟨worth, valued, paid⟩ := Option.bind_eq_some_iff.1 sum
    simp [Running.step, counted, valued, paid] at last
  · rintro ⟨before, leg, later, parts, sum⟩
    rw [Option.eq_none_iff_forall_ne_some]
    intro final through
    rw [parts, List.foldlM_append] at through
    obtain ⟨r, through, last⟩ := Option.bind_eq_some_iff.1 through
    rw [List.foldlM_cons] at last
    obtain ⟨next, step, _⟩ := Option.bind_eq_some_iff.1 last
    rw [sum_costed_concat through] at sum
    unfold Running.step at step
    simp only [Option.bind_eq_bind, Option.bind_eq_some_iff, Option.some.injEq] at step
    obtain ⟨worth, valued, basis, paid, _⟩ := step
    rw [valued, Option.bind_some, paid] at sum
    cases sum

/-! ### Figures -/

/-- The derived figures of a position. -/
def figures (p : Position) : EquityTotals := ⟨p.costBasis, p.marketValue, p.totalReturn⟩

theorem figures_of_result (h : a.result p = some q) (other : ¬ a.IsRevaluation) : q.figures = p.figures := by
  cases a with
  | record leg =>
    simp only [Action.result, record, Option.bind_eq_bind, Option.bind_eq_some_iff, Option.some.injEq] at h
    obtain ⟨_, _, _, _, rfl⟩ := h
    rfl
  | setPrice price =>
    cases h
    rfl
  | setDividends dividends =>
    cases h
    rfl
  | costBasis method =>
    obtain ⟨_, _, rfl⟩ := Option.map_eq_some_iff.1 h
    rfl
  | revalue method => exact absurd ⟨method, rfl⟩ other

/-- The figures at the end of a run are those that some figures from before were replaced with last. -/
inductive LastFigures (p : Position) (actions : List Action) (figures : EquityTotals) : Prop
  /-- No figures have been worked out. -/
  | start (none_worked : ∀ a ∈ p.done actions, ¬ a.IsRevaluation) (kept : figures = p.figures)
  /-- They were worked out at some point, and not again. -/
  | worked (before : List Action) (method : CostBasis) (later : List Action) (valued : Position)
      (parts : actions = before ++ .revalue method :: later)
      (through : (p.run before).revalue method = some valued)
      (none_later : ∀ a ∈ valued.done later, ¬ a.IsRevaluation) (last : figures = valued.figures)

/-- **The figures of a position are those of the last time they were worked out.** -/
theorem lastFigures_run (p : Position) (actions : List Action) :
    p.LastFigures actions (p.run actions).figures := by
  induction actions generalizing p with
  | nil => exact .start (by simp [done]) rfl
  | cons a rest ih =>
    rw [run_cons]
    cases ih (p.after a) with
    | worked before method later valued parts through none_later last =>
      exact .worked (a :: before) method later valued (congrArg (a :: ·) parts) through none_later last
    | start none_worked kept =>
      by_cases fails : p.Fails a
      · apply LastFigures.start
        · rw [done, if_pos fails]
          exact none_worked
        · rw [kept, after_of_fails fails]
      · have through := result_of_not_fails fails
        by_cases worked : a.IsRevaluation
        · obtain ⟨method, rfl⟩ := worked
          exact .worked [] method rest _ rfl through none_worked kept
        · apply LastFigures.start
          · rw [done, if_neg fails]
            exact List.forall_mem_cons.2 ⟨worked, none_worked⟩
          · rw [kept, figures_of_result through worked]

/-! ### Runs from the beginning -/

/-- What is known of a position that some actions have led to, from an empty one. -/
structure IsLedTo (p : Position) (actions : List Action) : Prop where
  /-- An action fails for what does not fit, and for nothing else. -/
  refused : ∀ a, p.Fails a ↔ p.Overflows a
  untouched : ∀ a, p.Fails a → p.after a = p
  legs : p.legs = (done .empty actions).filterMap Action.leg?
  held : Decimal.sum (p.legs.map ShareLeg.shares) = some p.held
  fees : Decimal.sum (p.legs.map ShareLeg.fee) = some p.fees
  /-- Where a cost basis is counted up to some leg, the shares of this leg can be counted too. -/
  counted : ∀ method before leg later (r : Running), p.legs = before ++ leg :: later →
    before.foldlM (Running.step method) {} = some r → ∃ held, r.held.add leg.shares = some held
  costBasis : ∀ method, p.costBasisBy method = none ↔
    ∃ before leg later, p.legs = before ++ leg :: later ∧
      Decimal.sum ((costed method before ++ [leg]).flatMap ShareLeg.costs) = none
  figures : LastFigures .empty actions p.figures

/-- **A position is what its run has made of it**, with the actions that fail on the way: these change
nothing. -/
theorem isLedTo_run (actions : List Action) : (run .empty actions).IsLedTo actions where
  refused _ := fails_iff_overflows
  untouched _ := after_of_fails
  legs := legs_run .empty actions
  held := (isTotalled_empty.run actions).held
  fees := (isTotalled_empty.run actions).fees
  counted method before leg later r parts through := by
    obtain ⟨held, counted, _⟩ := (isTotalled_empty.run actions).exists_held parts through
    exact ⟨held, counted⟩
  costBasis _ := (isTotalled_empty.run actions).costBasisBy_eq_none_iff
  figures := lastFigures_run .empty actions

/-- As many shares as fit; one more, which does not; and a price at which they are worth too much. -/
def crowded : List Action :=
  [.record ⟨whole 1000, whole (Decimal.limit - 1), .zero, .epoch⟩, .setPrice (whole 1), .revalue .cumulative,
    .record ⟨whole 1, whole 1, whole 1, .epoch⟩, .setPrice (whole 2), .revalue .resetWhenFlat]

example : ∃ p ∈ empty.record ⟨whole 1000, whole (Decimal.limit - 1), .zero, .epoch⟩,
    ∃ valued ∈ revalue { p with price := whole 1 } .cumulative,
      run .empty crowded = { valued with price := whole 2 } := by
  decide +kernel

end Position

end Daybook
