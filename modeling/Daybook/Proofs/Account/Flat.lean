import Daybook.Proofs.Account.CostBasis
import Mathlib.Data.Nat.Find

/-!
# What is forgotten of a position that was flat

A position is flat after some legs when the shares that came in and went out come to nothing. With the cost
basis that is reset when flat, only the legs since then count: it is the cumulative cost basis of these
legs (`costBasisBy_forgets_flat`), and what is recorded into a flat position costs what it costs in a fresh
one (`costBasisBy_append`).

Both rest on one fact about sums. A zero of any sign and scale leaves the other summand as it is, so that
counting on from a zero is counting from the beginning (`foldlM_add_of_isZero`).
-/

namespace Daybook

/-! ### Sums that start at zero -/

namespace Decimal

theorem add_of_isZero {z : Decimal} (isZero : z.isZero = true) (d : Decimal) : z.add d = some d := by
  unfold add
  rw [if_pos isZero]

/-- Adding on to a zero is adding on to any other zero, as soon as something is added. -/
theorem foldlM_add_of_isZero {y z : Decimal} (fromZero : y.isZero = true) (toZero : z.isZero = true)
    {values : List Decimal} (some_value : values ≠ []) : values.foldlM add y = values.foldlM add z := by
  cases values with
  | nil => exact absurd rfl some_value
  | cons d rest => rw [List.foldlM_cons, List.foldlM_cons, add_of_isZero fromZero, add_of_isZero toZero]

end Decimal

/-! ### Flat positions -/

namespace ShareLeg

/-- How many shares are held after some legs, counted leg by leg. -/
def count? (legs : List ShareLeg) : Option Decimal := Decimal.sum (legs.map shares)

/-- No shares are held after these legs. -/
def IsFlat (legs : List ShareLeg) : Prop := ∃ held ∈ count? legs, held.isZero = true

instance (legs : List ShareLeg) : Decidable (IsFlat legs) := inferInstanceAs (Decidable (∃ _ ∈ _, _))

/-- How many legs there were when no shares were held for the last time. -/
def lastFlat (legs : List ShareLeg) : Nat := Nat.findGreatest (fun n => IsFlat (legs.take n)) legs.length

/-- The legs since no shares were held. -/
def sinceFlat (legs : List ShareLeg) : List ShareLeg := legs.drop (lastFlat legs)

variable {legs old new : List ShareLeg}

theorem isFlat_nil : IsFlat [] := ⟨.zero, rfl, rfl⟩

theorem count?_append (old new : List ShareLeg) :
    count? (old ++ new) = (count? old).bind fun held => (new.map shares).foldlM Decimal.add held := by
  unfold count? Decimal.sum
  rw [List.map_append, List.foldlM_append]
  rfl

/-- Counting goes on from a flat position as from the beginning. -/
theorem isFlat_append_iff (flat : IsFlat old) : IsFlat (old ++ new) ↔ IsFlat new := by
  obtain ⟨held, counted, isZero⟩ := flat
  by_cases none : new = []
  · subst none
    rw [List.append_nil]
    exact iff_of_true ⟨held, counted, isZero⟩ isFlat_nil
  · have same : count? (old ++ new) = count? new := by
      have some_value : new.map shares ≠ [] := by simpa using none
      rw [count?_append, Option.mem_def.1 counted]
      exact Decimal.foldlM_add_of_isZero isZero rfl some_value
    unfold IsFlat
    rw [same]

theorem isFlat_take_lastFlat (legs : List ShareLeg) : IsFlat (legs.take (lastFlat legs)) :=
  Nat.findGreatest_spec (P := fun n => IsFlat (legs.take n)) (Nat.zero_le _) isFlat_nil

theorem take_lastFlat_append_sinceFlat (legs : List ShareLeg) :
    legs.take (lastFlat legs) ++ sinceFlat legs = legs :=
  List.take_append_drop _ legs

/-- The position has not been flat again since it was flat for the last time. -/
theorem not_isFlat_take_sinceFlat (legs : List ShareLeg) :
    ∀ n, 0 < n → n ≤ (sinceFlat legs).length → ¬ IsFlat ((sinceFlat legs).take n) := by
  intro n positive few flat
  unfold sinceFlat at few flat
  rw [List.length_drop] at few
  have later : IsFlat (legs.take (lastFlat legs + n)) := by
    rw [List.take_add]
    exact (isFlat_append_iff (isFlat_take_lastFlat legs)).2 flat
  have most : lastFlat legs + n ≤ legs.length := by omega
  exact Nat.findGreatest_is_greatest (P := fun n => IsFlat (legs.take n))
    (Nat.lt_add_of_pos_right positive) most later

end ShareLeg

/-! ### Cost bases -/

namespace Position

open ShareLeg

/-- A position with nothing but its legs. -/
def ofLegs (legs : List ShareLeg) : Position := { legs }

theorem costBasisBy_ofLegs (p : Position) (method : CostBasis) :
    (ofLegs p.legs).costBasisBy method = p.costBasisBy method := rfl

theorem legs_of_record {p p' : Position} {leg : ShareLeg} (h : p.record leg = some p') :
    p'.legs = p.legs ++ [leg] := by
  unfold record at h
  simp only [Option.bind_eq_bind, Option.bind_eq_some_iff, Option.some.injEq] at h
  obtain ⟨held, _, fees, _, rfl⟩ := h
  rfl

theorem legs_of_foldlM_record {p p' : Position} {new : List ShareLeg} (h : new.foldlM record p = some p') :
    p'.legs = p.legs ++ new := by
  induction new generalizing p with
  | nil =>
    cases h
    rw [List.append_nil]
  | cons leg rest ih =>
    rw [List.foldlM_cons] at h
    obtain ⟨next, recorded, h⟩ := Option.bind_eq_some_iff.1 h
    rw [ih h, legs_of_record recorded, List.append_assoc, List.singleton_append]

variable {method : CostBasis} {r r' : Running} {legs old new : List ShareLeg}

/-- With either method the shares are counted alike. -/
theorem held_of_foldlM (h : legs.foldlM (Running.step method) r = some r') :
    (legs.map shares).foldlM Decimal.add r.held = some r'.held := by
  induction legs generalizing r with
  | nil =>
    cases h
    rfl
  | cons leg rest ih =>
    rw [List.foldlM_cons] at h
    obtain ⟨next, step, h⟩ := Option.bind_eq_some_iff.1 h
    unfold Running.step at step
    simp only [Option.bind_eq_bind, Option.bind_eq_some_iff, Option.some.injEq] at step
    obtain ⟨_, _, basis, _, held, counted, rfl⟩ := step
    rw [List.map_cons, List.foldlM_cons, counted]
    exact ih h

/-- A position that is flat and has cost nothing goes on like a fresh one. -/
theorem foldlM_of_isZero (isZero : r.held.isZero = true) (nothing : r.basis = .zero) :
    (legs.foldlM (Running.step method) r).map Running.basis
      = (legs.foldlM (Running.step method) {}).map Running.basis := by
  cases legs with
  | nil => exact congrArg some nothing
  | cons leg rest =>
    have held : r.held.add leg.shares = ({} : Running).held.add leg.shares := by
      rw [Decimal.add_of_isZero isZero]
      exact (Decimal.add_of_isZero rfl leg.shares).symm
    have first : r.step method leg = Running.step method {} leg := by
      unfold Running.step
      rw [nothing, held]
    rw [List.foldlM_cons, List.foldlM_cons, first]

/-- What a flat position has cost is forgotten. -/
theorem basis_of_isZero (h : legs.foldlM (Running.step .resetWhenFlat) {} = some r)
    (isZero : r.held.isZero = true) : r.basis = .zero := by
  rcases List.eq_nil_or_concat legs with rfl | ⟨before, last, rfl⟩
  · cases h
    rfl
  · rw [List.concat_eq_append, List.foldlM_append] at h
    obtain ⟨s, _, h⟩ := Option.bind_eq_some_iff.1 h
    rw [List.foldlM_cons] at h
    obtain ⟨next, step, same⟩ := Option.bind_eq_some_iff.1 h
    cases same
    unfold Running.step at step
    simp only [Option.bind_eq_bind, Option.bind_eq_some_iff, Option.some.injEq] at step
    obtain ⟨_, _, basis, _, held, _, rfl⟩ := step
    exact if_pos ⟨trivial, isZero⟩

/-- **What is recorded into a flat position costs what it costs in a fresh one.** -/
theorem costBasisBy_append (flat : IsFlat old)
    (known : ((ofLegs old).costBasisBy .resetWhenFlat).isSome = true) :
    (ofLegs (old ++ new)).costBasisBy .resetWhenFlat = (ofLegs new).costBasisBy .resetWhenFlat := by
  obtain ⟨held, counted, isZero⟩ := flat
  obtain ⟨r, run⟩ : ∃ r, old.foldlM (Running.step .resetWhenFlat) {} = some r := by
    rw [costBasisBy, Option.isSome_map] at known
    exact Option.isSome_iff_exists.1 known
  have same : r.held = held := Option.some.inj ((held_of_foldlM run).symm.trans counted)
  rw [← same] at isZero
  unfold costBasisBy ofLegs
  rw [List.foldlM_append, run]
  exact foldlM_of_isZero isZero (basis_of_isZero run isZero)

/-- As long as shares are held, nothing is reset: both methods do the same, and fail alike. -/
theorem foldlM_eq_of_held
    (holds : ∀ n, 0 < n → n ≤ legs.length →
      ∀ held ∈ ((legs.take n).map shares).foldlM Decimal.add r.held, held.isZero = false) :
    legs.foldlM (Running.step .resetWhenFlat) r = legs.foldlM (Running.step .cumulative) r := by
  induction legs generalizing r with
  | nil => rfl
  | cons leg rest ih =>
    have first : r.step .resetWhenFlat leg = r.step .cumulative leg := by
      unfold Running.step
      cases counted : r.held.add leg.shares with
      | none => rfl
      | some held =>
        have isHeld : held.isZero = false := holds 1 Nat.one_pos (by simp) held (by simp [counted])
        simp [isHeld]
    rw [List.foldlM_cons, List.foldlM_cons, first]
    cases step : r.step .cumulative leg with
    | none => rfl
    | some next =>
      apply ih
      intro n positive few held counted
      apply holds (n + 1) n.succ_pos (Nat.succ_le_succ few) held
      have run : [leg].foldlM (Running.step .cumulative) r = some next := by simpa using step
      have one : r.held.add leg.shares = some next.held := by simpa using held_of_foldlM run
      simpa [one] using counted

theorem costBasisBy_eq_of_not_isFlat (holds : ∀ n, 0 < n → n ≤ legs.length → ¬ IsFlat (legs.take n)) :
    (ofLegs legs).costBasisBy .resetWhenFlat = (ofLegs legs).costBasisBy .cumulative := by
  unfold costBasisBy ofLegs
  rw [foldlM_eq_of_held]
  intro n positive few held counted
  apply Bool.eq_false_iff.2
  intro isZero
  exact holds n positive few ⟨held, counted, isZero⟩

/-- What all legs cost is known only if it is known of the first ones. -/
theorem isSome_costBasisBy_of_append (h : ((ofLegs (old ++ new)).costBasisBy method).isSome = true) :
    ((ofLegs old).costBasisBy method).isSome = true := by
  rw [costBasisBy, Option.isSome_map] at h ⊢
  unfold ofLegs at h ⊢
  rw [List.foldlM_append] at h
  exact Option.isSome_of_isSome_bind h

/-- **A cost basis that is reset when flat forgets what was closed out, and nothing else.** It is the
cumulative cost basis of the legs since the position was flat for the last time. So it is zero for a flat
position, the cumulative one for a position that has never been flat again, and for legs that are recorded
into a flat position the one that they have in a fresh position. -/
theorem costBasisBy_forgets_flat {p : Position} {basis : Decimal}
    (known : p.costBasisBy .resetWhenFlat = some basis) :
    (ofLegs (sinceFlat p.legs)).costBasisBy .cumulative = some basis ∧
      (IsFlat p.legs → basis = .zero) ∧
      ((∀ n, 0 < n → n ≤ p.legs.length → ¬ IsFlat (p.legs.take n)) →
        p.costBasisBy .cumulative = some basis) ∧
      ∀ (flat : Position) (new : List ShareLeg), IsFlat flat.legs → new.foldlM record flat = some p →
        (ofLegs new).costBasisBy .resetWhenFlat = some basis ∧
          ∀ fresh, new.foldlM record .empty = some fresh → fresh.costBasisBy .resetWhenFlat = some basis := by
  have split (old new : List ShareLeg) (all : p.legs = old ++ new) (flat : IsFlat old) :
      (ofLegs new).costBasisBy .resetWhenFlat = some basis := by
    rw [← costBasisBy_ofLegs, all] at known
    rw [← known]
    symm
    have isSome : ((ofLegs (old ++ new)).costBasisBy .resetWhenFlat).isSome = true := by
      rw [known]
      rfl
    exact costBasisBy_append flat (isSome_costBasisBy_of_append isSome)
  refine ⟨?_, ?_, ?_, ?_⟩
  · rw [← costBasisBy_eq_of_not_isFlat (not_isFlat_take_sinceFlat p.legs)]
    exact split _ _ (take_lastFlat_append_sinceFlat p.legs).symm (isFlat_take_lastFlat p.legs)
  · intro flat
    exact (Option.some.inj (split p.legs [] (List.append_nil _).symm flat)).symm
  · intro holds
    rw [← costBasisBy_ofLegs, ← costBasisBy_eq_of_not_isFlat holds]
    exact known
  · intro flat new isFlat recorded
    have afresh := split flat.legs new (legs_of_foldlM_record recorded) isFlat
    refine ⟨afresh, ?_⟩
    intro fresh recordedAfresh
    rw [← costBasisBy_ofLegs, legs_of_foldlM_record recordedAfresh]
    exact afresh

/-! ### Shares bought back -/

def whole (n : Nat) : Decimal := (Decimal.fit? false n 0).getD .zero

/-- Ten shares that are bought for 1000, and sold for 1200 at a fee of 3; their number is written with
places when they are sold. -/
def roundTrip : List ShareLeg :=
  [⟨whole 1000, whole 10, .zero, .epoch⟩,
    ⟨whole 1200, (Decimal.fit? true 1000 2).getD .zero, whole 3, .epoch⟩]

/-- Five shares that are bought for 500. -/
def buyback : List ShareLeg := [⟨whole 500, whole 5, .zero, .epoch⟩]

/-- What is bought back costs what is paid for it. Counting all legs it would cost 303. -/
theorem costBasisBy_of_buyback :
    ∃ sold p fresh, roundTrip.foldlM record .empty = some sold ∧ IsFlat sold.legs ∧
      buyback.foldlM record sold = some p ∧ buyback.foldlM record .empty = some fresh ∧
      p.costBasisBy .resetWhenFlat = some (whole 500) ∧ p.costBasisBy .cumulative = some (whole 303) ∧
      sinceFlat p.legs = buyback ∧ (ofLegs buyback).costBasisBy .cumulative = some (whole 500) ∧
      fresh.costBasisBy .resetWhenFlat = some (whole 500) := by
  have recorded : ∃ sold ∈ roundTrip.foldlM record .empty, IsFlat sold.legs ∧
      ∃ p ∈ buyback.foldlM record sold, (buyback.foldlM record .empty).isSome = true ∧
        p.costBasisBy .resetWhenFlat = some (whole 500) ∧ p.costBasisBy .cumulative = some (whole 303) ∧
        sinceFlat p.legs = buyback := by
    decide +kernel
  obtain ⟨sold, isSold, flat, p, isBought, isFresh, known, all, since⟩ := recorded
  obtain ⟨fresh, isFresh⟩ := Option.isSome_iff_exists.1 isFresh
  obtain ⟨cumulative, _, _, afresh⟩ := costBasisBy_forgets_flat known
  rw [since] at cumulative
  exact ⟨sold, p, fresh, isSold, flat, isBought, isFresh, known, all, since, cumulative,
    (afresh sold buyback flat isBought).2 fresh isFresh⟩

end Position

end Daybook
