import Daybook.Statement.Parts
import Daybook.Proofs.Basket.LastRate
import Daybook.Proofs.Checked
import Daybook.Proofs.Decimal.Quotient

/-!
# What a unit is worth

A rate is accepted only if a unit is worth something: not too much for a decimal, and not so little that it
is rounded to zero. So a basket of accepted rates says what a unit is worth wherever it holds a rate, in
either direction (`exists_rate_of_setAll`). The worth read in the direction in which the rate was set is
above zero. The inverse of a rate is not looked at again, and it is rounded to zero from a certain steepness
on.
-/

namespace Daybook

/-- The smallest number whose inverse is rounded to zero. -/
def Decimal.steepest : Decimal := .ofNat 20000000000000000000000000000

/-! ### Accepted rates -/

/-- What a unit is worth is above zero, if it is anything. -/
theorem unitRate?_pos {rate units perUnit : Decimal} (rate_pos : .zero < rate) (units_pos : .zero < units)
    (h : unitRate? rate units = some perUnit) : .zero < perUnit := by
  have rate_pos : 0 < rate.units := rate_pos
  have units_pos : 0 < units.units := units_pos
  rw [unitRate?] at h
  split at h
  · next quotient divided =>
    split at h
    · cases h
    · next some_worth =>
      obtain rfl := Option.some.inj h
      have nonneg := Decimal.units_nonneg (Decimal.negative_div divided rate_pos units_pos)
      rw [Decimal.isZero_iff] at some_worth
      show 0 < quotient.units
      omega
  · cases h

/-- The rate is one that may be written in a ledger. -/
def ExchangeRate.IsAccepted (r : ExchangeRate) : Prop := ∃ nodes, ExchangeRate.ofNodes nodes = .ok r

/-- A unit of an accepted rate is worth something above zero. -/
theorem ExchangeRate.IsAccepted.exists_perUnit {r : ExchangeRate} (accepted : r.IsAccepted) :
    ∃ perUnit, unitRate? r.rate r.units = some perUnit ∧ .zero < perUnit := by
  obtain ⟨nodes, h⟩ := accepted
  unfold ExchangeRate.ofNodes at h
  split at h
  · simp only [bind_eq_ok_iff] at h
    obtain ⟨source, -, target, -, rate, -, h⟩ := h
    -- The two numbers are checked alike with and without a number of units written.
    split at h
    all_goals
      obtain ⟨units, -, h⟩ := bind_eq_ok_iff.1 h
      split at h
      · cases h
      · next positive =>
        rw [not_or] at positive
        split at h
        · next perUnit worth =>
          cases h
          exact ⟨perUnit, worth, unitRate?_pos (Int.not_le.1 positive.1) (Int.not_le.1 positive.2) worth⟩
        · cases h
  · cases h

namespace Basket

variable {rates : List ExchangeRate} {p : CurrencyPair}

/-! ### Rates in either direction -/

/-- What a basket holds was set, and is accepted as all that was set. -/
theorem exists_perUnit_of_get? {quote : Quote} (accepted : ∀ r ∈ rates, r.IsAccepted)
    (held : (empty.setAll rates).get? p = some quote) :
    ∃ perUnit, quote.perUnit = .ok perUnit ∧ .zero < perUnit := by
  rw [get?_setAll] at held
  split at held
  · next r last =>
    split at held
    · obtain rfl := Option.some.inj held
      obtain ⟨set, _⟩ := ExchangeRate.isBetween_of_last? last
      obtain ⟨perUnit, worth, positive⟩ := (accepted r set).exists_perUnit
      refine ⟨perUnit, ?_, positive⟩
      simp only [Quote.perUnit, worth]
    · cases held
  · cases held

/-- The inverse of a number above zero is a decimal that is not below zero, and it is zero exactly if the
number is too steep. -/
theorem exists_inverse {perUnit : Decimal} (positive : .zero < perUnit) :
    ∃ inverse, Decimal.one.div perUnit = some inverse ∧ .zero ≤ inverse ∧
      (inverse.isZero = true ↔ .steepest ≤ perUnit) := by
  have positive : 0 < perUnit.units := positive
  have one : Decimal.one.units = 10000000000000000000000000000 := rfl
  have steepest : Decimal.steepest.units = 200000000000000000000000000000000000000000000000000000000 := rfl
  obtain ⟨inverse, divided⟩ : ∃ inverse, Decimal.one.div perUnit = some inverse := by
    refine Decimal.exists_div ?_
    rw [one, Decimal.limit]
    omega
  refine ⟨inverse, divided, ?_, ?_⟩
  · exact Decimal.units_nonneg (Decimal.negative_div divided (by rw [one]; decide) positive)
  · rw [Decimal.isZero_div_iff divided, one, show powerOfTen 28 = 10000000000000000000000000000 from rfl]
    show _ ↔ Decimal.steepest.units ≤ perUnit.units
    rw [steepest]
    omega

/-- What money is converted to is its product with the rate. -/
theorem exists_rate_of_convert {b : Basket} {money converted : Money} {target : Currency}
    (h : b.convert money target = .ok converted) :
    ∃ rate, b.rate ⟨money.currency, target⟩ = .ok rate ∧ money.amount.mul rate = some converted.amount := by
  rw [Basket.convert] at h
  obtain ⟨rate, known, h⟩ := bind_eq_ok_iff.1 h
  refine ⟨rate, known, ?_⟩
  split at h
  · next product multiplied =>
    cases h
    exact multiplied
  · cases h

/-- A conversion that loses everything loses no more than half of the smallest decimal. -/
theorem isZero_convert_iff {b : Basket} {money converted : Money} {target : Currency} {rate : Decimal}
    (known : b.rate ⟨money.currency, target⟩ = .ok rate) (h : b.convert money target = .ok converted) :
    converted.amount.isZero = true ↔ 2 * (money.amount.units * rate.units).natAbs ≤ powerOfTen 28 := by
  obtain ⟨_, same, multiplied⟩ := exists_rate_of_convert h
  cases known.symm.trans same
  exact Decimal.isZero_mul_iff multiplied

/-- **What a unit is worth**, in either direction: a basket of accepted rates knows it for any two
currencies of which it holds a rate, and it is not below zero. It is zero exactly if it is the inverse of a
rate that is too steep. Apart from that, a conversion gives zero only by rounding the product: where the
exact product is no more than half of the smallest decimal. -/
theorem exists_rate_of_setAll (accepted : ∀ r ∈ rates, r.IsAccepted)
    (held : ((empty.setAll rates).get? p).isSome ∨ ((empty.setAll rates).get? p.swap).isSome) :
    ∃ rate, (empty.setAll rates).rate p = .ok rate ∧ .zero ≤ rate ∧
      (rate.isZero = true ↔ p.source ≠ p.target ∧ (empty.setAll rates).get? p = none ∧
        ∃ quote perUnit, (empty.setAll rates).get? p.swap = some quote ∧ quote.perUnit = .ok perUnit ∧
          .steepest ≤ perUnit) ∧
      ∀ amount money, (empty.setAll rates).convert ⟨amount, p.source⟩ p.target = .ok money →
        (money.amount.isZero = true ↔ 2 * (amount.units * rate.units).natAbs ≤ powerOfTen 28) := by
  suffices known : ∃ rate, (empty.setAll rates).rate p = .ok rate ∧ .zero ≤ rate ∧
      (rate.isZero = true ↔ p.source ≠ p.target ∧ (empty.setAll rates).get? p = none ∧
        ∃ quote perUnit, (empty.setAll rates).get? p.swap = some quote ∧ quote.perUnit = .ok perUnit ∧
          .steepest ≤ perUnit) by
    obtain ⟨rate, known, nonneg, isZero_iff⟩ := known
    exact ⟨rate, known, nonneg, isZero_iff, fun _ _ => isZero_convert_iff known⟩
  by_cases same : p.source = p.target
  · exact ⟨.one, if_pos same, by decide, by simp [same]; decide⟩
  cases direct : (empty.setAll rates).get? p with
  | some quote =>
    obtain ⟨perUnit, worth, positive⟩ := exists_perUnit_of_get? accepted direct
    refine ⟨perUnit, ?_, Int.le_of_lt positive, ?_⟩
    · simp only [Basket.rate, if_neg same, direct, worth]
    · have positive : 0 < perUnit.units := positive
      rw [Decimal.isZero_iff]
      simp only [reduceCtorEq, false_and, and_false, iff_false]
      omega
  | none =>
    obtain ⟨quote, reverse⟩ := Option.isSome_iff_exists.1 (held.resolve_left (by simp [direct]))
    obtain ⟨perUnit, worth, positive⟩ := exists_perUnit_of_get? accepted reverse
    obtain ⟨inverse, divided, nonneg, isZero_iff⟩ := exists_inverse positive
    refine ⟨inverse, ?_, nonneg, ?_⟩
    · simp only [Basket.rate, if_neg same, direct, reverse, worth]
      rw [bind_eq_ok_iff]
      exact ⟨perUnit, rfl, by rw [divided]⟩
    · rw [isZero_iff]
      constructor
      · intro steep
        exact ⟨same, rfl, quote, perUnit, reverse, worth, steep⟩
      · rintro ⟨-, -, quote', perUnit', reverse', worth', steep⟩
        obtain rfl := Option.some.inj (reverse.symm.trans reverse')
        obtain rfl := Except.ok.inj (worth.symm.trans worth')
        exact steep

/-- A euro is worth so many zloty. -/
def zlotyRate (rate : Decimal) : ExchangeRate := ⟨⟨.eur, .pln⟩, rate, .one⟩

/-- The parts of a line that says so. -/
def zlotyNodes (rate : String) : List Grammar.Node :=
  [.mk .currency 1 "EUR" [], .mk .currency 1 "PLN" [], .mk .number 1 rate []]

theorem isAccepted_zlotyRate_four : (zlotyRate (.ofNat 4)).IsAccepted := by
  refine ⟨zlotyNodes "4", ?_⟩
  rw [← toOption_eq_some_iff]
  decide +kernel

/-- At four zloty for a euro, a zloty is worth something. -/
theorem exists_rate_of_four :
    ∃ rate, (empty.setAll [zlotyRate (.ofNat 4)]).rate ⟨.pln, .eur⟩ = .ok rate ∧ .zero < rate := by
  have accepted : ∀ r ∈ [zlotyRate (.ofNat 4)], r.IsAccepted := by simpa using isAccepted_zlotyRate_four
  obtain ⟨rate, known, nonneg, isZero_iff, -⟩ :=
    exists_rate_of_setAll (p := ⟨.pln, .eur⟩) accepted (.inr rfl)
  have some_worth : ¬ rate.isZero = true := by
    rw [isZero_iff]
    rintro ⟨-, -, quote, perUnit, held, worth, steep⟩
    obtain rfl : ⟨.ofNat 4, .one⟩ = quote := Option.some.inj held
    have four : (Quote.perUnit ⟨.ofNat 4, .one⟩).toOption = some (.ofNat 4) := by decide +kernel
    rw [worth] at four
    obtain rfl := Option.some.inj four
    exact absurd steep (by decide)
  rw [Decimal.isZero_iff] at some_worth
  exact ⟨rate, known, Int.lt_iff_le_and_ne.2 ⟨nonneg, Ne.symm some_worth⟩⟩

/-- The largest decimal. -/
def mostZloty : Decimal := .ofNat 79228162514264337593543950335

theorem isAccepted_zlotyRate_most : (zlotyRate mostZloty).IsAccepted := by
  refine ⟨zlotyNodes "79228162514264337593543950335", ?_⟩
  rw [← toOption_eq_some_iff]
  decide +kernel

/-- Not every worth is above zero: at the largest number of zloty for a euro, a zloty is worth nothing. -/
theorem rate_of_mostZloty :
    ¬ ∀ rates : List ExchangeRate, (∀ r ∈ rates, r.IsAccepted) → ∀ p : CurrencyPair,
      ((empty.setAll rates).get? p).isSome ∨ ((empty.setAll rates).get? p.swap).isSome →
      ∃ rate, (empty.setAll rates).rate p = .ok rate ∧ .zero < rate := by
  intro positive
  have accepted : ∀ r ∈ [zlotyRate mostZloty], r.IsAccepted := by simpa using isAccepted_zlotyRate_most
  obtain ⟨rate, known, positive⟩ := positive [zlotyRate mostZloty] accepted ⟨.pln, .eur⟩ (.inr rfl)
  have nothing : ((empty.setAll [zlotyRate mostZloty]).rate ⟨.pln, .eur⟩).toOption = some .zero := by
    decide +kernel
  rw [known] at nothing
  obtain rfl := Option.some.inj nothing
  exact absurd positive (by decide)

end Basket

end Daybook
