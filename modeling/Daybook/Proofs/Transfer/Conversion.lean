import Daybook.Proofs.Decimal.Tolerance
import Daybook.Proofs.Replay.Balance
import Daybook.Proofs.Transfer.Acceptance
import Daybook.Proofs.Transfer.Checks

/-!
# Transfers between currencies

A transfer of cash between two currencies is accepted exactly if it is between two accounts, has a proper fee, and
names a rate that makes of what is given, without the fee, about what is taken
(`Journal.TransferIn.isAccepted_iff_conversion`). About is less than half a percent away; where a figure does not
fit, the transfer is refused.
-/

namespace Daybook

namespace Draft

variable {d : Draft}

/-! ### Conversions -/

/-- Two of the legs have amounts in different currencies. -/
def HasTwoCurrencies (d : Draft) : Prop :=
  ∃ leg ∈ d.legs, ∃ leg' ∈ d.legs, leg.currency?.isSome = true ∧ leg'.currency?.isSome = true ∧
    leg.currency? ≠ leg'.currency?

instance (d : Draft) : Decidable d.HasTwoCurrencies :=
  inferInstanceAs (Decidable (∃ _ ∈ d.legs, ∃ _ ∈ d.legs, _ ∧ _ ∧ _))

theorem HasTwoCurrencies.length_ne_one (several : d.HasTwoCurrencies) : d.currencies.length ≠ 1 := by
  intro single
  obtain ⟨leg, mem, leg', mem', some, some', other⟩ := several
  obtain ⟨c, given⟩ := Option.isSome_iff_exists.1 some
  obtain ⟨c', taken⟩ := Option.isSome_iff_exists.1 some'
  apply other
  rw [given, taken, eq_of_mem_currencies single (mem_currencies_iff.2 ⟨leg, mem, given⟩)
    (mem_currencies_iff.2 ⟨leg', mem', taken⟩)]

/-- The two ends are in the two currencies. -/
theorem Ends.currency_ne (e : d.Ends) (several : d.HasTwoCurrencies) : e.given.currency ≠ e.taken.currency :=
  fun same => several.length_ne_one (e.length_currencies_iff.2 same)

/-- A transfer between two accounts with a rate between their currencies, which is the first that is named. It
reads from the currency of the source to that of the target, or the other way round. -/
structure Conversion (d : Draft) extends Ends d where
  rate : ExchangeRate
  isDirect : Bool
  named : d.tags.rate? = some rate
  pair : rate.pair = if isDirect then ⟨given.currency, taken.currency⟩ else ⟨taken.currency, given.currency⟩

/-- What is given, without the fee, as the rate converts it, unless a figure on the way does not fit. -/
def Conversion.converted? (c : d.Conversion) : Option Decimal := do
  let amount ← c.given.amount.abs.sub d.feeAmount
  let perUnit ← c.rate.perUnit?
  if c.isDirect then amount.mul perUnit else amount.div perUnit

/-- There is one conversion only, up to locations. -/
theorem Conversion.converted?_eq (c c' : d.Conversion) (several : d.HasTwoCurrencies) :
    c.converted? = c'.converted? := by
  -- The ends are the only source and the only target of the draft.
  have given : c.given = c'.given := by
    have same := List.singleton_inj.1 (c.sources_eq.symm.trans c'.sources_eq)
    exact Option.some.inj (congrArg Leg.money same)
  have taken : c.taken = c'.taken := by
    have same := List.singleton_inj.1 (c.targets_eq.symm.trans c'.targets_eq)
    exact Option.some.inj (congrArg Leg.money same)
  have rate : c.rate = c'.rate := Option.some.inj (c.named.symm.trans c'.named)
  have direction : c.isDirect = c'.isDirect := by
    have pair := c.pair.symm.trans (rate ▸ c'.pair)
    rw [given, taken] at pair
    have other := c'.currency_ne several
    cases first : c.isDirect <;> cases second : c'.isDirect
    · rfl
    · rw [first, second] at pair
      exact absurd (CurrencyPair.mk.inj pair).1.symm other
    · rw [first, second] at pair
      exact absurd (CurrencyPair.mk.inj pair).1 other
    · rfl
  rw [converted?, converted?, given, rate, direction]

theorem convert_eq_ok_iff {rate : ExchangeRate} {transfer : CurrencyPair} {amount v : Decimal}
    (other : transfer.source ≠ transfer.target) : d.convert rate transfer amount = .ok v ↔
      ∃ isDirect : Bool, rate.pair = (if isDirect then transfer else transfer.swap) ∧
        ∃ perUnit, rate.perUnit? = some perUnit ∧
          (if isDirect then amount.mul perUnit else amount.div perUnit) = some v := by
  -- As the currencies differ, a rate reads one way only, and the order of the two tests does not matter.
  have swapped : transfer.swap ≠ transfer := fun same => other (CurrencyPair.mk.inj same).1.symm
  simp only [convert, bind_eq_ok_iff, orError_eq_ok_iff]
  constructor
  · rintro ⟨perUnit, unit, h⟩
    split at h
    · next direct => exact ⟨true, direct, perUnit, unit, orError_eq_ok_iff.1 h⟩
    · split at h
      · next inverse => exact ⟨false, inverse, perUnit, unit, orError_eq_ok_iff.1 h⟩
      · cases h
  · rintro ⟨isDirect, pair, perUnit, unit, h⟩
    refine ⟨perUnit, unit, ?_⟩
    cases isDirect with
    | true =>
      have pair : rate.pair = transfer := pair
      rw [if_pos pair]
      exact orError_eq_ok_iff.2 h
    | false =>
      have pair : rate.pair = transfer.swap := pair
      rw [if_neg (pair ▸ swapped), if_pos pair]
      exact orError_eq_ok_iff.2 h

theorem checkConversion_eq_ok_iff (complete : ∀ leg ∈ d.legs, leg.Complete)
    (owned : ∀ leg ∈ d.legs, leg.isOwned = true) (several : d.HasTwoCurrencies) :
    d.checkConversion = .ok () ↔
      ∃ (c : d.Conversion) (v : Decimal), c.converted? = some v ∧ withinTolerance v c.taken.amount tolerance = true := by
  constructor
  · intro h
    rw [checkConversion] at h
    split at h
    · next source target gives takes =>
      obtain ⟨e, rfl, rfl⟩ := exists_ends complete owned gives takes
      simp only [bind_eq_ok_iff, Prod.exists, posting_ok, orError_eq_ok_iff, require_eq_ok_iff, e.posting?_giving,
        e.posting?_taking, Option.some.injEq, Prod.mk.injEq] at h
      obtain ⟨_, _, ⟨rfl, rfl⟩, _, _, ⟨rfl, rfl⟩, rate, named, amount, left, v, converted, within⟩ := h
      obtain ⟨isDirect, pair, perUnit, unit, value⟩ := (convert_eq_ok_iff (e.currency_ne several)).1 converted
      refine ⟨⟨e, rate, isDirect, named, pair⟩, v, ?_, within⟩
      rw [Conversion.converted?, left, unit]
      exact value
    · cases h
  · rintro ⟨c, v, converted, within⟩
    simp only [Conversion.converted?, Option.bind_eq_bind, Option.bind_eq_some_iff] at converted
    obtain ⟨amount, left, perUnit, unit, value⟩ := converted
    rw [checkConversion, c.sources_eq, c.targets_eq]
    simp only [bind_eq_ok_iff, Prod.exists, posting_ok, orError_eq_ok_iff, require_eq_ok_iff, c.posting?_giving,
      c.posting?_taking, Option.some.injEq, Prod.mk.injEq]
    refine ⟨_, _, ⟨rfl, rfl⟩, _, _, ⟨rfl, rfl⟩, c.rate, c.named, amount, left, v, ?_, within⟩
    exact (convert_eq_ok_iff (c.currency_ne several)).2 ⟨c.isDirect, c.pair, perUnit, unit, value⟩

/-- A transfer of cash between two currencies is booked if it is a conversion with a proper fee, and what is taken
is about what the rate makes of what is given. -/
theorem exists_transfer_iff_conversion (complete : ∀ leg ∈ d.legs, leg.Complete) (unshared : d.tags.shares? = none)
    (several : d.HasTwoCurrencies) : (∃ b, d.transfer = .ok b) ↔
      ∃ (c : d.Conversion) (v : Decimal), c.converted? = some v ∧ d.HasProperFee c.given.currency ∧
        withinTolerance v c.taken.amount tolerance = true := by
  constructor
  · rintro ⟨b, booked⟩
    obtain ⟨owned, -, ⟨shares, tagged, -⟩ | ⟨-, booked⟩⟩ := transfer_ok booked
    · cases unshared.symm.trans tagged
    obtain ⟨source, sources, account, money, first, -, posted, -⟩ := cashTransfer_ok booked
    obtain ⟨-, proper, converted⟩ := (exists_cashTransfer_iff first posted).1 ⟨b, booked⟩
    rw [if_neg several.length_ne_one, checkConversion_eq_ok_iff complete owned several] at converted
    obtain ⟨c, v, converted, within⟩ := converted
    obtain ⟨rfl, -⟩ := List.cons.inj (first.symm.trans c.sources_eq)
    obtain ⟨-, rfl⟩ := Prod.mk.inj (Option.some.inj (posted.symm.trans c.posting?_giving))
    exact ⟨c, v, converted, proper, within⟩
  · rintro ⟨c, v, converted, proper, within⟩
    rw [transfer_eq c.owned (by rw [c.length]), unshared]
    refine (exists_cashTransfer_iff c.sources_eq c.posting?_giving).2 ⟨?_, proper, ?_⟩
    · rw [c.targets_eq]
      exact List.cons_ne_nil _ _
    · rw [if_neg several.length_ne_one, checkConversion_eq_ok_iff complete c.owned several]
      exact ⟨c, v, converted, within⟩

/-! ### The tolerance -/

/-- One and the tolerance of conversions. -/
def upperFactor : Decimal := (Decimal.fit? false 1005 3).getD .zero

/-- One less the tolerance of conversions. -/
def lowerFactor : Decimal := (Decimal.fit? false 995 3).getD .zero

/-- All figures on the way fit, and the bounds around what is converted are not rounded. -/
def Conversion.IsExact (c : d.Conversion) : Prop :=
  ∃ v, c.converted? = some v ∧ v.MulsExactly upperFactor ∧ v.MulsExactly lowerFactor

/-- A figure on the way, or a bound around what is converted, does not fit. -/
def Conversion.Overflows (c : d.Conversion) : Prop :=
  c.converted? = none ∨ ∃ v, c.converted? = some v ∧ (v.mul upperFactor = none ∨ v.mul lowerFactor = none)

theorem add_tolerance : Decimal.one.add tolerance = some upperFactor := by decide +kernel

theorem sub_tolerance : Decimal.one.sub tolerance = some lowerFactor := by decide +kernel

/-- What is taken differs from what the rate makes of what is given by less than half a percent of that. -/
theorem withinTolerance_tolerance_iff {a b : Decimal} (more : a.MulsExactly upperFactor)
    (less : a.MulsExactly lowerFactor) :
    withinTolerance a b tolerance = true ↔ 1000 * (b.units - a.units).natAbs < 5 * a.units.natAbs := by
  have one : Decimal.one.units.natAbs = 1000 * 10 ^ 25 := by decide +kernel
  have part : tolerance.units.natAbs = 5 * 10 ^ 25 := by decide +kernel
  rw [withinTolerance_iff add_tolerance sub_tolerance (by decide +kernel) (by decide +kernel) more less, one, part]
  omega

end Draft

/-! ### Transfers of a ledger -/

namespace Journal.TransferIn

variable {lines : List Line}

/-- **A transfer of cash between currencies is accepted exactly if the rate explains it.** Where no figure on the way
is too large, and the bounds are not rounded: its legs are two ends on tracked accounts, the first rate is between
their currencies, the fee is proper, and what is taken is less than half a percent away from what the rate makes of
what is given without the fee. Where a figure is too large, it is refused. -/
theorem isAccepted_iff_conversion (t : TransferIn lines) (unshared : t.draft.tags.shares? = none)
    (several : t.draft.HasTwoCurrencies) :
    ((∀ c : t.draft.Conversion, c.IsExact) →
      (t.IsAccepted ↔ ∃ (c : t.draft.Conversion) (v : Decimal), c.converted? = some v ∧
        t.draft.HasProperFee c.given.currency ∧
        1000 * (c.taken.amount.units - v.units).natAbs < 5 * v.units.natAbs)) ∧
      ((∃ c : t.draft.Conversion, c.Overflows) → ¬ t.IsAccepted) := by
  rw [t.isAccepted_iff, Draft.exists_transfer_iff_conversion t.complete unshared several]
  constructor
  · intro exact
    apply exists_congr
    intro c
    apply exists_congr
    intro v
    apply and_congr_right
    intro converted
    apply and_congr_right
    intro _
    obtain ⟨v', converted', more, less⟩ := exact c
    obtain rfl := Option.some.inj (converted.symm.trans converted')
    exact Draft.withinTolerance_tolerance_iff more less
  · rintro ⟨c, overflow⟩ ⟨c', v, converted, -, within⟩
    -- The conversion that does not fit is the one that is accepted.
    have converted := (c.converted?_eq c' several).trans converted
    rcases overflow with none | ⟨v', converted', none⟩
    · cases none.symm.trans converted
    · obtain rfl := Option.some.inj (converted.symm.trans converted')
      rw [withinTolerance_of_overflow Draft.add_tolerance Draft.sub_tolerance none] at within
      cases within

def zlotyLine (n : Nat) : Location := ⟨⟨"zloty", n⟩, []⟩

/-- A ledger that sells euros for zlotys, and pays one euro for that. -/
def zlotyLines (given taken : String) : List Line :=
  ["tx 2021-01-01", "asset/giro " ++ given ++ " EUR", "asset/konto " ++ taken ++ " PLN", "with",
    "rate: EUR/PLN 4.33", "fee: 1 EUR", "intermediary: teller", "end"].zipIdx.map fun (text, i) =>
      ⟨text, zlotyLine (i + 1)⟩

def zlotyQuote : ExchangeRate := ⟨⟨.eur, .pln⟩, (Decimal.fit? false 433 2).getD .zero, .one⟩

def zlotySale (given taken : Nat) : Draft where
  timestamp := day2021 1 1
  legs :=
    [.onAccount ⟨.asset, "giro"⟩ ⟨(usd given).amount.neg, .eur⟩ (zlotyLine 2),
      .onAccount ⟨.asset, "konto"⟩ ⟨(usd taken).amount, .pln⟩ (zlotyLine 3)]
  tags := [.rate zlotyQuote, .fee ⟨.one, .eur⟩, .intermediary "teller"]
  location := zlotyLine 1

def zlotyConversion {given taken : Nat} (gives : (usd given).amount.neg < .zero) (takes : .zero ≤ (usd taken).amount) :
    ((zlotySale given taken).taggedBy []).Conversion where
  source := ⟨.asset, "giro"⟩
  given := ⟨(usd given).amount.neg, .eur⟩
  sourceAt := zlotyLine 2
  target := ⟨.asset, "konto"⟩
  taken := ⟨(usd taken).amount, .pln⟩
  targetAt := zlotyLine 3
  legs := .refl _
  given_neg := gives
  taken_nonneg := takes
  rate := zlotyQuote
  isDirect := true
  named := rfl
  pair := rfl

/-- A hundred euros are four hundred and thirty-three zlotys, and so they are sold; as many euros as can be written
are not. -/
theorem isAccepted_zloty :
    (∃ t : TransferIn (zlotyLines "-101" "433"), t.IsAccepted) ∧
      ∃ t : TransferIn (zlotyLines "-79228162514264337593543950335" "1"), ¬ t.IsAccepted := by
  have found : transferAt? (zlotyLines "-101" "433") 0 = some ([], zlotySale 101 433) := by decide +kernel
  have found' : transferAt? (zlotyLines "-79228162514264337593543950335" "1") 0
      = some ([], zlotySale 79228162514264337593543950335 1) := by decide +kernel
  obtain ⟨t, patterns, own⟩ := exists_of_transferAt? found
  obtain ⟨t', patterns', own'⟩ := exists_of_transferAt? found'
  have draft : t.draft = (zlotySale 101 433).taggedBy [] := by rw [TransferIn.draft, patterns, own]
  have draft' : t'.draft = (zlotySale 79228162514264337593543950335 1).taggedBy [] := by
    rw [TransferIn.draft, patterns', own']
  let sale := @zlotyConversion 101 433 (by decide +kernel) (by decide +kernel)
  let excess := @zlotyConversion 79228162514264337593543950335 1 (by decide +kernel) (by decide +kernel)
  have several : ((zlotySale 101 433).taggedBy []).HasTwoCurrencies := by decide +kernel
  have accepted := (isAccepted_iff_conversion t (by rw [draft]; rfl) (draft ▸ several)).1
  have refused := (isAccepted_iff_conversion t' (by rw [draft']; rfl) (by rw [draft']; decide +kernel)).2
  rw [draft] at accepted
  rw [draft'] at refused
  let worth : Decimal := (Decimal.fit? false 43300 2).getD .zero
  have converted : sale.converted? = some worth := by decide +kernel
  have bounds : worth.MulsExactly Draft.upperFactor ∧ worth.MulsExactly Draft.lowerFactor := by decide +kernel
  refine ⟨⟨t, (accepted fun c => ?_).2 ⟨sale, worth, converted, by decide +kernel, by decide +kernel⟩⟩, t',
    refused ⟨excess, .inl (by decide +kernel)⟩⟩
  exact ⟨worth, (c.converted?_eq sale several).trans converted, bounds⟩

end Journal.TransferIn

end Daybook
