import Daybook.Proofs.Decimal.Signs
import Daybook.Proofs.Journal.Emitted
import Daybook.Proofs.Journal.Signs

/-!
# The checks of transfers

What each check of a transfer asks for, said without the check: when a fee is proper, when the legs balance, and
which legs are the two ends of a transfer between two accounts. Splitting off a fee that has passed its check
never fails (`Draft.exists_splitFee`).
-/

namespace Daybook

namespace Leg

variable {leg : Leg}

theorem eq_onAccount {a : AccountRef} {m : Money} (h : leg.posting? = some (a, m)) :
    leg = onAccount a m leg.location := by
  obtain ⟨owner, money, location⟩ := leg
  obtain ⟨rfl, rfl⟩ := of_posting? h
  rfl

end Leg

namespace Draft

variable {d : Draft} {source target : Leg} {sources : List Leg} {account : AccountRef} {money : Money}

/-! ### Sides -/

theorem mem_sources_iff {leg : Leg} : leg ∈ d.sources ↔ leg ∈ d.legs ∧ leg.value < .zero := by
  rw [sources, List.mem_filter, decide_eq_true_eq]

theorem mem_targets_iff {leg : Leg} : leg ∈ d.targets ↔ leg ∈ d.legs ∧ .zero ≤ leg.value := by
  rw [targets, List.mem_filter, Bool.not_eq_true', decide_eq_false_iff_not]
  exact and_congr_right fun _ => Int.not_lt

/-! ### The fee -/

/-- The fee, if there is one, is not negative, is in the currency, and is earned by somebody. -/
def HasProperFee (d : Draft) (currency : Currency) : Prop :=
  ∀ fee ∈ d.tags.fee?, .zero ≤ fee.amount ∧ fee.currency = currency ∧ d.tags.intermediary?.isSome = true

instance (d : Draft) (currency : Currency) : Decidable (d.HasProperFee currency) :=
  inferInstanceAs (Decidable (∀ _ ∈ _, _))

theorem checkFee_eq_ok_iff {currency : Currency} : d.checkFee currency = .ok () ↔ d.HasProperFee currency := by
  constructor
  · intro checked fee tagged
    obtain ⟨nonneg, earned, same⟩ := checkFee_ok checked tagged
    exact ⟨Int.not_lt.1 nonneg, same, earned⟩
  · intro proper
    rw [checkFee]
    cases tagged : d.tags.fee? with
    | none => rfl
    | some fee =>
      obtain ⟨nonneg, same, earned⟩ := proper fee tagged
      have earned : ¬ d.tags.intermediary?.isNone = true := by simpa using Option.isSome_iff_ne_none.1 earned
      have nonneg : ¬ fee.amount < .zero := Int.not_lt.2 nonneg
      dsimp only
      rw [if_neg nonneg, if_neg earned, if_neg (not_not_intro same)]

theorem HasProperFee.nonneg_feeAmount {currency : Currency} (proper : d.HasProperFee currency) :
    .zero ≤ d.feeAmount := by
  rw [feeAmount]
  cases tagged : d.tags.fee? with
  | none => exact Int.le_refl 0
  | some fee => exact (proper fee tagged).1

/-- A fee that has passed its check can be taken out of a source: the difference fits. -/
theorem exists_splitFee (posted : source.posting? = some (account, money)) (given : money.amount < .zero)
    (proper : d.HasProperFee money.currency) (sources : List Leg) : ∃ b, d.splitFee source sources = .ok b := by
  have posted : d.posting source = .ok (account, money) := posting_ok.2 posted
  rw [splitFee, posted]
  cases tagged : d.tags.fee? with
  | none => exact ⟨_, rfl⟩
  | some fee =>
    show ∃ b, (if fee.isZero = true then _ else _) = Except.ok b
    split
    · exact ⟨_, rfl⟩
    · obtain ⟨nonneg, -, earned⟩ := proper fee tagged
      -- What is given is negative and the fee is not, so the sum is no larger than either.
      obtain ⟨rest, left⟩ := Decimal.exists_add given nonneg
      obtain ⟨intermediary, earns⟩ := Option.isSome_iff_exists.1 earned
      rw [left, earns]
      exact ⟨_, rfl⟩

/-! ### The balance -/

/-- What has to come to nothing where a transfer is in one currency: the amounts of the legs and the fee. -/
def amounts (d : Draft) : List Decimal := d.legs.map Leg.value ++ [d.feeAmount]

theorem checkBalanced_eq_ok_iff {currency : Currency} (exact : Decimal.HasExactSum d.amounts) :
    d.checkBalanced currency = .ok () ↔ Decimal.unitsOf d.amounts = 0 := by
  obtain ⟨total, sum, units⟩ := exact.exists_sum
  rw [amounts] at sum
  rw [checkBalanced, sum, ← units, ← Decimal.isZero_iff]
  exact require_eq_ok_iff

/-! ### Currencies -/

theorem mem_currencies_iff {currency : Currency} :
    currency ∈ d.currencies ↔ ∃ leg ∈ d.legs, leg.currency? = some currency := by
  simp only [currencies, List.mem_filter, List.any_eq_true, decide_eq_true_eq, Currency.mem_all, true_and]

theorem eq_of_mem_currencies {c c' : Currency} (single : d.currencies.length = 1) (mem : c ∈ d.currencies)
    (mem' : c' ∈ d.currencies) : c = c' := by
  obtain ⟨only, all⟩ := List.length_eq_one_iff.1 single
  rw [all] at mem mem'
  rw [List.mem_singleton.1 mem, List.mem_singleton.1 mem']

/-! ### Transfers -/

theorem transfer_eq (owned : ∀ leg ∈ d.legs, leg.isOwned = true) (several : 2 ≤ d.legs.length) :
    d.transfer = match d.tags.shares? with
      | some shares => d.shareTransfer shares
      | none => d.cashTransfer := by
  have nobody : d.legs.find? (!·.isOwned) = none := List.find?_eq_none.2 fun leg mem => by simp [owned leg mem]
  rw [transfer, nobody]
  exact if_neg (Nat.not_lt.2 several)

/-- A transfer of cash is booked if there is a leg on each side, the fee is proper, and the amounts balance or
follow from the rate. -/
theorem exists_cashTransfer_iff (first : d.sources = source :: sources)
    (posted : source.posting? = some (account, money)) :
    (∃ b, d.cashTransfer = .ok b) ↔
      d.targets ≠ [] ∧ d.HasProperFee money.currency ∧
        if d.currencies.length = 1 then d.checkBalanced money.currency = .ok () else d.checkConversion = .ok () := by
  have given : money.amount < .zero := by
    rw [← Leg.value_of_posting? posted]
    exact (mem_sources_iff.1 (first ▸ List.mem_cons_self)).2
  rw [cashTransfer, first]
  cases d.targets with
  | nil => simp
  | cons target targets =>
    constructor
    · rintro ⟨b, booked⟩
      simp only [bind_eq_ok_iff, Prod.exists, posting_ok] at booked
      obtain ⟨account', money', posted', _, checked, booked⟩ := booked
      obtain ⟨rfl, rfl⟩ : account = account' ∧ money = money' := by simpa using posted.symm.trans posted'
      refine ⟨List.cons_ne_nil _ _, checkFee_eq_ok_iff.1 checked, ?_⟩
      split at booked
      · next single =>
        obtain ⟨_, balanced, -⟩ := bind_eq_ok_iff.1 booked
        rwa [if_pos single]
      · next others =>
        obtain ⟨_, converted, -⟩ := bind_eq_ok_iff.1 booked
        rwa [if_neg others]
    · rintro ⟨-, proper, checked⟩
      obtain ⟨b, booked⟩ := exists_splitFee posted given proper sources
      refine ⟨b, bind_eq_ok_iff.2 ⟨_, posting_ok.2 posted, bind_eq_ok_iff.2 ⟨(), checkFee_eq_ok_iff.2 proper, ?_⟩⟩⟩
      split
      · next single => exact bind_eq_ok_iff.2 ⟨(), (if_pos single).mp checked, booked⟩
      · next others => exact bind_eq_ok_iff.2 ⟨(), (if_neg others).mp checked, booked⟩

/-! ### Two ends -/

/-- The legs of a transfer between two accounts: the money is given on one of them and taken on the other, which
are written in either order. -/
structure Ends (d : Draft) where
  source : AccountRef
  given : Money
  sourceAt : Location
  target : AccountRef
  taken : Money
  targetAt : Location
  legs : d.legs.Perm [.onAccount source given sourceAt, .onAccount target taken targetAt]
  given_neg : given.amount < .zero
  taken_nonneg : .zero ≤ taken.amount

namespace Ends

variable (e : d.Ends)

/-- The leg that gives. -/
def giving : Leg := .onAccount e.source e.given e.sourceAt

/-- The leg that takes. -/
def taking : Leg := .onAccount e.target e.taken e.targetAt

theorem posting?_giving : e.giving.posting? = some (e.source, e.given) := rfl

theorem posting?_taking : e.taking.posting? = some (e.target, e.taken) := rfl

theorem sources_eq : d.sources = [e.giving] := by
  have below : e.giving.value < .zero := e.given_neg
  have above : ¬ e.taking.value < .zero := Int.not_lt.2 e.taken_nonneg
  have perm : d.sources.Perm ([e.giving, e.taking].filter fun leg => decide (leg.value < .zero)) := e.legs.filter _
  simp only [List.filter_cons, below, above, decide_true, decide_false, if_true, Bool.false_eq_true, if_false,
    List.filter_nil] at perm
  exact List.perm_singleton.1 perm

theorem targets_eq : d.targets = [e.taking] := by
  have below : e.giving.value < .zero := e.given_neg
  have above : ¬ e.taking.value < .zero := Int.not_lt.2 e.taken_nonneg
  have perm : d.targets.Perm ([e.giving, e.taking].filter fun leg => !decide (leg.value < .zero)) := e.legs.filter _
  simp only [List.filter_cons, below, above, decide_true, decide_false, Bool.not_true, Bool.not_false, if_true,
    Bool.false_eq_true, if_false, List.filter_nil] at perm
  exact List.perm_singleton.1 perm

theorem mem_legs_iff {leg : Leg} : leg ∈ d.legs ↔ leg = e.giving ∨ leg = e.taking := by
  have legs : d.legs.Perm [e.giving, e.taking] := e.legs
  simp only [legs.mem_iff, List.mem_cons, List.not_mem_nil, or_false]

include e

theorem owned : ∀ leg ∈ d.legs, leg.isOwned = true := by
  intro leg mem
  obtain rfl | rfl := e.mem_legs_iff.1 mem
  · rfl
  · rfl

theorem length : d.legs.length = 2 := e.legs.length_eq

end Ends

/-- Two ends in one currency have no other. -/
theorem Ends.length_currencies_iff (e : d.Ends) :
    d.currencies.length = 1 ↔ e.given.currency = e.taken.currency := by
  constructor
  · intro single
    have giving : e.giving ∈ d.legs := e.mem_legs_iff.2 (.inl rfl)
    have taking : e.taking ∈ d.legs := e.mem_legs_iff.2 (.inr rfl)
    apply eq_of_mem_currencies single
    · exact mem_currencies_iff.2 ⟨e.giving, giving, rfl⟩
    · exact mem_currencies_iff.2 ⟨e.taking, taking, rfl⟩
  · intro same
    have some : d.legs ≠ [] := List.ne_nil_of_mem (e.mem_legs_iff.2 (.inl rfl))
    apply @length_currencies d e.given.currency some
    intro leg mem
    obtain rfl | rfl := e.mem_legs_iff.1 mem
    · rfl
    · show Option.some e.taken.currency = Option.some e.given.currency
      rw [same]

/-- Owned legs of which one is negative and one is not are the two ends of a transfer. -/
theorem exists_ends (complete : ∀ leg ∈ d.legs, leg.Complete) (owned : ∀ leg ∈ d.legs, leg.isOwned = true)
    (gives : d.sources = [source]) (takes : d.targets = [target]) :
    ∃ e : d.Ends, e.giving = source ∧ e.taking = target := by
  obtain ⟨isSource, negative⟩ := value_of_mem_sources (gives ▸ List.mem_singleton_self source)
  obtain ⟨isTarget, nonneg⟩ := value_of_mem_targets (takes ▸ List.mem_singleton_self target)
  obtain ⟨account, given, posted⟩ := (complete source isSource).exists_posting? (owned source isSource)
  obtain ⟨account', taken, posted'⟩ := (complete target isTarget).exists_posting? (owned target isTarget)
  have sides := d.sides_perm
  rw [gives, takes, Leg.eq_onAccount posted, Leg.eq_onAccount posted'] at sides
  rw [Leg.value_of_posting? posted] at negative
  rw [Leg.value_of_posting? posted'] at nonneg
  exact ⟨⟨account, given, source.location, account', taken, target.location, sides.symm, negative, nonneg⟩,
    (Leg.eq_onAccount posted).symm, (Leg.eq_onAccount posted').symm⟩

end Draft

end Daybook
