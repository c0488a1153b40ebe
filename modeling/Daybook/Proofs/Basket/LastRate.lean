import Daybook.Basket

/-!
# The last rate between two currencies

Setting a rate takes the place of whatever was set between the same two currencies before, in either
direction. So what a basket knows of two different currencies is the last rate that was set between them
(`get?_setAll`), and it answers as a basket would in which nothing else was ever set
(`last_rate_of_setAll`).
-/

namespace Daybook

namespace ExchangeRate

/-- The rate is one between the two currencies of a pair, in either direction. -/
def IsBetween (p : CurrencyPair) (r : ExchangeRate) : Prop := r.pair = p ∨ r.pair = p.swap

instance (p : CurrencyPair) (r : ExchangeRate) : Decidable (r.IsBetween p) :=
  inferInstanceAs (Decidable (r.pair = p ∨ r.pair = p.swap))

theorem isBetween_swap {p : CurrencyPair} {r : ExchangeRate} : r.IsBetween p.swap ↔ r.IsBetween p :=
  Or.comm

/-- The rates between two currencies, in the order in which they are set. -/
def between (p : CurrencyPair) (rates : List ExchangeRate) : List ExchangeRate :=
  rates.filter fun r => decide (r.IsBetween p)

theorem between_swap (p : CurrencyPair) (rates : List ExchangeRate) :
    between p.swap rates = between p rates := by
  simp only [between, isBetween_swap]

/-- The last rate between two currencies. -/
def last? (p : CurrencyPair) (rates : List ExchangeRate) : Option ExchangeRate := (between p rates).getLast?

theorem last?_swap (p : CurrencyPair) (rates : List ExchangeRate) : last? p.swap rates = last? p rates := by
  rw [last?, between_swap, last?]

theorem last?_cons (p : CurrencyPair) (r : ExchangeRate) (rest : List ExchangeRate) :
    last? p (r :: rest) = (last? p rest).or (if r.IsBetween p then some r else none) := by
  rw [last?, last?, between, List.filter_cons]
  by_cases here : r.IsBetween p
  · rw [if_pos (decide_eq_true here), if_pos here, List.getLast?_cons]
    show some ((between p rest).getLast?.getD r) = (between p rest).getLast?.or (some r)
    cases (between p rest).getLast? <;> rfl
  · rw [if_neg (by simpa using here), if_neg here, Option.or_none]
    rfl

theorem isBetween_of_last? {p : CurrencyPair} {rates : List ExchangeRate} {r : ExchangeRate}
    (h : last? p rates = some r) : r ∈ rates ∧ r.IsBetween p := by
  obtain ⟨mem, here⟩ := List.mem_filter.1 (List.mem_of_getLast? h)
  exact ⟨mem, of_decide_eq_true here⟩

theorem last?_eq_none_iff {p : CurrencyPair} {rates : List ExchangeRate} :
    last? p rates = none ↔ ∀ r ∈ rates, ¬ r.IsBetween p := by
  rw [last?, List.getLast?_eq_none_iff, between, List.filter_eq_nil_iff]
  simp only [decide_eq_true_eq]

end ExchangeRate

namespace Basket

open ExchangeRate (between last?)

/-! ### What is in the basket -/

/-- **Under a pair is the last rate between its two currencies**, if that is quoted in this direction. -/
theorem get?_setAll (b : Basket) (rates : List ExchangeRate) (p : CurrencyPair) :
    (b.setAll rates).get? p =
      match last? p rates with
      | some r => if r.pair = p then some ⟨r.rate, r.units⟩ else none
      | none => b.get? p := by
  induction rates generalizing b with
  | nil => rfl
  | cons r rest ih =>
    show ((b.set r).setAll rest).get? p = _
    rw [ih, ExchangeRate.last?_cons]
    cases last? p rest with
    | some later => rfl
    | none =>
      have turned : r.pair.swap = p ↔ r.pair = p.swap :=
        ⟨fun same => congrArg CurrencyPair.swap same, fun same => congrArg CurrencyPair.swap same⟩
      simp only [get?_set, Option.none_or, ExchangeRate.IsBetween, turned]
      by_cases direct : r.pair = p
      · simp [direct]
      · by_cases reverse : r.pair = p.swap <;> simp [direct, reverse]

/-! ### What the basket says -/

/-- Two baskets say the same of a pair: what is under it, what a unit is worth, and what an amount is. -/
structure AgreeOn (p : CurrencyPair) (b b' : Basket) : Prop where
  get : b.get? p = b'.get? p
  rate : b.rate p = b'.rate p
  convert : ∀ amount, b.convert ⟨amount, p.source⟩ p.target = b'.convert ⟨amount, p.source⟩ p.target

/-- What a basket says of a pair is known from what is under it and under the pair read the other way. -/
theorem AgreeOn.of_get? {p : CurrencyPair} {b b' : Basket} (direct : b.get? p = b'.get? p)
    (reverse : b.get? p.swap = b'.get? p.swap) : AgreeOn p b b' := by
  have rate : b.rate p = b'.rate p := by rw [Basket.rate, Basket.rate, direct, reverse]
  refine ⟨direct, rate, fun amount => ?_⟩
  have rate : b.rate ⟨p.source, p.target⟩ = b'.rate ⟨p.source, p.target⟩ := rate
  rw [Basket.convert, Basket.convert, rate]

/-- The last rate between two currencies is all that a basket says of them. -/
theorem AgreeOn.of_last? {p : CurrencyPair} {rates rates' : List ExchangeRate}
    (same : last? p rates = last? p rates') : AgreeOn p (empty.setAll rates) (empty.setAll rates') := by
  refine .of_get? ?_ ?_
  · rw [get?_setAll, get?_setAll, same]
  · rw [get?_setAll, get?_setAll, ExchangeRate.last?_swap, ExchangeRate.last?_swap, same]

theorem last?_toList (p : CurrencyPair) (rates : List ExchangeRate) :
    last? p (last? p rates).toList = last? p rates := by
  cases last : last? p rates with
  | none => rfl
  | some r =>
    have here := (ExchangeRate.isBetween_of_last? last).2
    rw [Option.toList_some, ExchangeRate.last?_cons, if_pos here]
    rfl

theorem isSome_get?_setAll {rates : List ExchangeRate} {p : CurrencyPair} :
    ((empty.setAll rates).get? p).isSome ↔ ∃ r, last? p rates = some r ∧ r.pair = p := by
  rw [get?_setAll]
  cases last? p rates with
  | none => simp
  | some r => by_cases direct : r.pair = p <;> simp [direct]

theorem swap_ne {p : CurrencyPair} (distinct : p.source ≠ p.target) : p.swap ≠ p := fun same =>
  distinct (congrArg CurrencyPair.target same)

/-- **The last rate between two currencies wins.** Whatever rates are set one after the other: of two
different currencies the basket never holds a rate in both directions; it holds one exactly if some of the
rates was between them, and then it is the last such rate, with its direction, rate and units. What the
basket says of them it would say if that rate alone had been set; other rates may be left out, put in or
set in another order. A currency is worth one of its own, whatever was set. -/
theorem last_rate_of_setAll (rates : List ExchangeRate) {p : CurrencyPair} (distinct : p.source ≠ p.target) :
    ¬ (((empty.setAll rates).get? p).isSome ∧ ((empty.setAll rates).get? p.swap).isSome) ∧
    ((((empty.setAll rates).get? p).isSome ∨ ((empty.setAll rates).get? p.swap).isSome) ↔
      ∃ r ∈ rates, r.IsBetween p) ∧
    (∀ r, last? p rates = some r → (empty.setAll rates).get? r.pair = some ⟨r.rate, r.units⟩) ∧
    (∀ q, q = p ∨ q = p.swap →
      AgreeOn q (empty.setAll rates) (empty.setAll (last? p rates).toList) ∧
      ∀ rates', between p rates' = between p rates →
        AgreeOn q (empty.setAll rates) (empty.setAll rates')) ∧
    ∀ c, (empty.setAll rates).rate ⟨c, c⟩ = .ok .one := by
  refine ⟨?_, ?_, fun r last => ?_, fun q direction => ?_, fun c => if_pos rfl⟩
  · rw [isSome_get?_setAll, isSome_get?_setAll, ExchangeRate.last?_swap]
    rintro ⟨⟨r, last, direct⟩, r', last', reverse⟩
    obtain rfl := Option.some.inj (last.symm.trans last')
    exact swap_ne distinct (reverse.symm.trans direct)
  · rw [isSome_get?_setAll, isSome_get?_setAll, ExchangeRate.last?_swap]
    constructor
    · rintro (⟨r, last, _⟩ | ⟨r, last, _⟩) <;> exact ⟨r, ExchangeRate.isBetween_of_last? last⟩
    · rintro ⟨r, mem, here⟩
      cases last : last? p rates with
      | none => exact absurd here (ExchangeRate.last?_eq_none_iff.1 last r mem)
      | some later =>
        rcases (ExchangeRate.isBetween_of_last? last).2 with direct | reverse
        · exact .inl ⟨later, rfl, direct⟩
        · exact .inr ⟨later, rfl, reverse⟩
  · -- The last rate for `p` is also the last one for the pair that it is quoted in.
    have own : last? r.pair rates = some r := by
      rcases (ExchangeRate.isBetween_of_last? last).2 with direct | reverse
      · rwa [direct]
      · rwa [reverse, ExchangeRate.last?_swap]
    rw [get?_setAll, own]
    exact if_pos rfl
  · have swapped (rates : List ExchangeRate) : last? q rates = last? p rates := by
      rcases direction with rfl | rfl
      · rfl
      · exact ExchangeRate.last?_swap p rates
    refine ⟨.of_last? ?_, fun rates' same => .of_last? ?_⟩
    · rw [swapped, swapped, last?_toList]
    · rw [swapped, swapped, last?, last?, same]

/-- Four zloty for a euro, then two francs for a dollar, then a fifth of a euro for a zloty. -/
def threeRates : List ExchangeRate :=
  [⟨⟨.eur, .pln⟩, .ofNat 4, .one⟩, ⟨⟨.usd, .chf⟩, .ofNat 2, .one⟩,
    ⟨⟨.pln, .eur⟩, ⟨false, 20, 2, by decide, by decide⟩, .one⟩]

/-- The last of three rates turns the first one around, and the one in between does not matter. -/
theorem last_rate_of_threeRates :
    (empty.setAll threeRates).get? ⟨.pln, .eur⟩ = some ⟨⟨false, 20, 2, by decide, by decide⟩, .one⟩ ∧
      (empty.setAll threeRates).get? ⟨.eur, .pln⟩ = none ∧
      (empty.setAll threeRates).rate ⟨.eur, .pln⟩ = .ok (.ofNat 5) := by
  obtain ⟨single, _, last, alone, _⟩ := last_rate_of_setAll threeRates (p := ⟨.eur, .pln⟩) (by decide)
  have held := last _ rfl
  refine ⟨held, Option.not_isSome_iff_eq_none.1 fun direct => single ⟨direct, ?_⟩, ?_⟩
  · exact Option.isSome_of_eq_some held
  · rw [(alone ⟨.eur, .pln⟩ (.inl rfl)).1.rate]
    rfl

end Basket

end Daybook
