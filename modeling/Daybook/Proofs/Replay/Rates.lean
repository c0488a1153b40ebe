import Daybook.Proofs.Account.Revaluation
import Daybook.Proofs.Basket.UnitRate
import Daybook.Proofs.Decimal.Signs
import Daybook.Proofs.Journal.Booked
import Daybook.Proofs.Replay.Cutoff

/-!
# The rates of a ledger

What a ledger has as rates was all written in some rate set of its items (`exists_setAll_of_compute`), and
what is written is accepted only if a unit is worth something. So in the ledger of a journal no rate is
below zero in either direction, and money that is not below zero is converted to money that is not
(`nonneg_convert_of_parse`).
-/

namespace Daybook

/-! ### Rates that are written -/

/-- Every statement that says something was read from a node. -/
theorem exists_of_mem_written {lines : List Line} {w : Written} (h : w ∈ Journal.written lines) :
    ∃ patterns n, Written.ofNode? lines.toArray patterns n = some w := by
  have general : ∀ nodes patterns, w ∈ Written.ofNodes lines.toArray patterns nodes →
      ∃ patterns n, Written.ofNode? lines.toArray patterns n = some w := by
    intro nodes
    induction nodes with
    | nil =>
      intro patterns mem
      cases mem
    | cons n rest ih =>
      intro patterns mem
      rw [Written.ofNodes] at mem
      rcases List.mem_append.1 mem with here | later
      · exact ⟨patterns, n, Option.mem_toList.1 here⟩
      · exact ih _ later
  unfold Journal.written at h
  split at h
  · exact general _ _ h
  · cases h

theorem isAccepted_of_readRates {lines : Array Line} {n : Grammar.Node} {set : RateSet}
    (h : Statement.readRates lines n = .ok set) : ∀ r ∈ set.rates, r.IsAccepted := by
  rw [Statement.readRates] at h
  split at h
  · simp only [bind_eq_ok_iff, mapM_mapError_eq_ok_iff, Except.ok.injEq] at h
    obtain ⟨_, _, rates, read, rfl⟩ := h
    intro r mem
    obtain ⟨part, _, read⟩ := exists_of_mem_mapM read mem
    exact ⟨part.children, read⟩
  · cases h

/-- Only a statement of rates says rates. -/
theorem isAccepted_of_ofNode? {lines : Array Line} {patterns : List Pattern} {n : Grammar.Node} {set : RateSet}
    (h : Written.ofNode? lines patterns n = some (.item (.rates set))) : ∀ r ∈ set.rates, r.IsAccepted := by
  rw [Written.ofNode?] at h
  split at h
  case h_4 =>
    obtain ⟨set', read, same⟩ := Option.map_eq_some_iff.1 h
    cases same
    exact isAccepted_of_readRates (toOption_eq_some_iff.1 read)
  case h_10 => simp [Option.bind_eq_some_iff] at h
  case h_11 => cases h
  all_goals
    obtain ⟨_, _, same⟩ := Option.map_eq_some_iff.1 h
    cases same

/-- A rate set of a journal is a statement, and not what something else is booked as. -/
theorem eq_item_of_rates_mem {w : Written} {block : List Item} {set : RateSet} (h : w.items = .ok block)
    (mem : .rates set ∈ block) : w = .item (.rates set) := by
  cases w with
  | item i =>
    cases h
    rw [List.mem_singleton.1 mem]
  | expense d | revenue d | transfer d | dividend d =>
    obtain ⟨booked, _, rfl⟩ := map_eq_ok_iff.1 h
    obtain ⟨t, _, same⟩ := List.mem_map.1 mem
    cases same

theorem isAccepted_of_parse {lines : List Line} {j : Journal} (h : Journal.parse lines = .ok j) {set : RateSet}
    (mem : .rates set ∈ j.items) : ∀ r ∈ set.rates, r.IsAccepted := by
  obtain ⟨w, written, block, booked, mem, _⟩ := Written.exists_of_mem_allItems (allItems_written h) mem
  obtain rfl := eq_item_of_rates_mem booked mem
  obtain ⟨patterns, n, read⟩ := exists_of_mem_written written
  exact isAccepted_of_ofNode? read

/-! ### Rates in force -/

theorem foldl_ratesAfter_eq_setAll (o : Options) (items : List Item) (before : List ExchangeRate) :
    ∃ rates, (∀ r ∈ rates, ∃ set, .rates set ∈ items ∧ r ∈ set.rates) ∧
      items.foldl (Item.ratesAfter o) (Basket.empty.setAll before) = Basket.empty.setAll (before ++ rates) := by
  induction items generalizing before with
  | nil =>
    refine ⟨[], ?_, by rw [List.append_nil]; rfl⟩
    intro r mem
    cases mem
  | cons i rest ih =>
    -- An item sets the rates of a set, or none.
    have first : ∃ now : List ExchangeRate, (∀ r ∈ now, ∃ set, .rates set ∈ i :: rest ∧ r ∈ set.rates) ∧
        i.ratesAfter o (Basket.empty.setAll before) = Basket.empty.setAll (before ++ now) := by
      have none : ∃ now : List ExchangeRate, (∀ r ∈ now, ∃ set, .rates set ∈ i :: rest ∧ r ∈ set.rates) ∧
          Basket.empty.setAll before = Basket.empty.setAll (before ++ now) :=
        ⟨[], fun r mem => (by cases mem), by rw [List.append_nil]⟩
      cases i with
      | rates set =>
        rw [Item.ratesAfter]
        split
        · exact none
        · refine ⟨set.rates, fun r mem => ⟨set, List.mem_cons_self, mem⟩, ?_⟩
          rw [Basket.setAll, Basket.setAll, Basket.setAll, List.foldl_append]
      | _ => exact none
    obtain ⟨now, fromNow, set⟩ := first
    obtain ⟨later, fromLater, run⟩ := ih (before ++ now)
    refine ⟨now ++ later, ?_, ?_⟩
    · intro r mem
      rcases List.mem_append.1 mem with mem | mem
      · exact fromNow r mem
      · obtain ⟨set, inRest, mem⟩ := fromLater r mem
        exact ⟨set, List.mem_cons_of_mem i inRest, mem⟩
    · rw [List.foldl_cons, set, run, List.append_assoc]

/-- **The rates of a ledger were written in its items**, and were set one after the other. -/
theorem exists_setAll_of_compute {o : Options} {items : List Item} {l : Ledger}
    (h : (Ledger.compute o items).result = .ok l) :
    ∃ rates, (∀ r ∈ rates, ∃ set, .rates set ∈ items ∧ r ∈ set.rates) ∧
      l.basket = Basket.empty.setAll rates := by
  obtain ⟨registry, books, _, played, _, basket, _⟩ := Ledger.exists_of_compute h
  obtain ⟨rates, written, set⟩ := foldl_ratesAfter_eq_setAll o (chronological items) []
  refine ⟨rates, ?_, ?_⟩
  · intro r mem
    obtain ⟨set, inItems, mem⟩ := written r mem
    exact ⟨set, mem_chronological.1 inItems, mem⟩
  · rw [basket, (Books.sameFrame_of_foldTelling played).basket]
    exact set

/-! ### Money that is not below zero -/

namespace Basket

variable {rates : List ExchangeRate} {p : CurrencyPair} {rate : Decimal}

/-- Among accepted rates, no rate is below zero in either direction. -/
theorem nonneg_rate (accepted : ∀ r ∈ rates, r.IsAccepted) (h : (empty.setAll rates).rate p = .ok rate) :
    .zero ≤ rate := by
  rw [Basket.rate] at h
  split at h
  · cases h
    exact Decimal.nonneg_of_negative rfl
  · split at h
    · next quote held =>
      obtain ⟨perUnit, worth, positive⟩ := exists_perUnit_of_get? accepted held
      rw [worth] at h
      cases h
      exact Int.le_of_lt positive
    · next quote _ held =>
      obtain ⟨perUnit, worth, positive⟩ := exists_perUnit_of_get? accepted held
      obtain ⟨inverse, divided, nonneg, _⟩ := exists_inverse positive
      rw [worth] at h
      obtain ⟨_, same, h⟩ := bind_eq_ok_iff.1 h
      cases same
      rw [divided] at h
      cases h
      exact nonneg
    · cases h

theorem nonneg_convert {money converted : Money} {target : Currency} (accepted : ∀ r ∈ rates, r.IsAccepted)
    (nonneg : .zero ≤ money.amount) (h : (empty.setAll rates).convert money target = .ok converted) :
    .zero ≤ converted.amount := by
  obtain ⟨rate, known, multiplied⟩ := exists_rate_of_convert h
  exact Decimal.nonneg_mul nonneg (nonneg_rate accepted known) multiplied

end Basket

/-- **Converting keeps money from below zero**, in the ledger of a journal. -/
theorem nonneg_convert_of_parse {lines : List Line} {j : Journal} {o : Options} {l : Ledger}
    (read : Journal.parse lines = .ok j) (computed : (Ledger.compute o j.items).result = .ok l)
    {money converted : Money} {target : Currency} (nonneg : .zero ≤ money.amount)
    (h : l.convert money target = .ok converted) : .zero ≤ converted.amount := by
  obtain ⟨rates, written, basket⟩ := exists_setAll_of_compute computed
  have accepted : ∀ r ∈ rates, r.IsAccepted := by
    intro r mem
    obtain ⟨set, inItems, mem⟩ := written r mem
    exact isAccepted_of_parse read inItems r mem
  rw [Ledger.convert, basket] at h
  exact Basket.nonneg_convert accepted nonneg h

end Daybook
