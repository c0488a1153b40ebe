import Daybook.Proofs.Replay.Balance
import Daybook.Proofs.Transfer.Acceptance
import Daybook.Proofs.Transfer.Checks
import Mathlib.Data.List.Permutation

/-!
# Transfers in one currency

A transfer of cash in one currency is accepted exactly if its legs and the fee balance (`Draft.Balances`), as long
as no partial sum is rounded (`Journal.TransferIn.isAccepted_iff_balances`). The order of its legs does not matter.
-/

namespace Daybook

/-! ### Legs in another order -/

/-- Who is at the end of a leg, and with what amount. -/
def Leg.content (leg : Leg) : Owner × Option Money := (leg.owner, leg.money)

theorem Leg.value_of_content {leg leg' : Leg} (same : leg.content = leg'.content) : leg.value = leg'.value :=
  congrArg (fun content => (content.2.map Money.amount).getD .zero) same

theorem Leg.currency?_of_content {leg leg' : Leg} (same : leg.content = leg'.content) :
    leg.currency? = leg'.currency? :=
  congrArg (fun content => content.2.map Money.currency) same

theorem Leg.isOwned_of_content {leg leg' : Leg} (same : leg.content = leg'.content) : leg.isOwned = leg'.isOwned := by
  have owner : leg.owner = leg'.owner := congrArg Prod.fst same
  rw [isOwned, isOwned, account?, account?, owner]

/-- The order of owners does not matter to patterns. -/
theorem Pattern.tagsFor_perm {patterns : List Pattern} {keyword : Keyword} {owners owners' : List Owner}
    (same : owners.Perm owners') : tagsFor patterns keyword owners = tagsFor patterns keyword owners' := by
  have isFor (p : Pattern) : p.isFor keyword owners = p.isFor keyword owners' := by
    rw [Pattern.isFor, Pattern.isFor, same.any_eq]
  rw [tagsFor, tagsFor, List.filter_congr fun p _ => isFor p]

namespace Draft

variable {d d' : Draft} {currency : Currency}

/-- The legs of one draft are those of another, maybe in another order and at other locations. -/
def SameLegs (d d' : Draft) : Prop := (d.legs.map Leg.content).Perm (d'.legs.map Leg.content)

/-- What is told by who is at the end of a leg, and with what amount, is the same of the legs. -/
theorem SameLegs.map {α : Type} {f : Leg → α} (same : d.SameLegs d') (g : Owner × Option Money → α)
    (told : ∀ leg, f leg = g leg.content) : (d.legs.map f).Perm (d'.legs.map f) := by
  have all (legs : List Leg) : legs.map f = (legs.map Leg.content).map g := by
    rw [List.map_map]
    exact List.map_congr_left fun leg _ => told leg
  rw [all, all]
  exact List.Perm.map g same

theorem SameLegs.owners (same : d.SameLegs d') : (d.legs.map Leg.owner).Perm (d'.legs.map Leg.owner) :=
  same.map Prod.fst fun _ => rfl

theorem SameLegs.values (same : d.SameLegs d') : (d.legs.map Leg.value).Perm (d'.legs.map Leg.value) :=
  same.map (fun content => (content.2.map Money.amount).getD .zero) fun _ => rfl

/-- Each leg of one draft is there in the other. -/
theorem SameLegs.exists_leg (same : d.SameLegs d') {leg : Leg} (mem : leg ∈ d.legs) :
    ∃ leg' ∈ d'.legs, leg'.content = leg.content :=
  List.mem_map.1 (same.mem_iff.1 (List.mem_map_of_mem mem))

theorem SameLegs.symm (same : d.SameLegs d') : d'.SameLegs d := List.Perm.symm same

/-! ### Balanced drafts -/

/-- All amounts of the legs are in the currency. -/
def IsKeptIn (d : Draft) (currency : Currency) : Prop := ∀ leg ∈ d.legs, ∀ c ∈ leg.currency?, c = currency

/-- Two or more owned legs, of which one gives and one does not, sum to zero with a proper fee. -/
structure Balances (d : Draft) (currency : Currency) : Prop where
  owned : ∀ leg ∈ d.legs, leg.isOwned = true
  several : 2 ≤ d.legs.length
  gives : ∃ leg ∈ d.legs, leg.value < .zero
  takes : ∃ leg ∈ d.legs, .zero ≤ leg.value
  fee : d.HasProperFee currency
  sum : Decimal.unitsOf (d.legs.map Leg.value) + d.feeAmount.units = 0

instance (d : Draft) (currency : Currency) : Decidable (d.IsKeptIn currency) :=
  inferInstanceAs (Decidable (∀ _ ∈ _, ∀ _ ∈ _, _))

instance (d : Draft) (currency : Currency) : Decidable (d.Balances currency) :=
  decidable_of_iff
    ((∀ leg ∈ d.legs, leg.isOwned = true) ∧ 2 ≤ d.legs.length ∧ (∃ leg ∈ d.legs, leg.value < .zero) ∧
      (∃ leg ∈ d.legs, .zero ≤ leg.value) ∧ d.HasProperFee currency ∧
      Decimal.unitsOf (d.legs.map Leg.value) + d.feeAmount.units = 0)
    ⟨fun h => ⟨h.1, h.2.1, h.2.2.1, h.2.2.2.1, h.2.2.2.2.1, h.2.2.2.2.2⟩,
      fun h => ⟨h.owned, h.several, h.gives, h.takes, h.fee, h.sum⟩⟩

theorem unitsOf_amounts (d : Draft) :
    Decimal.unitsOf d.amounts = Decimal.unitsOf (d.legs.map Leg.value) + d.feeAmount.units := by
  rw [amounts, Decimal.unitsOf_append, Decimal.unitsOf_cons, Decimal.unitsOf_nil, Int.add_zero]

theorem SameLegs.amounts (same : d.SameLegs d') (tags : d.tags = d'.tags) : d.amounts.Perm d'.amounts := by
  rw [Draft.amounts, Draft.amounts, feeAmount, feeAmount, tags]
  exact same.values.append_right _

theorem SameLegs.isKeptIn (same : d.SameLegs d') (kept : d.IsKeptIn currency) : d'.IsKeptIn currency := by
  intro leg mem c given
  obtain ⟨leg', mem', told⟩ := same.symm.exists_leg mem
  rw [← Leg.currency?_of_content told] at given
  exact kept leg' mem' c given

theorem SameLegs.balances (same : d.SameLegs d') (tags : d.tags = d'.tags) (h : d.Balances currency) :
    d'.Balances currency where
  owned := by
    intro leg mem
    obtain ⟨leg', mem', told⟩ := same.symm.exists_leg mem
    rw [← Leg.isOwned_of_content told]
    exact h.owned leg' mem'
  several := by
    have length := same.length_eq
    rw [List.length_map, List.length_map] at length
    rw [← length]
    exact h.several
  gives := by
    obtain ⟨leg, mem, negative⟩ := h.gives
    obtain ⟨leg', mem', told⟩ := same.exists_leg mem
    rw [← Leg.value_of_content told] at negative
    exact ⟨leg', mem', negative⟩
  takes := by
    obtain ⟨leg, mem, nonneg⟩ := h.takes
    obtain ⟨leg', mem', told⟩ := same.exists_leg mem
    rw [← Leg.value_of_content told] at nonneg
    exact ⟨leg', mem', nonneg⟩
  fee := by
    intro fee tagged
    rw [← tags] at tagged ⊢
    exact h.fee fee tagged
  sum := by
    rw [← Decimal.unitsOf_perm same.values, feeAmount, ← tags]
    exact h.sum

/-- An owned leg has an amount in the one currency. -/
theorem IsKeptIn.exists_posting? (kept : d.IsKeptIn currency) (complete : ∀ leg ∈ d.legs, leg.Complete) {leg : Leg}
    (mem : leg ∈ d.legs) (owned : leg.isOwned = true) :
    ∃ a m, leg.posting? = some (a, m) ∧ m.currency = currency := by
  obtain ⟨a, m, posted⟩ := (complete leg mem).exists_posting? owned
  exact ⟨a, m, posted, kept leg mem _ (Leg.currency?_of_posting? posted)⟩

theorem IsKeptIn.length_currencies (kept : d.IsKeptIn currency) (complete : ∀ leg ∈ d.legs, leg.Complete)
    (owned : ∀ leg ∈ d.legs, leg.isOwned = true) (several : 2 ≤ d.legs.length) : d.currencies.length = 1 := by
  have some : d.legs ≠ [] := List.ne_nil_of_length_pos (by omega)
  apply @Draft.length_currencies d currency some
  intro leg mem
  obtain ⟨a, m, posted, same⟩ := kept.exists_posting? complete mem (owned leg mem)
  rw [Leg.currency?_of_posting? posted, same]

/-- A transfer of cash in one currency is booked if its legs and the fee balance. -/
theorem exists_transfer_iff_balances (complete : ∀ leg ∈ d.legs, leg.Complete) (kept : d.IsKeptIn currency)
    (unshared : d.tags.shares? = none) (exact : Decimal.HasExactSum d.amounts) :
    (∃ b, d.transfer = .ok b) ↔ d.Balances currency := by
  constructor
  · rintro ⟨b, booked⟩
    obtain ⟨owned, several, ⟨shares, tagged, -⟩ | ⟨-, booked⟩⟩ := transfer_ok booked
    · cases unshared.symm.trans tagged
    obtain ⟨source, sources, account, money, first, -, posted, -⟩ := cashTransfer_ok booked
    obtain ⟨mem, negative⟩ := mem_sources_iff.1 (first ▸ List.mem_cons_self)
    obtain ⟨_, _, posted', same⟩ := kept.exists_posting? complete mem (owned source mem)
    obtain ⟨rfl, rfl⟩ := Prod.mk.inj (Option.some.inj (posted.symm.trans posted'))
    obtain ⟨some_target, proper, balanced⟩ := (exists_cashTransfer_iff first posted).1 ⟨b, booked⟩
    have single := kept.length_currencies complete owned several
    rw [if_pos single, checkBalanced_eq_ok_iff exact, unitsOf_amounts] at balanced
    rw [same] at proper
    obtain ⟨target, taking⟩ := List.exists_mem_of_ne_nil _ some_target
    exact ⟨owned, several, ⟨source, mem, negative⟩, ⟨target, mem_targets_iff.1 taking⟩, proper, balanced⟩
  · intro h
    obtain ⟨giver, mem, negative⟩ := h.gives
    obtain ⟨taker, mem', nonneg⟩ := h.takes
    have isSource : giver ∈ d.sources := mem_sources_iff.2 ⟨mem, negative⟩
    have isTarget : taker ∈ d.targets := mem_targets_iff.2 ⟨mem', nonneg⟩
    -- The fee is taken out of the first leg that gives, which need not be this one.
    obtain ⟨source, sources, first⟩ := List.exists_cons_of_ne_nil (List.ne_nil_of_mem isSource)
    have inLegs : source ∈ d.legs := (mem_sources_iff.1 (first ▸ List.mem_cons_self)).1
    obtain ⟨account, money, posted, same⟩ := kept.exists_posting? complete inLegs (h.owned source inLegs)
    have single := kept.length_currencies complete h.owned h.several
    rw [transfer_eq h.owned h.several, unshared]
    apply (exists_cashTransfer_iff first posted).2
    rw [if_pos single, checkBalanced_eq_ok_iff exact, unitsOf_amounts, same]
    exact ⟨List.ne_nil_of_mem isTarget, h.fee, h.sum⟩

end Draft

/-! ### Transfers of a ledger -/

namespace Journal.TransferIn

variable {lines lines' : List Line} {currency : Currency}

/-- Transfers with the same legs, in any order, and the same tags of their own have the same tags after the same
patterns. -/
theorem tags_of_sameLegs {t : TransferIn lines} {t' : TransferIn lines'} (patterns : t'.patterns = t.patterns)
    (tags : t'.own.tags = t.own.tags) (same : t'.own.SameLegs t.own) : t'.draft.tags = t.draft.tags := by
  rw [draft, draft, Draft.taggedBy, Draft.taggedBy, patterns, tags, Pattern.tagsFor_perm same.owners]

/-- **A transfer of cash in one currency is accepted exactly if its legs and the fee balance**, where no partial sum
of these amounts, in any order, is rounded or too large. It is accepted in one order of its legs if it is in
another. -/
theorem isAccepted_iff_balances (t : TransferIn lines) (unshared : t.draft.tags.shares? = none)
    (kept : t.draft.IsKeptIn currency) (exact : ∀ amounts, amounts.Perm t.draft.amounts → Decimal.HasExactSum amounts) :
    (t.IsAccepted ↔ t.draft.Balances currency) ∧
      ∀ {lines' : List Line} (t' : TransferIn lines'), t'.patterns = t.patterns → t'.own.tags = t.own.tags →
        t'.own.SameLegs t.own → (t'.IsAccepted ↔ t.IsAccepted) := by
  have first : t.IsAccepted ↔ t.draft.Balances currency := by
    rw [t.isAccepted_iff]
    exact Draft.exists_transfer_iff_balances t.complete kept unshared (exact _ (.refl _))
  constructor
  · exact first
  · intro lines' t' patterns tags same
    have tags := tags_of_sameLegs patterns tags same
    have same : t'.draft.SameLegs t.draft := same
    have kept' := same.symm.isKeptIn kept
    have unshared' : t'.draft.tags.shares? = none := tags ▸ unshared
    have exact' := exact t'.draft.amounts (same.amounts tags)
    rw [first, t'.isAccepted_iff, Draft.exists_transfer_iff_balances t'.complete kept' unshared' exact']
    exact ⟨same.balances tags, same.symm.balances tags.symm⟩

def withdrawalLine (n : Nat) : Location := ⟨⟨"withdrawal", n⟩, []⟩

/-- A ledger with a pattern that charges a fee, and a withdrawal with legs in some order. -/
def withdrawalLines (legs : List String) : List Line :=
  (["match tx", "asset/bank", "with", "fee: 1 USD", "intermediary: teller", "end", "tx 2021-01-03"] ++ legs
    ++ ["end"]).zipIdx.map fun (text, i) => ⟨text, withdrawalLine (i + 1)⟩

def tellerPattern : Pattern where
  keyword := .transfer
  accounts := .ofList ["asset/bank"]
  tags := [.fee (usd 1), .intermediary "teller"]

/-- The withdrawal of that ledger. -/
def withdrawal (legs : List (String × Money)) : Draft where
  timestamp := day2021 1 3
  legs := legs.zipIdx.map fun (leg, i) => .onAccount ⟨.asset, leg.1⟩ leg.2 (withdrawalLine (i + 8))
  tags := []
  location := withdrawalLine 7

/-- What the withdrawal gives, less the fee of the pattern, is what two accounts take, in any order. -/
theorem isAccepted_withdrawal :
    (∃ t : TransferIn (withdrawalLines ["asset/bank -6 USD", "asset/purse 3 USD", "asset/jar 2 USD"]),
      t.own.tags = [] ∧ t.draft.Balances .usd ∧ t.IsAccepted) ∧
      ∃ t : TransferIn (withdrawalLines ["asset/jar 2 USD", "asset/bank -6 USD", "asset/purse 3 USD"]),
        t.IsAccepted := by
  have found : transferAt? (withdrawalLines ["asset/bank -6 USD", "asset/purse 3 USD", "asset/jar 2 USD"]) 1
      = some ([tellerPattern], withdrawal [("bank", (usd 6).neg), ("purse", usd 3), ("jar", usd 2)]) := by
    decide +kernel
  have found' : transferAt? (withdrawalLines ["asset/jar 2 USD", "asset/bank -6 USD", "asset/purse 3 USD"]) 1
      = some ([tellerPattern], withdrawal [("jar", usd 2), ("bank", (usd 6).neg), ("purse", usd 3)]) := by
    decide +kernel
  obtain ⟨t, patterns, own⟩ := exists_of_transferAt? found
  obtain ⟨t', patterns', own'⟩ := exists_of_transferAt? found'
  have draft : t.draft = (withdrawal [("bank", (usd 6).neg), ("purse", usd 3), ("jar", usd 2)]).taggedBy
      [tellerPattern] := by rw [TransferIn.draft, patterns, own]
  have orders : ∀ amounts ∈ t.draft.amounts.permutations', Decimal.HasExactSum amounts := by
    rw [draft]
    decide +kernel
  have isCash : t.draft.Balances .usd ∧ t.draft.IsKeptIn .usd ∧ t.draft.tags.shares? = none := by
    rw [draft]
    decide +kernel
  obtain ⟨balances, kept, unshared⟩ := isCash
  obtain ⟨iff, anyOrder⟩ := isAccepted_iff_balances t unshared kept fun amounts same =>
    orders amounts (List.mem_permutations'.2 same)
  have accepted := iff.2 balances
  have same : t'.own.SameLegs t.own := by
    rw [own, own', Draft.SameLegs]
    decide +kernel
  have tags : t'.own.tags = t.own.tags := by
    rw [own, own']
    rfl
  have untagged : t.own.tags = [] := by
    rw [own]
    rfl
  have accepted' := (anyOrder t' (patterns'.trans patterns.symm) tags same).2 accepted
  exact ⟨⟨t, untagged, balances, accepted⟩, t', accepted'⟩

end Journal.TransferIn

end Daybook
