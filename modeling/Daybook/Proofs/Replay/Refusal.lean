import Daybook.Proofs.Journal.Replayable
import Daybook.Proofs.Replay.Balance
import Daybook.Proofs.Replay.InPlace

/-!
# What is refused leaves no trace

An item that names something that is not there is refused for the first such thing, before anything is
written (`refused_before_any_change`): not even the sum of a leg in front of it, which may not fit, gets in
the way.
-/

namespace Daybook

/-! ### What an item relies on -/

namespace Item

/-- What an item relies on, one by one: every leg that it adds to a balance and every entry on an account
in the currency; an entry with a price, and a dividend, on a position; and a dividend on the worth of its
money in the currency of the account that holds the shares. -/
inductive Needs : Item → Need → Prop
  | leg {t : Transaction} {leg : Leg} {account : AccountRef} {money : Money}
      (direct : t.origin ≠ .dividendRevenue) (paid : ∀ company, t.kind ≠ .dividend company)
      (mem : leg ∈ t.legs) (owned : leg.posting? = some (account, money)) :
      Needs (.transaction t) ⟨account, .keptIn money.currency, leg.location⟩
  | cash {t : Transaction} {company : String} {leg : Leg} {account : AccountRef} {money : Money}
      (kind : t.kind = .dividend company) (first : t.outs.head? = some leg)
      (owned : leg.posting? = some (account, money)) :
      Needs (.transaction t) ⟨account, .keptIn money.currency, leg.location⟩
  | company {t : Transaction} {company : String} {source : AccountRef} (kind : t.kind = .dividend company)
      (first : t.ins.head?.bind Leg.account? = some source) :
      Needs (.transaction t) ⟨source, .holding company, t.location⟩
  | rate {t : Transaction} {company : String} {source account : AccountRef} {money : Money}
      (kind : t.kind = .dividend company) (first : t.ins.head?.bind Leg.account? = some source)
      (pays : t.outs.head?.bind Leg.posting? = some (account, money)) :
      Needs (.transaction t) ⟨source, .valuing money, t.location⟩
  | entry {a : BalanceAssertion} {e : BalanceEntry} {money : Money} (mem : e ∈ a.entries)
      (cash : e.assertion = .cash money) :
      Needs (.balance a) ⟨e.account, .keptIn money.currency, e.location⟩
  | price {a : BalanceAssertion} {e : BalanceEntry} {company : String} {price : Money}
      (mem : e ∈ a.entries) (share : e.assertion = .sharePrice company price) :
      Needs (.balance a) ⟨e.account, .keptIn price.currency, e.location⟩
  | priced {a : BalanceAssertion} {e : BalanceEntry} {company : String} {price : Money}
      (mem : e ∈ a.entries) (share : e.assertion = .sharePrice company price) :
      Needs (.balance a) ⟨e.account, .holding company, e.location⟩

end Item

section

variable {t : Transaction} {n : Need} {b : Books}

/-- A dividend of a journal relies on what its payment relies on. -/
theorem exists_payment {company : String} (regular : t.Regular) (replayable : t.Replayable)
    (kind : t.kind = .dividend company) :
    ∃ (p : Payment) (cash : Leg), t.needs = p.needs company t.location ∧
      t.ins.head?.bind Leg.account? = some p.source ∧ t.outs.head? = some cash ∧
      cash.posting? = some (p.account, p.money) ∧ p.location = cash.location := by
  obtain ⟨source, cash, ⟨account, money⟩, pays, first, owned⟩ := replayable.dividend company kind
  have direct : t.origin ≠ .dividendRevenue := by
    intro mirror
    rw [regular.mirror mirror] at kind
    cases kind
  have payment : Payment.ofTransaction t = .ok ⟨source, account, money, cash.location⟩ := by
    simp only [Payment.ofTransaction, pays, first, owned, orError, ok_bind]
  refine ⟨⟨source, account, money, cash.location⟩, cash, ?_, pays, first, owned, rfl⟩
  rw [Transaction.needs, if_neg direct]
  simp only [kind, payment]

/-- All that an item relies on is looked up. -/
theorem Item.mem_needs {i : Item} (regular : ∀ t, i = .transaction t → t.Regular)
    (replayable : ∀ t, i = .transaction t → t.Replayable) (h : i.Needs n) : n ∈ i.needs := by
  cases h with
  | @leg t leg account money origin other mem owned =>
    show _ ∈ t.needs
    have all : t.needs = t.legs.filterMap Leg.need? := by
      rw [Transaction.needs, if_neg origin]
      split
      case h_5 company kind => exact absurd kind (other company)
      all_goals rfl
    rw [all]
    exact List.mem_filterMap.2 ⟨leg, mem, by rw [Leg.need?, owned]; rfl⟩
  | @cash t company leg account money kind first owned =>
    obtain ⟨p, cash, needs, _, head, posted, place⟩ := exists_payment (regular t rfl) (replayable t rfl) kind
    rw [head] at first
    cases first
    rw [posted] at owned
    cases owned
    show _ ∈ t.needs
    rw [needs, Payment.needs, place]
    exact List.mem_cons_self
  | @company t company source kind first =>
    obtain ⟨p, _, needs, source, _⟩ := exists_payment (regular t rfl) (replayable t rfl) kind
    rw [source] at first
    cases first
    show _ ∈ t.needs
    rw [needs, Payment.needs]
    simp
  | @rate t company source account money kind first pays =>
    obtain ⟨p, cash, needs, source, head, posted, _⟩ := exists_payment (regular t rfl) (replayable t rfl) kind
    rw [source] at first
    cases first
    rw [head, Option.bind_some, posted] at pays
    cases pays
    show _ ∈ t.needs
    rw [needs, Payment.needs]
    simp
  | @entry a e money mem cash =>
    exact List.mem_flatMap.2 ⟨e, mem, by rw [BalanceEntry.needs, cash]; exact List.mem_cons_self⟩
  | @price a e company price mem share =>
    exact List.mem_flatMap.2 ⟨e, mem, by rw [BalanceEntry.needs, share]; exact List.mem_cons_self⟩
  | @priced a e company price mem share =>
    exact List.mem_flatMap.2 ⟨e, mem, by rw [BalanceEntry.needs, share]; simp⟩

/-! ### Refusals -/

namespace Books

/-- Something that lacks is never a sum that does not fit. -/
theorem problem?_ne_overflow {why : Problem} (h : b.problem? n = some why) : why ≠ .amountOverflow := by
  rintro rfl
  rw [problem?] at h
  split at h
  · cases h
  · next found _ =>
    unfold Account.problem? at h
    split at h
    · split at h <;> cases h
    · split at h <;> cases h
    · split at h <;> cases h

/-- Steps that are refused before they write leave the books as they are. -/
theorem leftBy_eq_self {met : List Need} {first : Need} {why : Problem} {rest : List Step}
    (before : ∀ n ∈ met, b.problem? n = none) (lacking : b.problem? first = some why) :
    b.leftBy (met.map .need ++ .need first :: rest) = b := by
  induction met with
  | nil => rw [List.map_nil, List.nil_append, leftBy, take, meet, lacking]; rfl
  | cons n met ih =>
    rw [List.map_cons, List.cons_append, leftBy, take, meet, before n List.mem_cons_self]
    exact ih fun n mem => before n (List.mem_cons_of_mem _ mem)

/-- The steps of an item that counts are to look up what it relies on, and then to write. -/
theorem exists_steps {o : Options} {i : Item} (counts : i.effectiveDate ≤ o.now) (relies : i.needs ≠ []) :
    ∃ writes, i.steps o = i.needs.map .need ++ writes := by
  cases i with
  | transaction t => exact ⟨t.writes, if_neg (Timestamp.not_lt.2 counts)⟩
  | balance a => exact ⟨_, if_neg (Timestamp.not_lt.2 counts)⟩
  | _ => exact absurd rfl relies

end Books

end

/-- **What is refused leaves no trace.** If anything is lacking that an item relies on, whatever books it is
applied to, then it is refused for what is lacking first, in the order in which its needs are looked up: the
legs on the way in before those on the way out, entry by entry, and for a dividend the cash account, the
position and the rate. It is never refused for a sum, and the books are as they were. Revenue that a
dividend is relies on nothing. -/
theorem refused_before_any_change {lines : List Line} {j : Journal} {o : Options} {i : Item}
    (read : Journal.parse lines = .ok j) (mem : i ∈ j.items) (counts : i.effectiveDate ≤ o.now) (b : Books) :
    (∀ n, i.Needs n → b.problem? n ≠ none →
      ∃ met first rest why, i.needs = met ++ first :: rest ∧ (∀ n ∈ met, b.problem? n = none) ∧
        b.problem? first = some why ∧ why ≠ .amountOverflow ∧
        b.apply o i = .error (.meaning first.location why) ∧ b.leftBy (i.steps o) = b) ∧
    ∀ t, i = .transaction t → t.origin = .dividendRevenue →
      b.apply o i = .ok (b, []) ∧ b.leftBy (i.steps o) = b := by
  constructor
  · intro n needed lacking
    have isNeed := Item.mem_needs (fun t isItem => regular_of_parse read (isItem ▸ mem))
      (fun t isItem => replayable_of_parse read (isItem ▸ mem)) needed
    obtain ⟨met, first, rest, why, needs, before, first⟩ := Books.exists_first isNeed lacking
    obtain ⟨writes, steps⟩ := Books.exists_steps counts (List.ne_nil_of_mem isNeed)
    refine ⟨met, _, rest, why, needs, before, first, Books.problem?_ne_overflow first, ?_, ?_⟩
    · rw [Books.apply_eq_steps, steps, Books.outcome_needs_append, needs,
        Books.meetAll_eq_error before first]
      rfl
    · rw [steps, needs, List.map_append, List.append_assoc]
      exact Books.leftBy_eq_self before first
  · rintro t rfl mirror
    have early : ¬ o.now < t.effectiveDate := Timestamp.not_lt.2 counts
    constructor
    · rw [Books.apply, if_neg early, Books.transaction, if_pos mirror]
    · rw [Item.steps, if_neg early, Transaction.needs, Transaction.writes, if_pos mirror, if_pos mirror]
      rfl

/-! ### The household -/

/-- The transfer of the household, from the bank to the purse. -/
def houseTransfer : Transaction where
  kind := .transfer
  timestamp := day2021 1 3
  ins := [.onAccount houseBank (usd 200).neg (houseLine 15)]
  outs := [.onAccount ⟨.asset, "purse"⟩ (usd 200) (houseLine 16)]
  tags := [.fee (usd 5), .intermediary "teller"]
  origin := .ledger
  location := houseLine 14

/-- Books in which the bank owes as much as fits, and in which the purse is kept in another currency. -/
def strainedBooks : Books where
  accounts :=
    { accounts :=
        [.ofOpening ⟨day2021 1 1, houseBank, ⟨(Decimal.fit? true 79228162514264337593543950335 0).getD .zero, .usd⟩,
            .empty, houseLine 1⟩,
          .ofOpening ⟨day2021 1 1, ⟨.asset, "purse"⟩, .zero .eur, .empty, houseLine 4⟩]
      nodup := by decide }
  basket := .empty

/-- The transfer is refused for the purse, and the bank, whose balance would not fit, is not touched. -/
theorem refusal_of_houseTransfer :
    ∃ j, Journal.parse houseBook = .ok j ∧ .transaction houseTransfer ∈ j.items ∧
      strainedBooks.credit houseBank (usd 200).neg.amount (houseLine 15) = .error (.overflow (houseLine 15)) ∧
      strainedBooks.apply houseOptions (.transaction houseTransfer)
        = .error (.meaning (houseLine 16) (.accountCurrency ⟨.asset, "purse"⟩ .eur .usd)) ∧
      strainedBooks.leftBy ((Item.transaction houseTransfer).steps houseOptions) = strainedBooks := by
  obtain ⟨j, read, items⟩ := exists_journal_of_houseBook
  have mem : .transaction houseTransfer ∈ j.items := by
    rw [items]
    decide
  have counts : (Item.transaction houseTransfer).effectiveDate ≤ houseOptions.now := by decide
  have target : .onAccount ⟨.asset, "purse"⟩ (usd 200) (houseLine 16) ∈ houseTransfer.legs := by decide
  have needed : (Item.transaction houseTransfer).Needs ⟨⟨.asset, "purse"⟩, .keptIn .usd, houseLine 16⟩ :=
    .leg (by decide) (fun _ kind => by cases kind) target rfl
  obtain ⟨_, _, _, _, _, _, _, _, _, untouched⟩ :=
    (refused_before_any_change read mem counts strainedBooks).1 _ needed (by decide)
  exact ⟨j, read, mem, rfl, rfl, untouched⟩

end Daybook
