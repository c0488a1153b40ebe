import Daybook.Proofs.Journal.Flow
import Daybook.Proofs.Replay.Balance
import Daybook.Proofs.Replay.Order

/-!
# What one statement emits

The items of an expense, a revenue or a transfer carry the money that was written, whatever patterns add
to its tags: over all of its items, every account has what the statement says of it. A transfer of cash
with a fee is the one statement that is booked as two items (`FeeSplit`). These stay next to each other in
the replay, since they count at the same time, so they are applied together or not at all
(`emitted_of_parse`).
-/

namespace Daybook

/-! ### Money on some accounts -/

namespace Leg

/-- The money of legs on the accounts, and in the currencies, that a test lets through. -/
def netWhere (keep : AccountRef → Currency → Bool) (legs : List Leg) : Int :=
  Decimal.unitsOf <| legs.filterMap fun leg =>
    leg.posting?.bind fun (account, money) => if keep account money.currency then some money.amount else none

variable {keep : AccountRef → Currency → Bool} {legs more : List Leg}

theorem netWhere_append : netWhere keep (legs ++ more) = netWhere keep legs + netWhere keep more := by
  rw [netWhere, List.filterMap_append, Decimal.unitsOf_append]
  rfl

theorem netWhere_cons (leg : Leg) : netWhere keep (leg :: legs) = netWhere keep [leg] + netWhere keep legs := by
  rw [← netWhere_append, List.singleton_append]

theorem netWhere_perm (h : legs.Perm more) : netWhere keep legs = netWhere keep more :=
  ((h.filterMap _).map _).sum_eq

theorem netWhere_of_posting? {leg : Leg} {account : AccountRef} {money : Money}
    (h : leg.posting? = some (account, money)) :
    netWhere keep [leg] = if keep account money.currency then money.amount.units else 0 := by
  by_cases kept : keep account money.currency = true
  · simp [netWhere, h, kept]
  · simp [netWhere, h, kept]

theorem netWhere_of_not_owned {leg : Leg} (h : leg.isOwned = false) : netWhere keep [leg] = 0 := by
  simp [netWhere, posting?_of_not_owned h]

end Leg

/-! ### Two items side by side -/

section

variable {first second : Item}

/-- **Neighbours of one date stay neighbours.** -/
theorem chronological_append_pair (date : second.effectiveDate = first.effectiveDate) (pre post : List Item) :
    ∃ before after, chronological (pre ++ first :: second :: post) = before ++ first :: second :: after := by
  have both : ∀ i ∈ [first, second], i.effectiveDate = first.effectiveDate := by simp [date]
  obtain ⟨early, late, order, -⟩ := exists_chronological_insert both pre post
  exact ⟨early, late, by simpa using order⟩

end

/-- The books after two transactions, one right after the other, that count at the same time. -/
def Books.both (o : Options) (b : Books) (t f : Transaction) : Except Error Books :=
  if o.now < t.effectiveDate then
    .ok b
  else do
    let (b, _) ← b.transaction t
    let (b, _) ← b.transaction f
    .ok b

/-- Two transactions are replayed one right after the other: there are items before both, and items
after both, and with these in between the two are applied together, or both are skipped. -/
def ReplayedTogether (t f : Transaction) (items : List Item) : Prop :=
  ∃ before after, chronological items = before ++ .transaction t :: .transaction f :: after ∧
    ∀ (o : Options) (b : Books), (replay o b items).result = do
      let b ← (foldTelling (Books.apply o) b before).result
      let b ← b.both o t f
      (foldTelling (Books.apply o) b after).result

theorem result_foldTelling_pair {t f : Transaction} (date : f.effectiveDate = t.effectiveDate) (o : Options)
    (b : Books) (after : List Item) :
    (foldTelling (Books.apply o) b (.transaction t :: .transaction f :: after)).result = (do
      let b ← b.both o t f
      (foldTelling (Books.apply o) b after).result) := by
  rw [foldTelling, Books.apply, Books.both]
  by_cases late : o.now < t.effectiveDate
  · rw [if_pos late, if_pos late]
    dsimp only
    rw [foldTelling, Books.apply, date, if_pos late]
    rfl
  · rw [if_neg late, if_neg late]
    cases b.transaction t with
    | error e => rfl
    | ok next =>
      show (foldTelling (Books.apply o) next.1 (.transaction f :: after)).result
        = (next.1.transaction f >>= fun r => .ok r.1) >>= fun b => (foldTelling (Books.apply o) b after).result
      rw [foldTelling, Books.apply, date, if_neg late]
      cases next.1.transaction f <;> rfl

theorem replayedTogether_of_append {t f : Transaction} {pre post : List Item}
    (date : f.effectiveDate = t.effectiveDate) :
    ReplayedTogether t f (pre ++ .transaction t :: .transaction f :: post) := by
  have date' : (Item.transaction f).effectiveDate = (Item.transaction t).effectiveDate := date
  obtain ⟨before, after, order⟩ := chronological_append_pair date' pre post
  refine ⟨before, after, order, fun o b => ?_⟩
  rw [replay, order, result_foldTelling_append]
  simp only [result_foldTelling_pair date]

/-! ### Fees that are split off -/

/-- The two transactions of a transfer with a fee: the transfer, and the fee that its first source pays. -/
structure FeeSplit (d : Draft) (fee : Money) (t f : Transaction) : Prop where
  tagged : d.tags.fee? = some fee
  nonzero : fee.isZero = false
  kinds : t.kind = .transfer ∧ f.kind = .expense ∧ f.origin = .transferFee
  /-- The expense has one leg on a tracked account, the first source, and takes the fee from it. -/
  charged : ∃ source account money, d.sources.head? = some source ∧ source.posting? = some (account, money) ∧
    f.legs.filter Leg.isOwned = [.onAccount account fee.neg source.location]
  /-- In one currency, what is written was found to balance with the fee. -/
  checked : d.currencies.length = 1 →
    ∃ left, Decimal.sum (d.legs.map Leg.value ++ [fee.amount]) = some left ∧ left.isZero = true
  /-- What is left of the transfer balances by itself. -/
  balanced : d.currencies.length = 1 → d.IsExact → Leg.net t.legs = 0
  timestamp : f.timestamp = t.timestamp
  effectiveDate : f.effectiveDate = t.effectiveDate
  location : f.location = t.location

/-- The transfer is of cash, with a fee other than zero. -/
def Draft.PaysFee (d : Draft) : Prop :=
  d.tags.shares? = none ∧ ∃ fee, d.tags.fee? = some fee ∧ fee.isZero = false

namespace Draft

variable {d : Draft} {b : Booked} {keep : AccountRef → Currency → Bool}

/-- The fee counts when the transfer does. -/
theorem effectiveDate_feeExpense (d : Draft) (fee : Money) (intermediary : String) (account : AccountRef)
    (location : Location) (kind : TransactionKind) (ins outs : List Leg) :
    (d.feeExpense fee intermediary account location).effectiveDate
      = (d.toTransaction kind ins outs).effectiveDate := by
  have tags : Tags.effectiveDate? (d.feeExpense fee intermediary account location).tags
      = d.tags.effectiveDate? := by
    show Tags.effectiveDate?
      (.labels d.tags.labels.toList :: (d.tags.effectiveDate?.map Tag.effectiveDate).toList) = _
    cases d.tags.effectiveDate? <;> rfl
  rw [Transaction.effectiveDate, tags]
  rfl

theorem sides_perm (d : Draft) : (d.sources ++ d.targets).Perm d.legs :=
  List.filter_append_perm (fun leg : Leg => decide (leg.value < .zero)) d.legs

/-- The legs of an expense are those that are written, in another order. -/
theorem perm_of_expense (h : d.expense = .ok b) :
    ∃ t, b.transactions = [t] ∧ t.legs.Perm d.legs := by
  obtain ⟨payee, outside, -, transactions⟩ := expense_ok h
  refine ⟨_, transactions, ?_⟩
  show (d.legs.filter Leg.isOwned ++ [payee]).Perm d.legs
  rw [← outside]
  exact List.filter_append_perm Leg.isOwned d.legs

theorem perm_of_revenue (h : d.revenue = .ok b) :
    ∃ t, b.transactions = [t] ∧ t.legs.Perm d.legs := by
  obtain ⟨payer, outside, transactions⟩ := revenue_ok h
  refine ⟨_, transactions, ?_⟩
  let owned := d.legs.filter Leg.isOwned
  show (owned.filter (fun leg => decide (leg.value < .zero)) ++ [payer]
    ++ owned.filter fun leg => !decide (leg.value < .zero)).Perm d.legs
  have sides := List.filter_append_perm (fun leg : Leg => decide (leg.value < .zero)) owned
  have parts : (owned ++ [payer]).Perm d.legs := by
    rw [← outside]
    exact List.filter_append_perm Leg.isOwned d.legs
  refine List.Perm.trans ?_ parts
  rw [List.append_assoc]
  refine (List.Perm.append_left _ List.perm_append_comm).trans ?_
  rw [← List.append_assoc]
  exact sides.append_right _

/-- A transfer without a fee to split off has the legs that are written, in another order. -/
theorem perm_of_sides {kind : TransactionKind} {ins outs : List Leg} (sources : d.sources = ins)
    (targets : d.targets = outs) : (d.toTransaction kind ins outs).legs.Perm d.legs := by
  show (ins ++ outs).Perm d.legs
  rw [← sources, ← targets]
  exact d.sides_perm

/-! ### The money of a transfer with a fee -/

section

variable {source : Leg} {sources : List Leg} {account : AccountRef} {money fee : Money} {rest : Decimal}

theorem posting?_of_rest (posted : source.posting? = some (account, money)) :
    Leg.posting? { source with money := some ⟨rest, money.currency⟩ }
      = some (account, ⟨rest, money.currency⟩) := by
  rw [Leg.posting?]
  simp only [(Leg.of_posting? posted).1]

theorem units_of_rest (exact : d.IsExact) (untagged : d.tags.shares? = none)
    (first : d.sources = source :: sources) (posted : source.posting? = some (account, money))
    (tagged : d.tags.fee? = some fee) (sum : money.amount.add fee.amount = some rest) :
    rest.units = money.amount.units + fee.amount.units := by
  have exact := exact.split untagged source (by rw [first]; rfl)
  rw [Leg.value_of_posting? posted, feeAmount_of_tagged tagged] at exact
  exact (exact rest sum).1

/-- **Taking the fee out of the first source, and charging it by itself, moves nothing**: the two items
together have what is written. -/
theorem netWhere_of_split (exact : d.IsExact) (untagged : d.tags.shares? = none)
    (first : d.sources = source :: sources) (posted : source.posting? = some (account, money))
    (tagged : d.tags.fee? = some fee) (currency : fee.currency = money.currency)
    (sum : money.amount.add fee.amount = some rest) (intermediary : String) :
    Leg.netWhere keep
        ((d.toTransaction .transfer ({ source with money := some ⟨rest, money.currency⟩ } :: sources)
            d.targets).legs ++ (d.feeExpense fee intermediary account source.location).legs)
      = Leg.netWhere keep d.legs := by
  have written : Leg.netWhere keep d.legs
      = Leg.netWhere keep [source] + Leg.netWhere keep (sources ++ d.targets) := by
    rw [← Leg.netWhere_perm d.sides_perm, first, List.cons_append, Leg.netWhere_cons]
  have charged : Leg.netWhere keep (d.feeExpense fee intermediary account source.location).legs
      = if keep account money.currency then - fee.amount.units else 0 := by
    show Leg.netWhere keep ([.onAccount account fee.neg source.location]
      ++ [.outside intermediary d.location]) = _
    rw [Leg.netWhere_append, Leg.netWhere_of_posting? (Leg.posting?_onAccount _ _ _),
      Leg.netWhere_of_not_owned rfl, ← currency, Int.add_zero]
    show (if keep account fee.currency then fee.amount.neg.units else 0) = _
    rw [Decimal.units_neg]
  have split := units_of_rest exact untagged first posted tagged sum
  rw [Leg.netWhere_append, charged, written]
  show Leg.netWhere keep ({ source with money := some ⟨rest, money.currency⟩ } :: (sources ++ d.targets)) + _ = _
  rw [Leg.netWhere_cons, Leg.netWhere_of_posting? (posting?_of_rest posted),
    Leg.netWhere_of_posting? posted]
  by_cases kept : keep account money.currency = true
  · simp only [if_pos kept]
    omega
  · simp only [if_neg kept]
    omega

theorem net_of_split (complete : ∀ leg ∈ d.legs, leg.Complete) (owned : ∀ leg ∈ d.legs, leg.isOwned = true)
    (exact : d.IsExact) (untagged : d.tags.shares? = none) (first : d.sources = source :: sources)
    (posted : source.posting? = some (account, money)) (tagged : d.tags.fee? = some fee)
    (sum : money.amount.add fee.amount = some rest) (single : d.currencies.length = 1) {currency : Currency}
    (balanced : d.checkBalanced currency = .ok ()) :
    Leg.net (d.toTransaction .transfer ({ source with money := some ⟨rest, money.currency⟩ } :: sources)
      d.targets).legs = 0 := by
  have net := net_of_checkBalanced complete owned single exact balanced
  rw [first, List.cons_append, Leg.net_cons, Leg.net_of_posting? posted, feeAmount_of_tagged tagged] at net
  have split := units_of_rest exact untagged first posted tagged sum
  show Leg.net ({ source with money := some ⟨rest, money.currency⟩ } :: (sources ++ d.targets)) = 0
  rw [Leg.net_cons, Leg.net_of_posting? (posting?_of_rest posted)]
  show rest.units + _ = 0
  omega

end

/-! ### Transfers -/

/-- A transfer is booked as one item with the legs that are written, or it pays a fee and is split. -/
theorem transfer_emits (complete : ∀ leg ∈ d.legs, leg.Complete) (h : d.transfer = .ok b) :
    ¬ d.PaysFee ∧ (∃ t, b.transactions = [t] ∧ t.legs.Perm d.legs) ∨
      d.PaysFee ∧ ∃ fee t f, b.transactions = [t, f] ∧ FeeSplit d fee t f ∧
        (d.IsExact → ∀ keep, Leg.netWhere keep (t.legs ++ f.legs) = Leg.netWhere keep d.legs) := by
  obtain ⟨owned, -, ⟨shares, tagged, traded⟩ | ⟨untagged, moved⟩⟩ := transfer_ok h
  · obtain ⟨source, target, _, _, sources, targets, _, _, _, _, _, _, _, transactions⟩ :=
      shareTransfer_ok traded
    refine .inl ⟨fun pays => ?_, _, transactions, perm_of_sides sources targets⟩
    cases pays.1.symm.trans tagged
  · obtain ⟨source, sources, account, money, first, -, posted, checked, balanced, booked⟩ :=
      cashTransfer_ok moved
    rcases booked with ⟨free, transactions⟩ | ⟨fee, rest, intermediary, tagged, nonzero, sum, transactions⟩
    · refine .inl ⟨fun pays => ?_, _, transactions, perm_of_sides first rfl⟩
      obtain ⟨-, fee, tagged, nonzero⟩ := pays
      cases (free fee tagged).symm.trans nonzero
    · obtain ⟨-, -, currency⟩ := checkFee_ok checked tagged
      refine .inr ⟨⟨untagged, fee, tagged, nonzero⟩, fee, _, _, transactions, ?_, fun exact keep =>
        netWhere_of_split exact untagged first posted tagged currency sum intermediary⟩
      exact
        { tagged, nonzero
          kinds := ⟨rfl, rfl, rfl⟩
          checked := fun single => by
            rw [← feeAmount_of_tagged tagged]
            exact checkBalanced_ok (balanced single)
          charged := ⟨source, account, money, by rw [first]; rfl, posted, rfl⟩
          balanced := fun single exact =>
            net_of_split complete owned exact untagged first posted tagged sum single (balanced single)
          timestamp := rfl
          effectiveDate := effectiveDate_feeExpense ..
          location := rfl }

end Draft

/-! ### Statements of a journal -/

namespace Written

/-- The keyword and the draft of an expense, a revenue or a transfer. -/
def draft? : Written → Option (Keyword × Draft)
  | expense d => some (.expense, d)
  | revenue d => some (.revenue, d)
  | transfer d => some (.transfer, d)
  | item _ | dividend _ => none

/-- What an expense, a revenue or a transfer emits: the money that is written, in one item, or in two if
it is a transfer that pays a fee. -/
theorem emits {w : Written} {keyword : Keyword} {d : Draft} (complete : w.Complete)
    (drafted : w.draft? = some (keyword, d)) {items : List Item} (h : w.items = .ok items) :
    ∃ block : List Transaction, items = block.map .transaction ∧
      ((keyword = .transfer → d.IsExact) →
        ∀ keep, Leg.netWhere keep (block.flatMap Transaction.legs) = Leg.netWhere keep d.legs) ∧
      ((keyword = .transfer ∧ d.PaysFee) ↔ block.length = 2) ∧
      ∀ t f, block = [t, f] → ∃ fee, FeeSplit d fee t f := by
  have one {t : Transaction} (direct : ¬ (keyword = .transfer ∧ d.PaysFee)) (same : t.legs.Perm d.legs) :
      ((keyword = .transfer → d.IsExact) →
        ∀ keep, Leg.netWhere keep ([t].flatMap Transaction.legs) = Leg.netWhere keep d.legs) ∧
      ((keyword = .transfer ∧ d.PaysFee) ↔ [t].length = 2) ∧
      ∀ t' f, [t] = [t', f] → ∃ fee, FeeSplit d fee t' f := by
    refine ⟨fun _ keep => ?_, ⟨fun pays => absurd pays direct, fun two => ?_⟩, fun t' f pair => ?_⟩
    · rw [List.flatMap_singleton]
      exact Leg.netWhere_perm same
    · cases two
    · cases pair
  cases w with
  | item i => cases drafted
  | dividend d => cases drafted
  | expense d' =>
    cases drafted
    obtain ⟨b, booked, rfl⟩ := map_eq_ok_iff.1 h
    obtain ⟨t, transactions, same⟩ := Draft.perm_of_expense booked
    rw [transactions]
    exact ⟨[t], rfl, one nofun same⟩
  | revenue d' =>
    cases drafted
    obtain ⟨b, booked, rfl⟩ := map_eq_ok_iff.1 h
    obtain ⟨t, transactions, same⟩ := Draft.perm_of_revenue booked
    rw [transactions]
    exact ⟨[t], rfl, one nofun same⟩
  | transfer d' =>
    cases drafted
    obtain ⟨b, booked, rfl⟩ := map_eq_ok_iff.1 h
    rcases Draft.transfer_emits complete booked with ⟨free, t, transactions, same⟩ |
      ⟨pays, fee, t, f, transactions, split, money⟩
    · rw [transactions]
      exact ⟨[t], rfl, one (fun both => free both.2) same⟩
    · rw [transactions]
      refine ⟨[t, f], rfl, fun exact keep => ?_, ⟨fun _ => rfl, fun _ => ⟨rfl, pays⟩⟩, ?_⟩
      · rw [List.flatMap_cons, List.flatMap_singleton]
        exact money (exact rfl) keep
      · rintro t' f' same
        cases same
        exact ⟨fee, split⟩

theorem allItems_append {before after : List Written} {items : List Item} :
    allItems (before ++ after) = .ok items ↔
      ∃ pre post, allItems before = .ok pre ∧ allItems after = .ok post ∧ items = pre ++ post := by
  induction before generalizing items with
  | nil => simp [allItems]
  | cons w rest ih =>
    simp only [List.cons_append, allItems, bind_eq_ok_iff, Except.ok.injEq, ih]
    constructor
    · rintro ⟨block, booked, _, ⟨pre, post, before, after, rfl⟩, rfl⟩
      exact ⟨block ++ pre, post, ⟨block, booked, pre, before, rfl⟩, after, by simp⟩
    · rintro ⟨_, post, ⟨block, booked, pre, before, rfl⟩, after, rfl⟩
      exact ⟨block, booked, pre ++ post, ⟨pre, post, before, after, rfl⟩, by simp⟩

end Written

/-- **A statement emits the money that is written.** Wherever an expense, a revenue or a transfer stands in
a journal, its items stand between those of the statements before it and those of the statements after
it. Unless a sum is rounded, they have the money that is written, on every account and in every currency.
There are two of them if a fee other than zero is paid for a transfer of cash, and one otherwise; the two
are as `FeeSplit` says, and whenever they are replayed, it is both of them, one right after the other. -/
theorem emitted_of_parse {lines : List Line} {j : Journal} (read : Journal.parse lines = .ok j)
    {before after : List Written} {w : Written} (written : Journal.written lines = before ++ w :: after)
    {keyword : Keyword} {d : Draft} (drafted : w.draft? = some (keyword, d)) :
    ∃ (pre : List Item) (block : List Transaction) (post : List Item),
      Written.allItems before = .ok pre ∧ w.items = .ok (block.map .transaction) ∧
        Written.allItems after = .ok post ∧ j.items = pre ++ block.map .transaction ++ post ∧
      ((keyword = .transfer → d.IsExact) →
        ∀ keep, Leg.netWhere keep (block.flatMap Transaction.legs) = Leg.netWhere keep d.legs) ∧
      ((keyword = .transfer ∧ d.PaysFee) ↔ block.length = 2) ∧
      ∀ t f, block = [t, f] → (∃ fee, FeeSplit d fee t f) ∧ ReplayedTogether t f j.items := by
  have mem : w ∈ Journal.written lines := by simp [written]
  have complete : w.Complete := complete_of_mem_written mem
  have all := allItems_written read
  rw [written, Written.allItems_append] at all
  obtain ⟨pre, rest, first, later, items⟩ := all
  simp only [Written.allItems, bind_eq_ok_iff, Except.ok.injEq] at later
  obtain ⟨_, booked, post, last, rfl⟩ := later
  obtain ⟨block, rfl, money, two, split⟩ := Written.emits complete drafted booked
  refine ⟨pre, block, post, first, booked, last, by simp [items], money, two, fun t f same => ?_⟩
  obtain ⟨fee, pair⟩ := split t f same
  refine ⟨⟨fee, pair⟩, ?_⟩
  rw [items, same]
  exact replayedTogether_of_append pair.effectiveDate

/-- Money that the household takes from the bank, at a fee. -/
def houseWithdrawal : Draft where
  timestamp := day2021 1 3
  legs := [.onAccount houseBank (usd 205).neg (houseLine 15), .onAccount ⟨.asset, "purse"⟩ (usd 200) (houseLine 16)]
  tags := [.fee (usd 5), .intermediary "teller"]
  location := houseLine 14

/-- The withdrawal is booked as a transfer that balances and the fee, which are replayed together. -/
theorem emitted_of_houseWithdrawal :
    ∃ j t f, Journal.parse houseBook = .ok j ∧ ReplayedTogether t f j.items ∧ Leg.net t.legs = 0 ∧
      FeeSplit houseWithdrawal (usd 5) t f ∧
      ∀ keep, Leg.netWhere keep (t.legs ++ f.legs) = Leg.netWhere keep houseWithdrawal.legs := by
  obtain ⟨j, read, -⟩ := exists_journal_of_houseBook
  have fifth : ((Journal.written houseBook)[4]?).bind Written.draft? = some (.transfer, houseWithdrawal) := by
    decide +kernel
  obtain ⟨w, at4, drafted⟩ := Option.bind_eq_some_iff.1 fifth
  obtain ⟨inside, at4⟩ := List.getElem?_eq_some_iff.1 at4
  have written : Journal.written houseBook
      = (Journal.written houseBook).take 4 ++ w :: (Journal.written houseBook).drop 5 := by
    rw [← at4, List.getElem_cons_drop, List.take_append_drop]
  obtain ⟨_, block, _, _, _, _, _, money, two, pair⟩ := emitted_of_parse read written drafted
  have pays : houseWithdrawal.PaysFee := ⟨by decide, usd 5, by decide, by decide⟩
  obtain ⟨t, f, rfl⟩ := List.length_eq_two.1 (two.1 ⟨rfl, pays⟩)
  obtain ⟨⟨fee, split⟩, together⟩ := pair t f rfl
  have exact : houseWithdrawal.IsExact := by decide +kernel
  obtain rfl : fee = usd 5 := Option.some.inj (split.tagged.symm.trans (by decide))
  refine ⟨j, t, f, read, together, split.balanced (by decide) exact, split, fun keep => ?_⟩
  have := money (fun _ => exact) keep
  rwa [List.flatMap_cons, List.flatMap_singleton] at this

end Daybook
