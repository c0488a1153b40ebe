import Daybook.Proofs.Decimal.Exact
import Daybook.Proofs.Journal.Booked
import Daybook.Proofs.Replay.History

/-!
# Where the money of a statement goes

A statement is booked as transactions, and each of them adds amounts to balances (`Transaction.moved`) and
counts as revenue, as an expense, or as the fee of a trade. Over all transactions of one statement these
come to the same (`flow_of_items`), as long as no sum is rounded: what balances gain is what is earned,
less what is spent and less the fee of a trade.
-/

namespace Daybook

/-! ### Amounts of legs -/

namespace Leg

/-- The amounts of legs on tracked accounts. -/
def amounts (legs : List Leg) : List Decimal := legs.filterMap fun leg => leg.posting?.map (·.2.amount)

/-- The value of legs on tracked accounts together. -/
def net (legs : List Leg) : Int := Decimal.unitsOf (amounts legs)

@[simp]
theorem net_nil : net [] = 0 := rfl

theorem net_append (legs more : List Leg) : net (legs ++ more) = net legs + net more := by
  rw [net, amounts, List.filterMap_append, Decimal.unitsOf_append]
  rfl

theorem net_cons (leg : Leg) (legs : List Leg) : net (leg :: legs) = net [leg] + net legs :=
  net_append [leg] legs

theorem net_of_posting? {leg : Leg} {a : AccountRef} {m : Money} (h : leg.posting? = some (a, m)) :
    net [leg] = m.amount.units := by
  simp [net, amounts, h]

theorem net_of_not_owned {leg : Leg} (h : leg.isOwned = false) : net [leg] = 0 := by
  simp [net, amounts, posting?_of_not_owned h]

theorem Complete.net_eq {leg : Leg} (h : leg.Complete) (owned : leg.isOwned = true) :
    net [leg] = leg.value.units := by
  obtain ⟨a, m, posted⟩ := h.exists_posting? owned
  rw [net_of_posting? posted, value_of_posting? posted]

theorem net_perm {legs more : List Leg} (h : legs.Perm more) : net legs = net more :=
  ((h.filterMap _).map _).sum_eq

theorem net_eq_unitsOf_values {legs : List Leg} (complete : ∀ leg ∈ legs, leg.Complete)
    (owned : ∀ leg ∈ legs, leg.isOwned = true) : net legs = Decimal.unitsOf (legs.map value) := by
  induction legs with
  | nil => rfl
  | cons leg rest ih =>
    rw [net_cons, (complete leg List.mem_cons_self).net_eq (owned leg List.mem_cons_self),
      ih (fun l mem => complete l (List.mem_cons_of_mem _ mem))
        (fun l mem => owned l (List.mem_cons_of_mem _ mem)),
      List.map_cons, Decimal.unitsOf_cons]

theorem net_nonpos {legs : List Leg} (negative : ∀ leg ∈ legs, leg.value < .zero) : net legs ≤ 0 := by
  induction legs with
  | nil => exact Int.le_refl 0
  | cons leg rest ih =>
    have later := ih fun l mem => negative l (List.mem_cons_of_mem _ mem)
    have first : net [leg] ≤ 0 := by
      cases posted : leg.posting? with
      | none => simp [net, amounts, posted]
      | some p =>
        have below : leg.value.units < 0 := negative leg List.mem_cons_self
        rw [value_of_posting? posted] at below
        rw [net_of_posting? posted]
        omega
    rw [net_cons]
    omega

end Leg

/-! ### Amounts of transactions -/

namespace Transaction

/-- What a transaction adds to balances. -/
def moved (t : Transaction) : Int := Leg.net t.countedLegs

/-- What it counts as revenue. -/
def earned (t : Transaction) : Int := if t.kind = .revenue then Leg.net t.outs else 0

/-- What it counts as an expense. -/
def spent (t : Transaction) : Int := if t.kind = .expense then (Leg.net t.ins).natAbs else 0

/-- The fee of a trade. -/
def tradeFee (t : Transaction) : Int :=
  if t.kind = .equity then ((t.tags.fee?.map Money.amount).getD .zero).units else 0

/-- What it leaves: revenue, less expenses and fees. -/
def gained (t : Transaction) : Int := t.earned - t.spent - t.tradeFee

end Transaction

/-- Money that a leg puts on a tracked account is in a currency. -/
def Leg.IsIn (currency : Currency) (leg : Leg) : Prop :=
  ∀ a m, leg.posting? = some (a, m) → m.currency = currency

def Item.transaction? : Item → Option Transaction
  | transaction t => some t
  | _ => none

theorem Item.forall_transaction_iff {P : Transaction → Prop} {items : List Item} :
    (∀ t, transaction t ∈ items → P t) ↔ ∀ t ∈ items.filterMap transaction?, P t := by
  constructor
  · intro all t mem
    obtain ⟨i, mem, same⟩ := List.mem_filterMap.1 mem
    cases i with
    | transaction t' =>
      cases same
      exact all t mem
    | _ => cases same
  · intro all t mem
    exact all t (List.mem_filterMap.2 ⟨transaction t, mem, rfl⟩)

/-- What the transactions among items that count at a time come to together. -/
def totalOf (now : Timestamp) (f : Transaction → Int) (items : List Item) : Int :=
  ((items.filter (Item.countsAt now)).map fun | .transaction t => f t | _ => 0).sum

section

variable {now : Timestamp} {f g : Transaction → Int}

theorem totalOf_append (items more : List Item) :
    totalOf now f (items ++ more) = totalOf now f items + totalOf now f more := by
  rw [totalOf, List.filter_append, List.map_append, List.sum_append]
  rfl

theorem totalOf_transaction (t : Transaction) :
    totalOf now f [.transaction t] = if t.effectiveDate ≤ now then f t else 0 := by
  rw [totalOf]
  by_cases counts : t.effectiveDate ≤ now
  · simp [Item.countsAt, Item.effectiveDate, counts]
  · simp [Item.countsAt, Item.effectiveDate, counts]

theorem totalOf_congr {items : List Item}
    (h : ∀ t, .transaction t ∈ items → t.effectiveDate ≤ now → f t = g t) :
    totalOf now f items = totalOf now g items := by
  rw [totalOf, totalOf]
  congr 1
  refine List.map_congr_left fun i mem => ?_
  obtain ⟨mem, counts⟩ := List.mem_filter.1 mem
  cases i with
  | transaction t => exact h t mem (of_decide_eq_true counts)
  | _ => rfl

theorem totalOf_pair {first second : Transaction} (date : second.effectiveDate = first.effectiveDate) :
    totalOf now f [.transaction first, .transaction second]
      = if first.effectiveDate ≤ now then f first + f second else 0 := by
  rw [← List.singleton_append, totalOf_append, totalOf_transaction, totalOf_transaction, date]
  split <;> rfl

theorem totalOf_perm {items more : List Item} (h : items.Perm more) :
    totalOf now f items = totalOf now f more :=
  ((h.filter _).map _).sum_eq

end

/-! ### Expenses and revenues -/

namespace Draft

variable {d : Draft} {b : Booked}

theorem isOwned_of_filter_eq {legs : List Leg} {party : Leg} (h : legs.filter (!·.isOwned) = [party]) :
    party.isOwned = false := by
  have mem : party ∈ legs.filter (!·.isOwned) := by
    rw [h]
    exact List.mem_cons_self
  simpa using (List.mem_filter.1 mem).2

/-- An expense moves what it spends, out of the accounts. -/
theorem flow_of_expense (h : d.expense = .ok b) {t : Transaction} (mem : t ∈ b.transactions) :
    t.moved = t.gained := by
  obtain ⟨payee, outside, negative, transactions⟩ := expense_ok h
  rw [transactions] at mem
  obtain rfl := List.mem_singleton.1 mem
  have payeeOutside := isOwned_of_filter_eq outside
  have nonpos : Leg.net (d.legs.filter Leg.isOwned) ≤ 0 := by
    refine Leg.net_nonpos fun leg mem => ?_
    obtain ⟨mem, owned⟩ := List.mem_filter.1 mem
    exact negative leg mem owned
  show Leg.net (d.legs.filter Leg.isOwned ++ [payee])
    = 0 - (Leg.net (d.legs.filter Leg.isOwned)).natAbs - 0
  rw [Leg.net_append, Leg.net_of_not_owned payeeOutside]
  omega

/-- A revenue in which no account gives money moves what it earns, into the accounts. -/
theorem flow_of_revenue (h : d.revenue = .ok b) {t : Transaction} (mem : t ∈ b.transactions)
    (giving : ∀ leg ∈ t.legs, leg.isOwned = true → ¬ leg.value < .zero) : t.moved = t.gained := by
  obtain ⟨payer, outside, transactions⟩ := revenue_ok h
  rw [transactions] at mem
  obtain rfl := List.mem_singleton.1 mem
  have payerOutside := isOwned_of_filter_eq outside
  -- No account gives, so only the payer is on the way in.
  have noSource : (d.legs.filter Leg.isOwned).filter (fun leg => decide (leg.value < .zero)) = [] := by
    refine List.filter_eq_nil_iff.2 fun leg mem negative => ?_
    have inLegs : leg ∈ (d.toTransaction .revenue
        ((d.legs.filter Leg.isOwned).filter (fun leg => decide (leg.value < .zero)) ++ [payer])
        ((d.legs.filter Leg.isOwned).filter fun leg => !decide (leg.value < .zero))).legs :=
      List.mem_append_left _ (List.mem_append_left _ (List.mem_filter.2 ⟨mem, negative⟩))
    exact giving leg inLegs (List.mem_filter.1 mem).2 (of_decide_eq_true negative)
  rw [noSource]
  show Leg.net ([payer] ++ _) = Leg.net _ - 0 - 0
  rw [Leg.net_append, Leg.net_of_not_owned payerOutside]
  omega

/-! ### Transfers -/

/-- No sum is rounded when a draft is booked as a transfer: not of the legs with the fee, where these are
in one currency, and not of the first source with the fee, where that is split off. -/
structure IsExact (d : Draft) : Prop where
  balance : d.currencies.length = 1 →
    Decimal.AddsExactly .zero (d.legs.map Leg.value ++ [d.feeAmount])
  split : d.tags.shares? = none →
    ∀ source ∈ d.sources.head?, Decimal.AddsExactly source.value [d.feeAmount]

instance (d : Draft) : Decidable d.IsExact :=
  decidable_of_iff
    ((d.currencies.length = 1 → Decimal.AddsExactly .zero (d.legs.map Leg.value ++ [d.feeAmount])) ∧
      (d.tags.shares? = none →
        ∀ source ∈ d.sources.head?, Decimal.AddsExactly source.value [d.feeAmount]))
    ⟨fun h => ⟨h.1, h.2⟩, fun h => ⟨h.balance, h.split⟩⟩

/-- A transfer that balances exactly moves the fee out of the accounts. -/
theorem net_of_checkBalanced {currency : Currency} {u : Unit} (complete : ∀ leg ∈ d.legs, leg.Complete)
    (owned : ∀ leg ∈ d.legs, leg.isOwned = true) (single : d.currencies.length = 1) (exact : d.IsExact)
    (h : d.checkBalanced currency = .ok u) :
    Leg.net (d.sources ++ d.targets) = - d.feeAmount.units := by
  obtain ⟨left, sum, isZero⟩ := checkBalanced_ok h
  have total := Decimal.units_of_sum (exact.balance single) sum
  rw [Decimal.isZero_iff.1 isZero, Decimal.unitsOf_append,
    ← Leg.net_eq_unitsOf_values complete owned] at total
  have sides : (d.sources ++ d.targets).Perm d.legs :=
    List.filter_append_perm (fun leg : Leg => decide (leg.value < .zero)) d.legs
  rw [Leg.net_perm sides]
  rw [Decimal.unitsOf_cons, Decimal.unitsOf_nil] at total
  omega

theorem flow_of_shareTransfer {shares : ShareCount} (complete : ∀ leg ∈ d.legs, leg.Complete)
    (owned : ∀ leg ∈ d.legs, leg.isOwned = true) (exact : d.IsExact)
    (h : d.shareTransfer shares = .ok b) {t : Transaction} (mem : t ∈ b.transactions) :
    t.moved = t.gained := by
  obtain ⟨source, target, _, _, sources, targets, _, _, _, single, _, _, balanced, transactions⟩ :=
    shareTransfer_ok h
  rw [transactions] at mem
  obtain rfl := List.mem_singleton.1 mem
  have net := net_of_checkBalanced complete owned single exact balanced
  rw [sources, targets] at net
  show Leg.net ([source] ++ [target]) = 0 - 0 - d.feeAmount.units
  omega

theorem length_currencies {currency : Currency} (nonempty : d.legs ≠ [])
    (same : ∀ leg ∈ d.legs, leg.currency? = some currency) : d.currencies.length = 1 := by
  obtain ⟨first, rest, legs⟩ := List.exists_cons_of_ne_nil nonempty
  have only (c : Currency) : (d.legs.any fun leg => decide (leg.currency? = some c))
      = decide (currency = c) := by
    by_cases here : currency = c
    · have mem : first ∈ d.legs := legs ▸ List.mem_cons_self
      rw [decide_eq_true here, List.any_eq_true]
      exact ⟨first, mem, decide_eq_true (by rw [same first mem, here])⟩
    · rw [decide_eq_false here, List.any_eq_false]
      intro leg mem given
      have given := of_decide_eq_true given
      rw [same leg mem] at given
      exact here (Option.some.inj given)
  rw [currencies]
  simp only [only]
  cases currency <;> rfl

/-- A draft has one currency if its sources and targets have. -/
theorem length_currencies_of_isIn {currency : Currency} {source : Leg} {sources : List Leg}
    {account : AccountRef} {money : Money} (complete : ∀ leg ∈ d.legs, leg.Complete)
    (owned : ∀ leg ∈ d.legs, leg.isOwned = true) (first : d.sources = source :: sources)
    (posted : source.posting? = some (account, money)) (sourceKept : money.currency = currency)
    (othersKept : ∀ leg ∈ sources ++ d.targets, leg.IsIn currency) : d.currencies.length = 1 := by
  have sides : (source :: (sources ++ d.targets)).Perm d.legs := by
    rw [← List.cons_append, ← first]
    exact List.filter_append_perm (fun leg : Leg => decide (leg.value < .zero)) d.legs
  apply length_currencies (List.ne_nil_of_mem (sides.mem_iff.1 List.mem_cons_self))
  intro leg mem
  rcases List.mem_cons.1 (sides.mem_iff.2 mem) with rfl | other
  · rw [Leg.currency?_of_posting? posted, sourceKept]
  · obtain ⟨a, m, posted⟩ := (complete leg mem).exists_posting? (owned leg mem)
    rw [Leg.currency?_of_posting? posted, othersKept leg other a m posted]

theorem feeAmount_of_tagged {fee : Money} (tagged : d.tags.fee? = some fee) : d.feeAmount = fee.amount := by
  rw [feeAmount, tagged]
  rfl

theorem units_feeAmount_of_isZero (free : ∀ fee, d.tags.fee? = some fee → fee.isZero = true) :
    d.feeAmount.units = 0 := by
  rw [feeAmount]
  cases tagged : d.tags.fee? with
  | none => rfl
  | some fee => exact Decimal.isZero_iff.1 (free fee tagged)

theorem flow_of_feeExpense {fee : Money} (positive : ¬ fee.amount < .zero) (intermediary : String)
    (account : AccountRef) (location : Location) :
    (d.feeExpense fee intermediary account location).moved
      = (d.feeExpense fee intermediary account location).gained := by
  have source : Leg.net [.onAccount account fee.neg location] = - fee.amount.units := by
    rw [Leg.net_of_posting? (Leg.posting?_onAccount _ _ _)]
    exact Decimal.units_neg _
  have payee : Leg.net [.outside intermediary d.location] = 0 := Leg.net_of_not_owned rfl
  have positive : 0 ≤ fee.amount.units := Int.not_lt.1 positive
  show Leg.net ([.onAccount account fee.neg location] ++ [.outside intermediary d.location])
    = 0 - (Leg.net [.onAccount account fee.neg location]).natAbs - 0
  rw [Leg.net_append, source, payee]
  omega

/-- A transfer of cash in one currency moves nothing over all accounts, apart from its fee. -/
theorem flow_of_cashTransfer {currency : Currency} (complete : ∀ leg ∈ d.legs, leg.Complete)
    (owned : ∀ leg ∈ d.legs, leg.isOwned = true) (untagged : d.tags.shares? = none) (exact : d.IsExact)
    (h : d.cashTransfer = .ok b) {t : Transaction} (mem : t ∈ b.transactions)
    (kept : ∀ leg ∈ t.countedLegs, leg.IsIn currency) : t.moved = t.gained := by
  obtain ⟨source, sources, account, money, first, _, posted, fee, balance, booked⟩ := cashTransfer_ok h
  -- The first source may be booked at another amount, but in the currency and beside the legs it had.
  have balanced (sourceKept : money.currency = currency)
      (othersKept : ∀ leg ∈ sources ++ d.targets, leg.IsIn currency) :
      money.amount.units + Leg.net (sources ++ d.targets) = - d.feeAmount.units := by
    have single := length_currencies_of_isIn complete owned first posted sourceKept othersKept
    have net := net_of_checkBalanced complete owned single exact (balance single)
    rwa [first, List.cons_append, Leg.net_cons, Leg.net_of_posting? posted] at net
  rcases booked with ⟨free, transactions⟩ | ⟨paid, rest, intermediary, tagged, _, sum, transactions⟩
  · rw [transactions] at mem
    obtain rfl := List.mem_singleton.1 mem
    have net := balanced (kept source List.mem_cons_self account money posted)
      fun leg mem => kept leg (List.mem_cons_of_mem _ mem)
    rw [units_feeAmount_of_isZero free] at net
    show Leg.net (source :: (sources ++ d.targets)) = 0 - 0 - 0
    rw [Leg.net_cons, Leg.net_of_posting? posted]
    omega
  · rw [transactions] at mem
    rcases List.mem_cons.1 mem with rfl | mem
    · have owner := (Leg.of_posting? posted).1
      have posted' : Leg.posting? { source with money := some ⟨rest, money.currency⟩ }
          = some (account, ⟨rest, money.currency⟩) := by
        rw [Leg.posting?]
        simp only [owner]
      have net := balanced (kept _ List.mem_cons_self account ⟨rest, money.currency⟩ posted')
        fun leg mem => kept leg (List.mem_cons_of_mem _ mem)
      have amount : d.feeAmount = paid.amount := by
        rw [feeAmount, tagged]
        rfl
      have split : rest.units = money.amount.units + paid.amount.units := by
        have exact := exact.split untagged source (by rw [first]; rfl)
        rw [Leg.value_of_posting? posted, amount] at exact
        exact (exact rest sum).1
      rw [amount] at net
      show Leg.net ({ source with money := some ⟨rest, money.currency⟩ } :: (sources ++ d.targets))
        = 0 - 0 - 0
      rw [Leg.net_cons, Leg.net_of_posting? posted']
      show rest.units + _ = _
      omega
    · obtain rfl := List.mem_singleton.1 mem
      exact flow_of_feeExpense (checkFee_ok fee tagged).1 intermediary account source.location

end Draft

/-! ### Statements -/

theorem flow_of_dividend (now : Timestamp) (d : DividendDraft) (money : Money) :
    totalOf now Transaction.moved ((d.book money).transactions.map .transaction)
      = totalOf now Transaction.gained ((d.book money).transactions.map .transaction) := by
  have pair (paid mirror : Transaction) (date : mirror.effectiveDate = paid.effectiveDate)
      (same : paid.moved + mirror.moved = paid.gained + mirror.gained) :
      totalOf now Transaction.moved [.transaction paid, .transaction mirror]
        = totalOf now Transaction.gained [.transaction paid, .transaction mirror] := by
    rw [totalOf_pair date, totalOf_pair date, same]
  refine pair _ _ rfl ?_
  show Leg.net [d.cash] + Leg.net [] = (0 - 0 - 0) + (Leg.net [d.cash] - 0 - 0)
  rw [Leg.net_nil]
  omega

/-- **The flow of one statement**: over its transactions that count, balances gain what is earned, less
what is spent and less the fee of a trade. -/
theorem flow_of_items {now : Timestamp} {currency : Currency} {w : Written} {block : List Item}
    (complete : w.Complete) (exact : ∀ d, w = .transfer d → d.IsExact) (h : w.items = .ok block)
    (giving : ∀ t, .transaction t ∈ block → t.effectiveDate ≤ now → t.kind = .revenue →
      t.origin ≠ .dividendRevenue → ∀ leg ∈ t.legs, leg.isOwned = true → ¬ leg.value < .zero)
    (kept : ∀ t, .transaction t ∈ block → t.effectiveDate ≤ now →
      ∀ leg ∈ t.countedLegs, leg.IsIn currency) :
    totalOf now Transaction.moved block = totalOf now Transaction.gained block := by
  cases w with
  | item i =>
    cases h
    refine totalOf_congr fun t mem _ => ?_
    exact absurd (List.mem_singleton.1 mem).symm (complete t)
  | expense d =>
    simp only [Written.items, map_eq_ok_iff] at h
    obtain ⟨b, booked, rfl⟩ := h
    refine totalOf_congr fun t mem _ => ?_
    exact Draft.flow_of_expense booked (mem_of_mem_map_transaction mem)
  | revenue d =>
    simp only [Written.items, map_eq_ok_iff] at h
    obtain ⟨b, booked, rfl⟩ := h
    refine totalOf_congr fun t mem counts => ?_
    have transaction : t ∈ b.transactions := mem_of_mem_map_transaction mem
    obtain ⟨payer, _, transactions⟩ := Draft.revenue_ok booked
    have shape := transaction
    rw [transactions] at shape
    have kind : t.kind = .revenue := by rw [List.mem_singleton.1 shape]; rfl
    have origin : t.origin ≠ .dividendRevenue := by
      rw [List.mem_singleton.1 shape]
      intro mirror
      cases mirror
    exact Draft.flow_of_revenue booked transaction (giving t mem counts kind origin)
  | transfer d =>
    simp only [Written.items, map_eq_ok_iff] at h
    obtain ⟨b, booked, rfl⟩ := h
    obtain ⟨owned, _, ⟨shares, _, traded⟩ | ⟨untagged, moved⟩⟩ := Draft.transfer_ok booked
    · refine totalOf_congr fun t mem _ => ?_
      exact Draft.flow_of_shareTransfer complete owned (exact d rfl) traded (mem_of_mem_map_transaction mem)
    · refine totalOf_congr fun t mem counts => ?_
      have transaction : t ∈ b.transactions := mem_of_mem_map_transaction mem
      exact Draft.flow_of_cashTransfer complete owned untagged (exact d rfl) moved transaction
        (kept t mem counts)
  | dividend d =>
    simp only [Written.items, map_eq_ok_iff] at h
    obtain ⟨money, _, rfl⟩ := h
    exact flow_of_dividend now d money

theorem flow_of_allItems {now : Timestamp} {currency : Currency} {ws : List Written} {items : List Item}
    (complete : ∀ w ∈ ws, w.Complete) (exact : ∀ d, .transfer d ∈ ws → d.IsExact)
    (h : Written.allItems ws = .ok items)
    (giving : ∀ t, .transaction t ∈ items → t.effectiveDate ≤ now → t.kind = .revenue →
      t.origin ≠ .dividendRevenue → ∀ leg ∈ t.legs, leg.isOwned = true → ¬ leg.value < .zero)
    (kept : ∀ t, .transaction t ∈ items → t.effectiveDate ≤ now →
      ∀ leg ∈ t.countedLegs, leg.IsIn currency) :
    totalOf now Transaction.moved items = totalOf now Transaction.gained items := by
  induction ws generalizing items with
  | nil =>
    cases h
    rfl
  | cons w rest ih =>
    simp only [Written.allItems, bind_eq_ok_iff, Except.ok.injEq] at h
    obtain ⟨block, booked, more, later, rfl⟩ := h
    have first := flow_of_items (complete w List.mem_cons_self)
      (fun d same => exact d (same ▸ List.mem_cons_self)) booked
      (fun t mem => giving t (List.mem_append_left _ mem))
      (fun t mem => kept t (List.mem_append_left _ mem))
    have second := ih (fun w mem => complete w (List.mem_cons_of_mem _ mem))
      (fun d mem => exact d (List.mem_cons_of_mem _ mem)) later
      (fun t mem => giving t (List.mem_append_right _ mem))
      (fun t mem => kept t (List.mem_append_right _ mem))
    rw [totalOf_append, totalOf_append, first, second]

/-- **The flow of a journal**: over all of its transactions that count, balances gain what is earned, less
what is spent and less the fees of trades. -/
theorem flow_of_parse {lines : List Line} {j : Journal} {now : Timestamp} {currency : Currency}
    (h : Journal.parse lines = .ok j) (exact : ∀ d, .transfer d ∈ Journal.written lines → d.IsExact)
    (giving : ∀ t, .transaction t ∈ j.items → t.effectiveDate ≤ now → t.kind = .revenue →
      t.origin ≠ .dividendRevenue → ∀ leg ∈ t.legs, leg.isOwned = true → ¬ leg.value < .zero)
    (kept : ∀ t, .transaction t ∈ j.items → t.effectiveDate ≤ now →
      ∀ leg ∈ t.countedLegs, leg.IsIn currency) :
    totalOf now Transaction.moved j.items = totalOf now Transaction.gained j.items :=
  flow_of_allItems (fun _ => complete_of_mem_written) exact (allItems_written h) giving kept

end Daybook
