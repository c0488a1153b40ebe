import Daybook.Proofs.Journal.Booked
import Daybook.Proofs.Replay.Chronology
import Daybook.Proofs.Replay.History

/-!
# The replay follows the histories

Applying an item does to an account what the item says of it, and nothing else (`evolves_of_apply`). So
what the replay of all items does to an account is the account's history (`evolves_of_foldTelling`).
-/

namespace Daybook

/-! ### What has been checked -/

namespace Books

variable {b b' : Books} {a account : AccountRef} {location : Location} {company : String}

/-- An account that passes the check is there, in the currency. -/
theorem check_ok {currency : Currency} {found : Account}
    (h : b.check account currency location = .ok found) :
    b.accounts.get? account = some found ∧ found.currency = currency := by
  simp only [check, Registry.lookup, bind_eq_ok_iff, orError_eq_ok_iff] at h
  obtain ⟨_, known, h⟩ := h
  split at h
  · next same =>
    cases h
    exact ⟨known, same⟩
  · cases h

theorem checkPosition_ok {found : Account} (h : b.checkPosition account company location = .ok found) :
    b.accounts.get? account = some found ∧ (b.positionOf? account company).isSome := by
  simp only [checkPosition, Registry.lookup, bind_eq_ok_iff, orError_eq_ok_iff] at h
  obtain ⟨_, known, h⟩ := h
  split at h
  · next p holds =>
    cases h
    rw [positionOf?_of_get? known, holds]
    exact ⟨known, rfl⟩
  · cases h

/-- Entries that pass the checks name known accounts, and prices of what is held. -/
theorem checkEntries_ok {entries : List BalanceEntry} (h : b.checkEntries entries = .ok ()) :
    ∀ e ∈ entries, (∃ found, b.accounts.get? e.account = some found) ∧
      ∀ company price, e.assertion = .sharePrice company price →
        (b.positionOf? e.account company).isSome := by
  induction entries with
  | nil =>
    intro e mem
    cases mem
  | cons e rest ih =>
    simp only [checkEntries, bind_eq_ok_iff] at h
    obtain ⟨_, checked, h⟩ := h
    intro e' mem
    rcases List.mem_cons.1 mem with rfl | mem
    · rw [checkEntry] at checked
      split at checked
      · next money cash =>
        obtain ⟨found, ok, _⟩ := bind_eq_ok_iff.1 checked
        refine ⟨⟨found, (check_ok ok).1⟩, fun company price share => ?_⟩
        rw [cash] at share
        cases share
      · next company price share =>
        simp only [bind_eq_ok_iff] at checked
        obtain ⟨found, ok, _, holds, _⟩ := checked
        refine ⟨⟨found, (check_ok ok).1⟩, fun company' price' share' => ?_⟩
        rw [share] at share'
        cases share'
        exact (checkPosition_ok holds).2
    · exact ih h e' mem

/-! ### Assertions -/

theorem known_of_openings (same : b'.accounts.openings = b.accounts.openings)
    (known : ∃ found, b.accounts.get? account = some found) :
    ∃ found, b'.accounts.get? account = some found := by
  obtain ⟨found, known⟩ := known
  obtain ⟨found', known', _⟩ := Registry.exists_get?_of_openings same known
  exact ⟨found', known'⟩

theorem evolves_of_assertEntry {time : Timestamp} {e : BalanceEntry} {notices : List Notice}
    (known : ∃ found, b.accounts.get? e.account = some found)
    (held : e.account = a → ∀ company price, e.assertion = .sharePrice company price →
      (b.positionOf? a company).isSome)
    (h : assertEntry time b e = .ok (b', notices)) :
    Evolves a b b' (e.replacement? a).toList fun company => (e.pricing? a company).toList := by
  rw [assertEntry] at h
  split at h
  · next money cash =>
    cases h
    obtain ⟨found, known⟩ := known
    have evolves := evolves_of_setBalance (a := a) (e := .replace money.amount) known rfl
    by_cases here : e.account = a <;>
      simpa [BalanceEntry.replacement?, BalanceEntry.pricing?, cash, here] using evolves
  · next company price share =>
    simp only [bind_eq_ok_iff, Except.ok.injEq, Prod.mk.injEq] at h
    obtain ⟨next, changed, rfl, _⟩ := h
    have evolves := evolves_of_modifyPosition (a := a) (e := .priced price.amount) changed
      fun here p set => by
        obtain ⟨before, holds⟩ := Option.isSome_iff_exists.1 (held here company price share)
        rw [here, holds] at set ⊢
        cases set
        rfl
    simpa [BalanceEntry.replacement?, BalanceEntry.pricing?, share, apply_ite Option.toList] using evolves

theorem evolves_of_assertEntries {time : Timestamp} {entries : List BalanceEntry} {notices : List Notice}
    (known : ∀ e ∈ entries, ∃ found, b.accounts.get? e.account = some found)
    (held : ∀ e ∈ entries, e.account = a → ∀ company price, e.assertion = .sharePrice company price →
      (b.positionOf? a company).isSome)
    (h : assertEntries time b entries = .ok (b', notices)) :
    Evolves a b b' (entries.filterMap (BalanceEntry.replacement? a))
      fun company => entries.filterMap (BalanceEntry.pricing? a company) := by
  induction entries generalizing b notices with
  | nil =>
    cases h
    exact .refl a _
  | cons e rest ih =>
    simp only [assertEntries, bind_eq_ok_iff, Except.ok.injEq, Prod.mk.injEq] at h
    obtain ⟨⟨next, _⟩, asserted, ⟨last, _⟩, h, rfl, _⟩ := h
    have first := evolves_of_assertEntry (a := a) (known e List.mem_cons_self)
      (held e List.mem_cons_self) asserted
    have second := ih
      (fun e' mem => known_of_openings first.openings (known e' (List.mem_cons_of_mem _ mem)))
      (fun e' mem here company price share => first.isSome_positionOf?
        (held e' (List.mem_cons_of_mem _ mem) here company price share)) h
    simp only [filterMap_cons_eq_append]
    exact first.trans second

/-! ### Shares -/

theorem apply_traded_of_recordAt {price : Decimal} {leg : ShareLeg} {before : Option Position}
    {p : Position} (h : recordAt location price leg (before.getD .empty) = .ok p) :
    (ShareEvent.traded leg (some price)).apply before = some (some p) := by
  simp only [recordAt, bind_eq_ok_iff, orError_eq_ok_iff, Except.ok.injEq] at h
  obtain ⟨recorded, ok, rfl⟩ := h
  simp [ShareEvent.apply, ok]

def ShareMove.toTrade (m : ShareMove) (fee : Decimal) (time : Timestamp) : Trade where
  source := m.source
  given := m.given.amount
  target := m.target
  taken := m.taken.amount
  shares := m.shares
  fee := fee
  time := time

/-- What a transfer of shares moves is between the first legs of the transaction. -/
theorem trade?_of_ofTransaction {t : Transaction} {m : ShareMove} (kind : t.kind = .equity)
    (h : ShareMove.ofTransaction t = .ok m) :
    t.trade? = some (m.toTrade ((t.tags.fee?.map Money.amount).getD .zero) t.effectiveDate) ∧
      t.ins.head?.bind Leg.posting? = some (m.source, m.given) ∧
      t.outs.head?.bind Leg.posting? = some (m.target, m.taken) := by
  rw [ShareMove.ofTransaction] at h
  simp only [bind_eq_ok_iff, orError_eq_ok_iff] at h
  obtain ⟨shares, tagged, h⟩ := h
  split at h
  · next sourceLeg _ targetLeg _ ins outs =>
    simp only [bind_eq_ok_iff, orError_eq_ok_iff, Except.ok.injEq] at h
    obtain ⟨⟨source, given⟩, gives, ⟨target, taken⟩, takes, rfl⟩ := h
    simp [Transaction.trade?, kind, ins, outs, gives, takes, tagged, ShareMove.toTrade]
  · cases h

/-- The legs of an exchange, each as an event of its own. -/
theorem shareEvents_of_move {t : Transaction} {m : ShareMove} {fee price : Decimal} (kind : t.kind = .equity)
    (trade : t.trade? = some (m.toTrade fee t.effectiveDate)) (worth : m.price? = some price)
    (rates : Basket) (currency : Currency) (a : AccountRef) (company : String) :
    t.shareEvents rates currency a company
      = (if m.holder = a ∧ m.shares.company = company then
          [.traded ⟨m.value, m.shares.count, fee, t.effectiveDate⟩ (some price)] else [])
        ++ if (m.toTrade fee t.effectiveDate).mover? = some a ∧ m.shares.company = company then
          [.traded ⟨m.value, m.shares.count.neg, .zero, t.effectiveDate⟩ (some price)] else [] := by
  have worth : (m.toTrade fee t.effectiveDate).price? = some price := worth
  rw [Transaction.shareEvents_of_trade kind trade, worth]
  show (if m.shares.company = company then _ else _) = _
  by_cases same : m.shares.company = company
  · simp only [same, Trade.legsOn, List.map_append, apply_ite (List.map _), if_true, and_true]
    rfl
  · simp [same]

/-- A transfer of shares changes the balances by its two legs, and the positions as the exchange says. -/
theorem evolves_of_equity {t : Transaction} {notices : List Notice} (kind : t.kind = .equity)
    (regular : t.Regular) (h : b.equity t = .ok (b', notices)) (rates : Basket) (currency : Currency) :
    Evolves a b b' (Leg.effectsOn a t.countedLegs)
      fun company => t.shareEvents rates currency a company := by
  simp only [equity, bind_eq_ok_iff, orError_eq_ok_iff] at h
  obtain ⟨m, move, price, worth, b₁, given, b₂, taken, b₃, holder, h⟩ := h
  obtain ⟨trade, gives, takes⟩ := trade?_of_ofTransaction kind move
  generalize (t.tags.fee?.map Money.amount).getD .zero = fee at trade holder
  obtain ⟨sourceLeg, targetLeg, ins, outs⟩ := regular.equity kind
  rw [ins] at gives
  rw [outs] at takes
  -- In the order of the steps: the cash, the shares of the holder, and those of an account they leave.
  have cash := (evolves_of_credit (a := a) given).trans (evolves_of_credit (a := a) taken)
  have first := evolves_of_modifyPosition (a := a) holder fun _ _ set => apply_traded_of_recordAt set
  have second : Evolves a b₃ b' [] fun company =>
      if (m.toTrade fee t.effectiveDate).mover? = some a ∧ m.shares.company = company then
        [.traded ⟨m.value, m.shares.count.neg, .zero, t.effectiveDate⟩ (some price)]
      else [] := by
    split at h
    · next between =>
      simp only [bind_eq_ok_iff, Except.ok.injEq, Prod.mk.injEq] at h
      obtain ⟨_, mover, rfl, _⟩ := h
      have := evolves_of_modifyPosition (a := a) mover fun _ _ set => apply_traded_of_recordAt set
      simp only [ShareMove.isBetweenHolders, Bool.and_eq_true, decide_eq_true_eq] at between
      simpa [Trade.mover?, ShareMove.toTrade, between] using this
    · next single =>
      cases h
      simp only [ShareMove.isBetweenHolders, Bool.and_eq_true, decide_eq_true_eq] at single
      simpa [Trade.mover?, ShareMove.toTrade, single] using Evolves.refl a _
  have balances : Leg.effectsOn a t.countedLegs = (if m.source = a then [.add m.given.amount] else [])
      ++ if m.target = a then [.add m.taken.amount] else [] := by
    rw [Transaction.countedLegs, kind]
    simp only [Transaction.legs]
    rw [ins, outs, Leg.effectsOn_append, Leg.effectsOn_of_posting? gives, Leg.effectsOn_of_posting? takes]
  have shares (company : String) := shareEvents_of_move kind trade worth rates currency a company
  simpa [balances, shares] using cash.trans (first.trans second)

/-! ### Dividends -/

theorem currency_of_openings {currency : Currency} {found : Account}
    (kept : ∀ o ∈ b.accounts.openings, o.account = a → o.balance.currency = currency)
    (known : b.accounts.get? a = some found) : found.currency = currency :=
  kept found.opening (List.mem_map_of_mem (Registry.mem_of_get? known))
    (Registry.reference_of_get? known)

/-- A dividend adds its cash to a balance, and what it is worth to the earnings of a position. -/
theorem evolves_of_dividend {t : Transaction} {currency : Currency} (kind : t.kind = .dividend company)
    (regular : t.Regular) (h : b.dividend t company = .ok b')
    (kept : ∀ o ∈ b.accounts.openings, o.account = a → o.balance.currency = currency) :
    Evolves a b b' (Leg.effectsOn a t.countedLegs)
      fun c => t.shareEvents b.basket currency a c := by
  obtain ⟨sourceLeg, cashLeg, ins, outs⟩ := regular.dividend company kind
  simp only [dividend, ins, outs, bind_eq_ok_iff, orError_eq_ok_iff, mapError_eq_ok_iff,
    List.head?_cons, Option.some.injEq] at h
  obtain ⟨source, pays, _, rfl, ⟨account, money⟩, takes, _, _, holder, checked, earned, worth, b₁,
    credited, h⟩ := h
  obtain ⟨known, held⟩ := checkPosition_ok checked
  have cash := evolves_of_credit (a := a) credited
  -- The position earns after the cash has been added, which leaves positions as they are.
  have untouched : b₁.positionOf? source company = b.positionOf? source company :=
    (Option.some.inj ((evolves_of_credit credited).positions company)).symm
  have earning := evolves_of_modifyPosition (a := a) (e := .earned (some earned.amount)) h
    fun _ p added => by
      rw [untouched] at added ⊢
      obtain ⟨before, holds⟩ := Option.isSome_iff_exists.1 held
      rw [holds] at added ⊢
      have added : before.addDividend earned.amount = some p := orError_eq_ok_iff.1 added
      simp [ShareEvent.apply, added]
  have balances : Leg.effectsOn a t.countedLegs = if account = a then [.add money.amount] else [] := by
    rw [Transaction.countedLegs, kind]
    simp only
    rw [outs, Leg.effectsOn_of_posting? takes]
  have shares (c : String) : t.shareEvents b.basket currency a c
      = if source = a ∧ company = c then [.earned (some earned.amount)] else [] := by
    have payment : t.dividend? = some (source, company, money) := by
      simp only [Option.bind_some] at pays
      simp [Transaction.dividend?, kind, ins, outs, pays, takes]
    rw [Transaction.shareEvents_of_dividend kind payment]
    split
    · next here =>
      obtain ⟨rfl, rfl⟩ := here
      rw [currency_of_openings kept known] at worth
      simp only [worth, Except.toOption, Option.map_some]
    · rfl
  simpa [balances, shares] using cash.trans earning

/-! ### Items -/

theorem evolves_of_transaction {t : Transaction} {currency : Currency} {notices : List Notice}
    (regular : t.Regular) (h : b.transaction t = .ok (b', notices))
    (kept : ∀ o ∈ b.accounts.openings, o.account = a → o.balance.currency = currency) :
    Evolves a b b' (Leg.effectsOn a t.countedLegs)
      fun c => t.shareEvents b.basket currency a c := by
  cases applied_of_transaction h with
  | mirror mirror =>
    have kind := regular.mirror mirror
    simpa [Transaction.countedLegs, kind, mirror, Transaction.shareEvents_of_cash, Leg.effectsOn]
      using Evolves.refl a _
  | cash direct noTrade noDividend _ credited =>
    rw [Transaction.countedLegs_of_direct direct noDividend]
    simp only [Transaction.shareEvents_of_cash noTrade noDividend]
    exact evolves_of_creditLegs credited
  | equity _ kind _ traded => exact evolves_of_equity kind regular traded b.basket currency
  | dividend _ kind paid => exact evolves_of_dividend kind regular paid kept

/-- **One item does what it says**: it sets its rates, and if it counts already it changes the balance and
the positions of an account by what it says of them. -/
theorem evolves_of_apply {o : Options} {i : Item} {currency : Currency} {notices : List Notice}
    (regular : ∀ t, i = .transaction t → t.Regular) (h : apply o b i = .ok (b', notices))
    (kept : ∀ o ∈ b.accounts.openings, o.account = a → o.balance.currency = currency) :
    Evolves a (b.quoting (i.ratesAfter o b.basket)) b'
      (if i.effectiveDate ≤ o.now then i.balanceEffects a else [])
      fun c => if i.effectiveDate ≤ o.now then i.shareEvents b.basket currency a c else [] := by
  cases i with
  | rates r =>
    simp only [apply, setRates, Except.ok.injEq] at h
    split at h
    · next gated =>
      cases h
      simp only [Item.ratesAfter, gated, Item.balanceEffects, Item.shareEvents, ite_self]
      exact .refl a _
    · next free =>
      cases h
      simp only [Item.ratesAfter, free, Item.balanceEffects, Item.shareEvents, ite_self]
      exact .refl a _
  | balance s =>
    rw [apply] at h
    split at h
    · next late =>
      cases h
      have : ¬ s.timestamp ≤ o.now := fun early => Timestamp.not_lt.2 early late
      simpa [Item.ratesAfter, Item.effectiveDate, Item.timestamp, this] using Evolves.refl a _
    · next counts =>
      simp only [balance, bind_eq_ok_iff] at h
      obtain ⟨_, checked, h⟩ := h
      have known := checkEntries_ok checked
      have := evolves_of_assertEntries (a := a) (fun e mem => (known e mem).1)
        (fun e mem here company price share => here ▸ (known e mem).2 company price share) h
      simpa [Item.ratesAfter, Item.effectiveDate, Item.timestamp, Timestamp.not_lt.1 counts,
        Item.balanceEffects, Item.shareEvents] using this
  | transaction t =>
    rw [apply] at h
    split at h
    · next late =>
      cases h
      have : ¬ t.effectiveDate ≤ o.now := fun early => Timestamp.not_lt.2 early late
      simpa [Item.ratesAfter, Item.effectiveDate, this] using Evolves.refl a _
    · next counts =>
      have := evolves_of_transaction (regular t rfl) h kept
      simpa [Item.ratesAfter, Item.effectiveDate, Timestamp.not_lt.1 counts,
        Item.balanceEffects, Item.shareEvents] using this
  | _ =>
    cases h
    simp only [Item.ratesAfter, Item.balanceEffects, Item.shareEvents, quoting_basket, ite_self]
    exact .refl a _

/-- Nothing that is replayed opens an account. -/
theorem openings_of_apply {o : Options} {i : Item} {notices : List Notice}
    (regular : ∀ t, i = .transaction t → t.Regular) (h : apply o b i = .ok (b', notices)) :
    b'.accounts.openings = b.accounts.openings := by
  -- The openings are the same seen from any account, so look from one that may not even be there.
  obtain ⟨currency, kept⟩ := b.accounts.exists_currency ⟨.asset, ""⟩
  exact (evolves_of_apply regular h kept).openings

/-! ### All items -/

/-- **The replay does to an account what its items say**, one after the other. -/
theorem evolves_of_foldTelling {o : Options} {items : List Item} {currency : Currency}
    (regular : ∀ t, .transaction t ∈ items → t.Regular)
    (run : (foldTelling (apply o) b items).result = .ok b')
    (kept : ∀ o ∈ b.accounts.openings, o.account = a → o.balance.currency = currency) :
    Evolves a (b.quoting b'.basket) b' (balanceHistory o.now a items)
      fun c => shareHistory o b.basket currency a c items := by
  induction items generalizing b with
  | nil =>
    cases run
    exact .refl a _
  | cons i rest ih =>
    obtain ⟨next, notices, applied, run⟩ := result_foldTelling_cons.1 run
    have step := evolves_of_apply (a := a)
      (fun t same => regular t (same ▸ List.mem_cons_self)) applied kept
    have later := ih (fun t mem => regular t (List.mem_cons_of_mem _ mem)) run
      (by rw [step.openings]; exact kept)
    have rates : next.basket = i.ratesAfter o b.basket := step.basket
    have both := (step.quoting b'.basket).trans later
    rw [rates, Books.quoting_quoting, ← balanceHistory_cons] at both
    simp only [← shareHistory_cons] at both
    exact both

theorem openings_of_foldTelling {o : Options} {items : List Item}
    (regular : ∀ t, .transaction t ∈ items → t.Regular)
    (run : (foldTelling (apply o) b items).result = .ok b') :
    b'.accounts.openings = b.accounts.openings := by
  refine foldTelling_induction (motive := fun _ s => s.accounts.openings = b.accounts.openings) run rfl ?_
  intro done i s s' notices mem same applied
  rw [openings_of_apply (fun t isItem => regular t (isItem ▸ mem)) applied, same]

/-- What counts has been applied, to books with the accounts from before the replay. -/
theorem exists_transaction_of_foldTelling {o : Options} {items : List Item}
    (regular : ∀ t, .transaction t ∈ items → t.Regular)
    (run : (foldTelling (apply o) b items).result = .ok b') {t : Transaction}
    (mem : .transaction t ∈ items) (counts : t.effectiveDate ≤ o.now) :
    ∃ (s next : Books) (notices : List Notice), s.accounts.openings = b.accounts.openings ∧
      s.transaction t = .ok (next, notices) := by
  obtain ⟨done, rest, s, next, notices, rfl, before, applied⟩ := exists_of_mem_foldTelling run mem
  rw [apply, if_neg (Timestamp.not_lt.2 counts)] at applied
  refine ⟨s, next, notices, ?_, applied⟩
  apply openings_of_foldTelling _ before
  intro t inDone
  exact regular t (List.mem_append_left _ inDone)

end Books

end Daybook
