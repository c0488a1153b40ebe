import Daybook.Proofs.Replay.Balance

/-!
# The position of one account in one company

Positions are written by purchases, sales, moves, dividends and prices, and are made where they are first
needed. What a position records in the end is known from its events alone: its legs are those of the
trades on its account, and all its totals are sums over events (`position_eq_of_history`). Only a trade
makes a position.
-/

namespace Daybook

/-! ### What events say -/

namespace ShareEvent

def leg? : ShareEvent → Option ShareLeg
  | traded leg _ => some leg
  | _ => none

/-- The amount of a dividend, which is missing where it could not be worked out. -/
def earning? : ShareEvent → Option (Option Decimal)
  | earned amount => some amount
  | _ => none

/-- The price that an event makes known, which is missing where it could not be worked out. -/
def price? : ShareEvent → Option (Option Decimal)
  | traded _ price => some price
  | earned _ => none
  | priced price => some (some price)

end ShareEvent

/-- A sum with one more value is the sum, with the value added. -/
theorem Decimal.sum_append_singleton {values : List Decimal} {total next : Decimal} {value : Decimal}
    (h : sum values = some total) (added : total.add value = some next) :
    sum (values ++ [value]) = some next := by
  rw [sum, List.foldlM_append]
  rw [sum] at h
  rw [h]
  show [value].foldlM add total = some next
  rw [List.foldlM_cons, added]
  rfl

/-- A position sums events up: its legs are theirs, and its totals are the sums over them from left to
right. -/
structure Position.Sums (p : Position) (events : List ShareEvent) : Prop where
  legs : p.legs = events.filterMap ShareEvent.leg?
  held : Decimal.sum (p.legs.map ShareLeg.shares) = some p.held
  fees : Decimal.sum (p.legs.map ShareLeg.fee) = some p.fees
  dividends : ∃ amounts, events.filterMap ShareEvent.earning? = amounts.map some ∧
    Decimal.sum amounts = some p.dividends

/-- A position records events: it sums them up, and its price is the last one that they make known. -/
structure Position.Records (p : Position) (events : List ShareEvent) : Prop extends p.Sums events where
  price : (events.filterMap ShareEvent.price?).getLast? = some (some p.price)

theorem Position.Sums.empty : Position.empty.Sums [] where
  legs := rfl
  held := rfl
  fees := rfl
  dividends := ⟨[], rfl, rfl⟩

namespace Position.Records

variable {p p' : Position} {events : List ShareEvent}

/-- The derived figures of a position record nothing. -/
theorem of_recorded (h : p.Records events) (same : p'.recorded = p.recorded) : p'.Records events := by
  obtain ⟨held, _, fees, dividends, price, _, _, legs⟩ := p
  obtain ⟨held', _, fees', dividends', price', _, _, legs'⟩ := p'
  simp only [recorded, mk.injEq, true_and] at same
  obtain ⟨rfl, rfl, rfl, rfl, rfl⟩ := same
  exact ⟨⟨h.legs, h.held, h.fees, h.dividends⟩, h.price⟩

theorem traded {leg : ShareLeg} {price : Option Decimal} (before : Option Position)
    (h : (before.getD .empty).Sums events)
    (applied : (ShareEvent.traded leg price).apply before = some (some p')) :
    p'.Records (events ++ [.traded leg price]) := by
  simp only [ShareEvent.apply, Option.bind_eq_bind, Option.bind_eq_some_iff, Option.some.injEq]
    at applied
  obtain ⟨p, recorded, known, rfl, rfl⟩ := applied
  simp only [record, Option.bind_eq_bind, Option.bind_eq_some_iff, Option.some.injEq] at recorded
  obtain ⟨held, more, fees, paid, rfl⟩ := recorded
  refine ⟨⟨?_, ?_, ?_, ?_⟩, ?_⟩
  · show (before.getD .empty).legs ++ [leg] = _
    rw [h.legs, List.filterMap_append]
    rfl
  · show Decimal.sum (((before.getD .empty).legs ++ [leg]).map ShareLeg.shares) = some held
    rw [List.map_append]
    exact Decimal.sum_append_singleton h.held more
  · show Decimal.sum (((before.getD .empty).legs ++ [leg]).map ShareLeg.fee) = some fees
    rw [List.map_append]
    exact Decimal.sum_append_singleton h.fees paid
  · obtain ⟨amounts, earnings, sum⟩ := h.dividends
    refine ⟨amounts, ?_, sum⟩
    rw [List.filterMap_append, earnings]
    exact List.append_nil _
  · rw [List.filterMap_append]
    exact List.getLast?_concat

theorem next {e : ShareEvent} (h : p.Records events) (applied : e.apply (some p) = some (some p')) :
    p'.Records (events ++ [e]) := by
  cases e with
  | traded leg price => exact traded (some p) h.toSums applied
  | earned amount =>
    simp only [ShareEvent.apply, Option.bind_eq_bind, Option.bind_eq_some_iff, Option.some.injEq]
      at applied
    obtain ⟨_, rfl, known, rfl, q, added, rfl⟩ := applied
    simp only [addDividend, Option.map_eq_some_iff] at added
    obtain ⟨dividends, added, rfl⟩ := added
    refine ⟨⟨?_, h.held, h.fees, ?_⟩, ?_⟩
    · rw [List.filterMap_append]
      exact h.legs.trans (List.append_nil _).symm
    · obtain ⟨amounts, earnings, sum⟩ := h.dividends
      refine ⟨amounts ++ [known], ?_, Decimal.sum_append_singleton sum added⟩
      rw [List.filterMap_append, earnings, List.map_append]
      rfl
    · rw [List.filterMap_append]
      show (events.filterMap ShareEvent.price? ++ []).getLast? = some (some p.price)
      rw [List.append_nil]
      exact h.price
  | priced price =>
    simp only [ShareEvent.apply, Option.bind_eq_bind, Option.bind_eq_some_iff, Option.some.injEq]
      at applied
    obtain ⟨_, rfl, rfl⟩ := applied
    refine ⟨⟨?_, h.held, h.fees, ?_⟩, ?_⟩
    · rw [List.filterMap_append]
      exact h.legs.trans (List.append_nil _).symm
    · obtain ⟨amounts, earnings, sum⟩ := h.dividends
      refine ⟨amounts, ?_, sum⟩
      rw [List.filterMap_append, earnings]
      exact List.append_nil _
    · rw [List.filterMap_append]
      exact List.getLast?_concat

theorem foldlM {rest : List ShareEvent} {final : Option Position} (h : p.Records events)
    (run : rest.foldlM ShareEvent.apply (some p) = some final) :
    ∃ q, final = some q ∧ q.Records (events ++ rest) := by
  induction rest generalizing p events with
  | nil =>
    cases run
    exact ⟨p, rfl, by rwa [List.append_nil]⟩
  | cons e rest ih =>
    rw [List.foldlM_cons] at run
    obtain ⟨after, applied, run⟩ := Option.bind_eq_some_iff.1 run
    obtain ⟨q, rfl⟩ := Option.isSome_iff_exists.1 (ShareEvent.isSome_of_apply applied)
    obtain ⟨last, rfl, records⟩ := ih (h.next applied) run
    refine ⟨last, rfl, ?_⟩
    rwa [List.append_assoc] at records

end Position.Records

/-- Where there was no position, the events make one exactly if there are any, and a trade is the first of
them. The position records them all. -/
theorem records_of_foldlM {events : List ShareEvent} {final : Option Position}
    (run : events.foldlM ShareEvent.apply none = some final) :
    (final = none ∧ events = []) ∨
      ∃ p, final = some p ∧ p.Records events ∧ events.filterMap ShareEvent.leg? ≠ [] := by
  cases events with
  | nil =>
    cases run
    exact .inl ⟨rfl, rfl⟩
  | cons e rest =>
    right
    rw [List.foldlM_cons] at run
    obtain ⟨after, applied, run⟩ := Option.bind_eq_some_iff.1 run
    cases e with
    | traded leg price =>
      obtain ⟨q, rfl⟩ := Option.isSome_iff_exists.1 (ShareEvent.isSome_of_apply applied)
      have first : q.Records [.traded leg price] := Position.Records.traded none .empty applied
      obtain ⟨p, rfl, records⟩ := first.foldlM run
      exact ⟨p, rfl, records, List.cons_ne_nil _ _⟩
    -- Anything but a trade fails where nothing is held.
    | earned amount => cases applied
    | priced price => cases applied

/-! ### The legs of a history -/

/-- The exchange of shares of a company that an item is. -/
def Item.tradeIn? (company : String) : Item → Option Trade
  | transaction t => t.trade?.filter fun x => decide (x.shares.company = company)
  | _ => none

theorem Item.tradeIn?_of_trade {t : Transaction} {x : Trade} (trade : t.trade? = some x) (company : String) :
    (transaction t).tradeIn? company = if x.shares.company = company then some x else none := by
  rw [tradeIn?, trade]
  split
  · next same => exact Option.filter_eq_some_iff.2 ⟨rfl, decide_eq_true same⟩
  · next other => exact if_neg fun same => other (of_decide_eq_true same)

/-- The exchanges of shares of a company that count at a time. -/
def tradesIn (now : Timestamp) (company : String) (items : List Item) : List Trade :=
  (items.filter (Item.countsAt now)).filterMap (Item.tradeIn? company)

theorem tradesIn_cons (now : Timestamp) (company : String) (i : Item) (rest : List Item) :
    tradesIn now company (i :: rest)
      = (if i.effectiveDate ≤ now then (i.tradeIn? company).toList else []) ++
        tradesIn now company rest := by
  by_cases counts : i.effectiveDate ≤ now
  · rw [if_pos counts, tradesIn, List.filter_cons_of_pos (by exact decide_eq_true counts)]
    exact filterMap_cons_eq_append _ _ _
  · rw [if_neg counts, tradesIn, List.filter_cons_of_neg (by simpa [Item.countsAt] using counts)]
    rfl

theorem mem_tradesIn {now : Timestamp} {company : String} {items : List Item} {x : Trade} :
    x ∈ tradesIn now company items ↔ ∃ t, .transaction t ∈ items ∧ t.effectiveDate ≤ now ∧
      t.trade? = some x ∧ x.shares.company = company := by
  rw [tradesIn, List.mem_filterMap]
  constructor
  · rintro ⟨i, mem, trade⟩
    obtain ⟨mem, counts⟩ := List.mem_filter.1 mem
    cases i with
    | transaction t =>
      obtain ⟨trade, same⟩ := Option.filter_eq_some_iff.1 trade
      exact ⟨t, mem, of_decide_eq_true counts, trade, of_decide_eq_true same⟩
    | _ => cases trade
  · rintro ⟨t, mem, counts, trade, same⟩
    refine ⟨.transaction t, List.mem_filter.2 ⟨mem, decide_eq_true counts⟩, ?_⟩
    exact Option.filter_eq_some_iff.2 ⟨trade, decide_eq_true same⟩

theorem legs_of_transaction (rates : Basket) (currency : Currency) (a : AccountRef) (company : String)
    (t : Transaction) :
    (t.shareEvents rates currency a company).filterMap ShareEvent.leg?
      = ((Item.transaction t).tradeIn? company).toList.flatMap (Trade.legsOn a) := by
  have dividend : (t.dividendEvents rates currency a company).filterMap ShareEvent.leg? = [] := by
    rw [Transaction.dividendEvents]
    split
    · split <;> rfl
    · rfl
  rw [Transaction.shareEvents, List.filterMap_append, dividend, List.append_nil, Transaction.tradeEvents]
  cases trade : t.trade? with
  | none =>
    rw [Item.tradeIn?, trade]
    rfl
  | some x =>
    rw [Item.tradeIn?_of_trade trade]
    dsimp only
    split
    · rw [List.filterMap_map, Option.toList_some, List.flatMap_singleton]
      exact List.filterMap_some
    · rfl

theorem legs_of_apply {p p' : Option Position} {e : ShareEvent} (h : e.apply p = some p') :
    (p'.map Position.legs).getD [] = (p.map Position.legs).getD [] ++ e.leg?.toList := by
  cases e with
  | traded leg price =>
    simp only [ShareEvent.apply, Position.record, Option.bind_eq_bind, Option.bind_eq_some_iff, Option.some.injEq] at h
    obtain ⟨_, ⟨_, _, _, _, rfl⟩, _, _, rfl⟩ := h
    cases p <;> rfl
  | earned amount =>
    simp only [ShareEvent.apply, Position.addDividend, Option.bind_eq_bind, Option.bind_eq_some_iff,
      Option.map_eq_some_iff, Option.some.injEq] at h
    obtain ⟨_, rfl, _, _, _, ⟨_, _, rfl⟩, rfl⟩ := h
    exact (List.append_nil _).symm
  | priced price =>
    simp only [ShareEvent.apply, Option.bind_eq_bind, Option.bind_eq_some_iff, Option.some.injEq] at h
    obtain ⟨_, rfl, rfl⟩ := h
    exact (List.append_nil _).symm

theorem legs_of_foldlM {p p' : Option Position} {events : List ShareEvent}
    (run : events.foldlM ShareEvent.apply p = some p') :
    (p'.map Position.legs).getD [] = (p.map Position.legs).getD [] ++ events.filterMap ShareEvent.leg? := by
  induction events generalizing p with
  | nil =>
    cases run
    exact (List.append_nil _).symm
  | cons e rest ih =>
    rw [List.foldlM_cons] at run
    obtain ⟨next, applied, run⟩ := Option.bind_eq_some_iff.1 run
    rw [ih run, legs_of_apply applied, List.filterMap_cons, List.append_assoc]
    cases e.leg? <;> rfl

/-- The legs that the books have of an account in a company. -/
def Books.legsOf (b : Books) (a : AccountRef) (company : String) : List ShareLeg :=
  ((b.positionOf? a company).map Position.legs).getD []

/-- **A transaction adds to the legs of an account those of its trade, if it is one.** -/
theorem Books.legsOf_of_transaction {b b' : Books} {t : Transaction} {notices : List Notice} (regular : t.Regular)
    (h : b.transaction t = .ok (b', notices)) (a : AccountRef) (company : String) :
    b'.legsOf a company
      = b.legsOf a company ++ ((Item.transaction t).tradeIn? company).toList.flatMap (Trade.legsOn a) := by
  obtain ⟨currency, kept⟩ := b.accounts.exists_currency a
  have evolves := evolves_of_transaction regular h kept
  rw [legsOf, legsOf, legs_of_foldlM (evolves.positions company), legs_of_transaction]

theorem legs_of_shareEvents (rates : Basket) (currency : Currency) (a : AccountRef) (company : String)
    (i : Item) :
    (i.shareEvents rates currency a company).filterMap ShareEvent.leg?
      = (i.tradeIn? company).toList.flatMap (Trade.legsOn a) := by
  cases i with
  | transaction t => exact legs_of_transaction rates currency a company t
  | balance s =>
    show (s.entries.filterMap (BalanceEntry.pricing? a company)).filterMap ShareEvent.leg? = []
    rw [List.filterMap_filterMap, List.filterMap_eq_nil_iff]
    intro e _
    rw [BalanceEntry.pricing?]
    split
    · rfl
    · split <;> rfl
  | _ => rfl

/-- The legs of a history are those of the trades on the account. -/
theorem legs_of_shareHistory (o : Options) (rates : Basket) (currency : Currency) (a : AccountRef)
    (company : String) (items : List Item) :
    (shareHistory o rates currency a company items).filterMap ShareEvent.leg?
      = (tradesIn o.now company items).flatMap (Trade.legsOn a) := by
  induction items generalizing rates with
  | nil => rfl
  | cons i rest ih =>
    rw [shareHistory_cons, tradesIn_cons, List.filterMap_append, List.flatMap_append, ih]
    by_cases counts : i.effectiveDate ≤ o.now
    · rw [if_pos counts, if_pos counts, legs_of_shareEvents]
    · rw [if_neg counts, if_neg counts]
      rfl

/-! ### Positions of a ledger -/

theorem legsOn_ne_nil_iff {x : Trade} {a : AccountRef} :
    x.legsOn a ≠ [] ↔ x.holder = a ∨ x.mover? = some a := by
  rw [Trade.legsOn]
  by_cases holder : x.holder = a
  · simp [holder]
  · by_cases mover : x.mover? = some a <;> simp [holder, mover]

/-- There are legs on an account exactly if there was a trade on it. -/
theorem legs_ne_nil_iff {now : Timestamp} {company : String} {items : List Item} {a : AccountRef} :
    (tradesIn now company items).flatMap (Trade.legsOn a) ≠ [] ↔
      ∃ t x, .transaction t ∈ items ∧ t.effectiveDate ≤ now ∧ t.trade? = some x ∧
        x.shares.company = company ∧ (x.holder = a ∨ x.mover? = some a) := by
  rw [Ne, List.flatMap_eq_nil_iff]
  constructor
  · intro legs
    simp only [Classical.not_forall] at legs
    obtain ⟨x, mem, legs⟩ := legs
    obtain ⟨t, mem, counts, trade, same⟩ := mem_tradesIn.1 mem
    exact ⟨t, x, mem, counts, trade, same, legsOn_ne_nil_iff.1 legs⟩
  · rintro ⟨t, x, mem, counts, trade, same, here⟩ empty
    exact legsOn_ne_nil_iff.2 here (empty x (mem_tradesIn.2 ⟨t, mem, counts, trade, same⟩))

/-- Before the replay there are no positions. -/
theorem positionOf?_of_ofItems {items : List Item} {registry : Registry}
    (h : Registry.ofItems items = .ok registry) (rates : Basket) (a : AccountRef) (company : String) :
    (Books.mk registry rates).positionOf? a company = none := by
  rw [Books.positionOf?, Books.state?]
  cases found : registry.get? a with
  | none => rfl
  | some account =>
    have fresh := Registry.isFresh_of_ofItems h account (Registry.mem_of_get? found)
    rw [Account.IsFresh, Account.ofOpening] at fresh
    rw [Option.map_some, Option.bind_some, fresh]
    show (if account.opening.account.kind = .equity then some SortedMap.empty else none).bind
      (SortedMap.get? · company) = none
    split <;> rfl

/-- What an account of a ledger holds is what its history leaves, and its legs. -/
theorem position_of_foldlM {lines : List Line} {j : Journal} {o : Options} {l : Ledger}
    (read : Journal.parse lines = .ok j) (computed : (Ledger.compute o j.items).result = .ok l)
    {a : AccountRef} {account : Account} (found : l.accounts.get? a = some account) (company : String) :
    ∃ final, (account.position? company).map Position.recorded = final.map Position.recorded ∧
      (shareHistory o .empty account.currency a company (chronological j.items)).foldlM
        ShareEvent.apply none = some final := by
  obtain ⟨registry, books, opened, played, revalued, _, _⟩ := Ledger.exists_of_compute computed
  obtain ⟨currency, kept⟩ := registry.exists_currency a
  have evolves := Books.evolves_of_foldTelling (a := a)
    (fun t mem => regular_of_parse read (mem_chronological.1 mem)) played kept
  obtain ⟨before, known, same, _, positions⟩ := Registry.get?_of_revalue revalued found
  have kept' : ∀ o ∈ books.accounts.openings, o.account = a → o.balance.currency = currency := by
    rw [evolves.openings]
    exact kept
  have currency' : account.currency = currency := by
    rw [← Books.currency_of_openings kept' known, Account.currency, Account.currency, same]
  refine ⟨books.positionOf? a company, ?_, ?_⟩
  · rw [positions company, Books.positionOf?_of_get? known]
  · rw [currency']
    have run := evolves.positions company
    rwa [Books.quoting, positionOf?_of_ofItems opened] at run

theorem isSome_of_transaction {b b' : Books} {t : Transaction} {notices : List Notice} (regular : t.Regular)
    (h : b.transaction t = .ok (b', notices)) :
    (t.kind = .equity → t.trade?.isSome) ∧ ∀ company, t.kind = .dividend company → t.dividend?.isSome := by
  have direct (noRevenue : t.kind ≠ .revenue) : t.origin ≠ .dividendRevenue := by
    intro mirror
    exact noRevenue (regular.mirror mirror)
  constructor
  · intro kind
    rw [Books.transaction, if_neg (direct (by rw [kind]; intro h; cases h))] at h
    simp only [kind, bind_eq_ok_iff, Books.equity] at h
    obtain ⟨_, _, m, move, _⟩ := h
    rw [(Books.trade?_of_ofTransaction kind move).1]
    rfl
  · intro company kind
    rw [Books.transaction, if_neg (direct (by rw [kind]; intro h; cases h))] at h
    obtain ⟨sourceLeg, cashLeg, ins, outs⟩ := regular.dividend company kind
    simp only [kind, bind_eq_ok_iff, orError_eq_ok_iff, Books.dividend, ins, outs, List.head?_cons,
      Option.some.injEq] at h
    obtain ⟨_, ⟨source, pays, _, rfl, ⟨account, money⟩, takes, _⟩, _⟩ := h
    simp only [Option.bind_some] at pays
    simp [Transaction.dividend?, kind, ins, outs, pays, takes]

theorem isSome_of_compute {lines : List Line} {j : Journal} {o : Options} {l : Ledger}
    (read : Journal.parse lines = .ok j) (computed : (Ledger.compute o j.items).result = .ok l)
    {t : Transaction} (mem : .transaction t ∈ j.items) (counts : t.effectiveDate ≤ o.now) :
    (t.kind = .equity → t.trade?.isSome) ∧ ∀ company, t.kind = .dividend company → t.dividend?.isSome := by
  obtain ⟨registry, books, _, played, _, _, _⟩ := Ledger.exists_of_compute computed
  obtain ⟨s, next, notices, _, applied⟩ := Books.exists_transaction_of_foldTelling
    (fun t mem => regular_of_parse read (mem_chronological.1 mem)) played (mem_chronological.2 mem) counts
  exact isSome_of_transaction (regular_of_parse read mem) applied

/-- **A position records its own events**: there is one exactly if there was a trade of the company with
the account as its holder, or as an equity account that shares left for another. Its legs are those of
the trades, its totals are sums from left to right, and its price is the last one known. Nothing is left
out: what counts as a transfer of shares is a trade, and what counts as a dividend is paid by an account. -/
theorem position_eq_of_history {lines : List Line} {j : Journal} {o : Options} {l : Ledger}
    (read : Journal.parse lines = .ok j) (computed : (Ledger.compute o j.items).result = .ok l)
    {a : AccountRef} {account : Account} (found : l.accounts.get? a = some account) (company : String) :
    ((account.position? company).isSome ↔
      ∃ t x, .transaction t ∈ j.items ∧ t.effectiveDate ≤ o.now ∧ t.trade? = some x ∧
        x.shares.company = company ∧ (x.holder = a ∨ x.mover? = some a)) ∧
    (∀ p, account.position? company = some p →
      p.legs = (tradesIn o.now company (chronological j.items)).flatMap (Trade.legsOn a) ∧
        p.Records (shareHistory o .empty account.currency a company (chronological j.items))) ∧
    ∀ t, .transaction t ∈ j.items → t.effectiveDate ≤ o.now →
      (t.kind = .equity → t.trade?.isSome) ∧ ∀ payer, t.kind = .dividend payer → t.dividend?.isSome := by
  obtain ⟨final, same, run⟩ := position_of_foldlM read computed found company
  refine and_assoc.1 ⟨?_, fun t mem counts => isSome_of_compute read computed mem counts⟩
  have legs := legs_of_shareHistory o .empty account.currency a company (chronological j.items)
  have trades (t : Transaction) : .transaction t ∈ chronological j.items ↔ .transaction t ∈ j.items :=
    mem_chronological
  simp only [← trades]
  rw [← legs_ne_nil_iff, ← legs]
  rcases records_of_foldlM run with ⟨rfl, empty⟩ | ⟨q, rfl, records, traded⟩
  · have missing : account.position? company = none := Option.map_eq_none_iff.1 same
    rw [missing, empty]
    refine ⟨⟨fun holds => ?_, fun traded => absurd rfl traded⟩, fun p holds => ?_⟩
    · cases holds
    · cases holds
  · obtain ⟨p, holds, recorded⟩ := Option.map_eq_some_iff.1 same
    rw [holds]
    refine ⟨⟨fun _ => traded, fun _ => rfl⟩, fun p' same' => ?_⟩
    obtain rfl := Option.some.inj same'
    have records := records.of_recorded recorded
    exact ⟨records.legs, records⟩

/-- The household holds the ten shares that it bought, has paid the fee for them, and has earned the
dividend. -/
theorem position_of_houseBroker :
    ∃ j l account p, Journal.parse houseBook = .ok j ∧
      (Ledger.compute houseOptions j.items).result = .ok l ∧
      l.accounts.get? houseBroker = some account ∧ account.position? "ACME" = some p ∧
      p.legs = [⟨.ofNat 1000, .ofNat 10, .ofNat 10, day2021 1 4⟩] ∧ p.held = .ofNat 10 ∧
      p.fees = .ofNat 10 ∧ p.dividends = .ofNat 50 ∧ p.price = .ofNat 100 := by
  obtain ⟨j, read, items⟩ := exists_journal_of_houseBook
  obtain ⟨l, computed⟩ := exists_ledger_of_houseItems
  rw [← items] at computed
  have opened : ⟨day2021 1 1, houseBroker, usd 0, .empty, houseLine 7⟩ ∈ l.accounts.openings := by
    rw [openings_of_compute computed, items]
    decide
  obtain ⟨account, found, opening⟩ := Registry.exists_get?_of_mem_openings opened
  obtain ⟨isTraded, records, _⟩ := position_eq_of_history read computed found "ACME"
  have currency : account.currency = .usd := by
    rw [Account.currency, opening]
    rfl
  have bought : housePurchase.trade? = some
      ⟨houseBank, (usd 1010).neg.amount, houseBroker, .ofNat 1000, ⟨"ACME", .ofNat 10⟩, .ofNat 10,
        day2021 1 4⟩ := by decide
  have mem : .transaction housePurchase ∈ j.items := by
    rw [items]
    decide
  obtain ⟨p, holds⟩ := Option.isSome_iff_exists.1
    (isTraded.2 ⟨housePurchase, _, mem, by decide, bought, rfl, .inl rfl⟩)
  obtain ⟨legs, records⟩ := records p holds
  rw [items, chronological_houseItems] at legs records
  rw [currency] at records
  have legs : p.legs = [⟨.ofNat 1000, .ofNat 10, .ofNat 10, day2021 1 4⟩] := legs.trans (by decide)
  have held := records.held
  have fees := records.fees
  rw [legs] at held fees
  obtain ⟨amounts, earnings, dividends⟩ := records.dividends
  have earned : (shareHistory houseOptions .empty .usd houseBroker "ACME" houseItems).filterMap
      ShareEvent.earning? = [Decimal.ofNat 50].map some := by decide +kernel
  obtain rfl : amounts = [.ofNat 50] :=
    (List.map_inj_right fun _ _ => Option.some.inj).1 (earnings.symm.trans earned)
  have prices : ((shareHistory houseOptions .empty .usd houseBroker "ACME" houseItems).filterMap
      ShareEvent.price?).getLast? = some (some (.ofNat 100)) := by decide +kernel
  refine ⟨j, l, account, p, read, computed, found, holds, legs, ?_, ?_, ?_, ?_⟩
  · exact Option.some.inj (held.symm.trans (by decide))
  · exact Option.some.inj (fees.symm.trans (by decide))
  · exact Option.some.inj (dividends.symm.trans (by decide))
  · exact Option.some.inj (Option.some.inj (records.price.symm.trans prices))

end Daybook
