import Daybook.Proofs.Account.Figures
import Daybook.Proofs.Basket.UnitRate
import Daybook.Proofs.Journal.Replayable
import Daybook.Proofs.Replay.Checkpoints
import Daybook.Proofs.Replay.SideBySide
import Daybook.Proofs.Summary.Dividends
import Mathlib.Data.List.Nodup

/-!
# One dividend more

A dividend that is written between other items of a ledger adds its amount to the balance it is paid to, to
the earnings of a position, and to what its account has earned in total. It changes nothing else
(`dividend_adds_only`).

Up to the dividend the two replays are the same. The dividend sets them apart (`tied_of_payment`), and
every step after it keeps the difference as it is (`keeps_tie`), as long as no step asserts the balance.
-/

namespace Daybook

/-! ### Earnings of a position -/

namespace Position

/-- The dividends are larger by an amount, and nothing else is different. -/
structure Earned (n : Int) (p p' : Position) : Prop where
  dividends : p'.dividends.units = p.dividends.units + n
  others : p' = { p with dividends := p'.dividends }

/-- The dividends and the total return are larger by an amount, and nothing else is different. -/
structure EarnedInTotal (n : Int) (p p' : Position) : Prop where
  dividends : p'.dividends.units = p.dividends.units + n
  totalReturn : p'.totalReturn.units = p.totalReturn.units + n
  others : p' = { p with dividends := p'.dividends, totalReturn := p'.totalReturn }

/-- The total return is not rounded. -/
def ReturnsExactly (p : Position) : Prop :=
  ∀ gain ∈ p.marketValue.sub p.costBasis, Decimal.AddsExactly gain [p.dividends]

instance (p : Position) : Decidable p.ReturnsExactly := inferInstanceAs (Decidable (∀ _ ∈ _, _))

variable {n : Int} {p p' q q' : Position}

/-- A leg goes with any dividends. -/
theorem Earned.recordAt {location : Location} {price : Decimal} {leg : ShareLeg} (h : p.Earned n p')
    (new : Books.recordAt location price leg p = .ok q) (new' : Books.recordAt location price leg p' = .ok q') :
    q.Earned n q' := by
  obtain ⟨dividends, others⟩ := h
  generalize p'.dividends = d at dividends others
  rw [others] at new'
  simp only [Books.recordAt, record, bind_eq_ok_iff, orError_eq_ok_iff, Option.bind_eq_bind,
    Option.bind_eq_some_iff, Option.some.injEq, Except.ok.injEq] at new new'
  obtain ⟨_, ⟨held, shares, fees, fee, rfl⟩, rfl⟩ := new
  obtain ⟨_, ⟨held', shares', fees', fee', rfl⟩, rfl⟩ := new'
  rw [shares] at shares'
  rw [fee] at fee'
  cases shares'
  cases fee'
  exact ⟨dividends, rfl⟩

theorem Earned.addDividend {x : Decimal} (h : p.Earned n p') (new : p.addDividend x = some q)
    (new' : p'.addDividend x = some q') (sum : q.dividends.units = p.dividends.units + x.units)
    (sum' : q'.dividends.units = p'.dividends.units + x.units) : q.Earned n q' := by
  obtain ⟨dividends, others⟩ := h
  have value : q'.dividends.units = q.dividends.units + n := by
    rw [sum, sum', dividends, Int.add_assoc, Int.add_assoc, Int.add_comm n]
  obtain ⟨d, _, rfl⟩ := Option.map_eq_some_iff.1 new
  obtain ⟨d', _, rfl⟩ := Option.map_eq_some_iff.1 new'
  refine ⟨value, ?_⟩
  rw [others]

/-- **More earnings are more return.** -/
theorem Earned.revalue {method : CostBasis} (h : p.Earned n p') (new : p.revalue method = some q)
    (new' : p'.revalue method = some q') (exact : q.ReturnsExactly) (exact' : q'.ReturnsExactly) :
    q.EarnedInTotal n q' := by
  obtain ⟨dividends, others⟩ := h
  generalize p'.dividends = d at dividends others
  rw [others] at new'
  simp only [Position.revalue, Option.bind_eq_bind, Option.bind_eq_some_iff, Option.some.injEq] at new new'
  obtain ⟨base, cost, market, worth, gain, difference, total, sum, rfl⟩ := new
  obtain ⟨base', cost', market', worth', gain', difference', total', sum', rfl⟩ := new'
  -- Cost basis, market value and gain do not depend on dividends.
  cases Option.some.inj (cost.symm.trans cost')
  cases Option.some.inj (worth.symm.trans worth')
  cases Option.some.inj (difference.symm.trans difference')
  have value := (exact gain difference total sum).1
  have value' := (exact' gain difference total' sum').1
  refine ⟨dividends, ?_, rfl⟩
  show total'.units = total.units + n
  rw [value, value']
  show gain.units + d.units = gain.units + p.dividends.units + n
  rw [dividends, Int.add_assoc]

end Position

/-! ### The dividend -/

/-- A dividend that is written between other items: to which account it is paid, and how much. -/
structure AddedDividend where
  before : List Item
  after : List Item
  draft : DividendDraft
  money : Money
  accepted : draft.money = .ok money
  cash : AccountRef
  paid : draft.cash.account? = some cash

namespace AddedDividend

variable (x : AddedDividend)

/-- The dividend as it is booked: the payment, and the same as revenue. -/
def booked : List Item := (x.draft.book x.money).transactions.map .transaction

/-- The items without the dividend. -/
def without : List Item := x.before ++ x.after

/-- The items with the dividend. -/
def items : List Item := x.before ++ x.booked ++ x.after

/-- When the dividend counts. -/
def date : Timestamp := x.draft.tags.effectiveDate?.getD x.draft.timestamp

def amount : Int := x.money.amount.units

/-- No balance of the account that is paid is asserted after the dividend, as far as it counts. What is
written before the dividend comes after it if it counts later, and what is written after it also if it
counts at the same time. -/
structure Unasserted (now : Timestamp) : Prop where
  before : ∀ i ∈ x.before, x.date < i.effectiveDate → ∀ a ∈ i.asserted now, a.entry.account ≠ x.cash
  after : ∀ i ∈ x.after, x.date ≤ i.effectiveDate → ∀ a ∈ i.asserted now, a.entry.account ≠ x.cash

/-! ### Books that the dividend sets apart -/

/-- The balance that is paid is larger, and so are the earnings of the position that pays. -/
def tie : Tie where
  balance a v v' := if a = x.cash then v'.units = v.units + x.amount else v' = v
  held a company p p' :=
    if a = x.draft.account ∧ company = x.draft.company then
      ∃ q q', p = some q ∧ p' = some q' ∧ q.Earned x.amount q'
    else
      p' = p

variable {x}

/-- What is done to a position keeps it as it is, or as much larger as it is. -/
theorem held_of_each {a : AccountRef} {company : String} {p p' : Option Position} {q q' : Position}
    (h : x.tie.held a company p p') (same : p' = p → q' = q)
    (earned : ∀ r r', p = some r → p' = some r' → r.Earned x.amount r' → q.Earned x.amount q') :
    x.tie.held a company (some q) (some q') := by
  by_cases here : a = x.draft.account ∧ company = x.draft.company
  · simp only [tie, if_pos here] at h ⊢
    obtain ⟨r, r', rfl, rfl, more⟩ := h
    exact ⟨q, q', rfl, rfl, earned r r' rfl rfl more⟩
  · simp only [tie, if_neg here] at h ⊢
    rw [same h]

/-- **Every step keeps the difference**, unless it asserts the balance that was paid. -/
theorem keeps_tie {s : Step} (other : ∀ asserted ∈ s.asserted?, asserted.entry.account ≠ x.cash) :
    x.tie.Keeps s := by
  cases s with
  | credit a amount location =>
    intro v v' w w' alike added added' sum sum'
    by_cases here : a = x.cash
    · simp only [tie, if_pos here] at alike ⊢
      rw [sum, sum', alike, Int.add_assoc, Int.add_assoc, Int.add_comm x.amount]
    · simp only [tie, if_neg here] at alike ⊢
      rw [alike, added] at added'
      exact (Option.some.inj added').symm
  | hold a company =>
    intro p p' alike
    refine held_of_each alike (fun same => by rw [same]) ?_
    rintro r r' rfl rfl more
    exact more
  | record a company leg price location =>
    intro p p' q q' alike new new'
    refine held_of_each alike (fun same => ?_) ?_
    · rw [same, new] at new'
      exact (Except.ok.inj new').symm
    · rintro r r' rfl rfl more
      exact more.recordAt new new'
  | earn a company money location =>
    intro amount p p' q q' alike new new' sum sum'
    refine held_of_each alike (fun same => ?_) ?_
    · rw [same, new] at new'
      exact (Option.some.inj new').symm
    · rintro r r' rfl rfl more
      exact more.addDividend new new' sum sum'
  | assertion time e =>
    obtain ⟨a, assertion, location⟩ := e
    cases assertion with
    | cash money =>
      have away : a ≠ x.cash := other ⟨time, ⟨a, .cash money, location⟩, money⟩ rfl
      show if a = x.cash then _ else _
      rw [if_neg away]
    | sharePrice company price =>
      intro p p' alike
      refine held_of_each alike (fun same => by rw [same]) ?_
      rintro r r' rfl rfl more
      refine ⟨more.dividends, ?_⟩
      show { r' with price := price.amount } = _
      rw [more.others]
      rfl
  | _ => trivial

/-! ### The dividend itself -/

/-- The transaction that pays the dividend. -/
def transaction (x : AddedDividend) : Transaction where
  kind := .dividend x.draft.company
  timestamp := x.draft.timestamp
  ins := [x.draft.source x.money]
  outs := [x.draft.cash]
  tags := x.draft.tags
  origin := .ledger
  location := x.draft.location

theorem booked_eq (x : AddedDividend) :
    x.booked = [.transaction x.transaction, .transaction x.transaction.mirror] := rfl

/-- What the dividend pays. -/
def payment (x : AddedDividend) : Payment := ⟨x.draft.account, x.cash, x.money, x.draft.cash.location⟩

/-- What is done for the dividend. -/
def steps (x : AddedDividend) : List Step :=
  (x.payment.needs x.draft.company x.draft.location).map .need
    ++ [.credit x.cash x.money.amount x.draft.cash.location,
      .earn x.draft.account x.draft.company x.money x.draft.location]

theorem posting?_cash (x : AddedDividend) : x.draft.cash.posting? = some (x.cash, x.money) := by
  have amount := (DividendDraft.money_ok x.accepted).2.1
  have paid := x.paid
  rw [Leg.account?] at paid
  rw [Leg.posting?]
  cases owner : x.draft.cash.owner with
  | owned account =>
    rw [owner] at paid
    cases paid
    rw [amount]
  | external label =>
    rw [owner] at paid
    cases paid

/-- Only the payment is replayed. -/
theorem steps_booked {o : Options} (effective : x.date ≤ o.now) :
    x.booked.flatMap (Item.steps o) = x.steps := by
  have counts : ¬ o.now < x.transaction.effectiveDate := Timestamp.not_lt.2 effective
  have kind : x.transaction.kind = .dividend x.draft.company := rfl
  have direct : x.transaction.origin ≠ .dividendRevenue := by
    intro mirror
    cases mirror
  have payment : Payment.ofTransaction x.transaction = .ok x.payment := by
    show (orError x.draft.cash.posting? _ >>= _) = _
    rw [x.posting?_cash]
    rfl
  have needs : x.transaction.needs = x.payment.needs x.draft.company x.draft.location := by
    rw [Transaction.needs, if_neg direct, kind]
    dsimp only
    rw [payment]
    rfl
  have writes : x.transaction.writes = [.credit x.cash x.money.amount x.draft.cash.location,
      .earn x.draft.account x.draft.company x.money x.draft.location] := by
    rw [Transaction.writes, if_neg direct, kind]
    dsimp only
    rw [payment]
    rfl
  have nothing : (Item.transaction x.transaction.mirror).steps o = [] := by
    rw [Item.steps, if_neg (x.transaction.effectiveDate_mirror ▸ counts)]
    rfl
  rw [booked_eq, List.flatMap_cons, List.flatMap_singleton, nothing, List.append_nil, Item.steps, if_neg counts, needs,
    writes]
  rfl

end AddedDividend

namespace Books

variable {b next : Books} {a : AccountRef} {company : String} {location : Location}

theorem exists_of_keptIn {currency : Currency} (h : b.problem? ⟨a, .keptIn currency, location⟩ = none) :
    ∃ found, b.accounts.get? a = some found ∧ found.currency = currency := by
  rw [problem?] at h
  split at h
  · cases h
  · next found known =>
    rw [Account.problem?] at h
    split at h
    · next kept => exact ⟨found, known, kept⟩
    · cases h

theorem exists_of_holding (h : b.problem? ⟨a, .holding company, location⟩ = none) :
    ∃ found p, b.accounts.get? a = some found ∧ found.position? company = some p := by
  rw [problem?] at h
  split at h
  · cases h
  · next found known =>
    rw [Account.problem?] at h
    split at h
    · next holds =>
      obtain ⟨p, holds⟩ := Option.isSome_iff_exists.1 holds
      exact ⟨found, p, known, holds⟩
    · cases h

/-- Where a run goes on after looking things up, nothing of these is lacking. -/
theorem of_run_needs {needs : List Need} {steps : List Step}
    (ran : (foldTelling take b (needs.map .need ++ steps)).result = .ok next)
    (exact : b.RunsExactly (needs.map .need ++ steps)) :
    (∀ n ∈ needs, b.problem? n = none) ∧ (foldTelling take b steps).result = .ok next ∧ b.RunsExactly steps := by
  induction needs with
  | nil => exact ⟨by simp, ran, exact⟩
  | cons n needs ih =>
    obtain ⟨c, _, asked, ran⟩ := result_foldTelling_cons.1 ran
    have exact := exact.tail asked
    obtain ⟨unchanged, met⟩ := take_need_ok asked
    rw [unchanged] at ran exact
    obtain ⟨later, ran, exact⟩ := ih ran exact
    exact ⟨List.forall_mem_cons.2 ⟨met, later⟩, ran, exact⟩

/-- Money keeps its value in its own currency. -/
theorem units_of_worth {money earned : Money} {found : Account}
    (h : b.worth a money location = .ok earned) (known : b.accounts.get? a = some found)
    (same : money.currency = found.currency) : earned.amount.units = money.amount.units := by
  rw [worth, Registry.lookup, known] at h
  have rate : b.basket.rate ⟨money.currency, found.currency⟩ = .ok .one := if_pos same
  simp only [orError, ok_bind, mapError_eq_ok_iff] at h
  obtain ⟨_, known, product⟩ := Basket.exists_rate_of_convert h
  cases rate.symm.trans known
  exact Decimal.units_of_mul_one product

/-- What a position earns in its own currency is the amount itself. -/
theorem exists_of_earn {money : Money} {found : Account} {p : Position} {notices : List Notice}
    (taken : b.take (.earn a company money location) = .ok (next, notices))
    (exact : b.AddsExactly (.earn a company money location)) (known : b.accounts.get? a = some found)
    (position : b.positionOf? a company = some p) (same : money.currency = found.currency) :
    ∃ shares q, found.state.shares = some shares ∧ shares.get? company = some p ∧
      p.Earned money.amount.units q ∧
      next = b.modify a fun s => { s with shares := some (shares.insert company q) } := by
  obtain ⟨earned, worth, changed⟩ := take_earn_ok taken
  obtain ⟨found', shares, q, known', holds, new, rfl⟩ := exists_of_modifyPosition changed
  cases known.symm.trans known'
  have exact := exact earned (toOption_eq_some_iff.2 worth)
  rw [position] at exact
  rw [positionOf?_of_get? known, Account.position?, holds, Option.bind_some] at position
  rw [position, Option.getD_some, orError_eq_ok_iff] at new
  obtain ⟨e, added, rfl⟩ := Option.map_eq_some_iff.1 new
  have value : e.units = p.dividends.units + money.amount.units := by
    rw [← units_of_worth worth known same]
    exact (exact e added).1
  exact ⟨shares, _, holds, position, ⟨value, rfl⟩, rfl⟩

end Books

namespace AddedDividend

variable {x : AddedDividend} {b next : Books}

/-- Books that differ in the balance that is paid, but not in what the position has earned. -/
def paidTie (x : AddedDividend) : Tie := { x.tie with held := fun _ _ p p' => p' = p }

/-- The payment itself makes the balance larger. -/
theorem tied_of_credit {found : Account} {w : Decimal} (known : b.accounts.get? x.cash = some found)
    (value : w.units = found.state.balance.units + x.amount) :
    Books.Tied x.paidTie b (b.modify x.cash fun s => { s with balance := w }) := by
  have same : Books.Tied ⟨fun _ v v' => v' = v, fun _ _ p p' => p' = p⟩ b b :=
    .refl (fun _ _ => rfl) (fun _ _ _ => rfl) b
  have apart : Books.Tied x.paidTie (b.modify x.cash id) (b.modify x.cash fun s => { s with balance := w }) := by
    refine same.modify_to (fun r s s' away tied => ⟨?_, tied.active, tied.totals, tied.shares⟩)
      fun f s' isFound tied => ?_
    · show if r = x.cash then _ else _
      rw [if_neg away]
      exact tied.balance
    · cases known.symm.trans isFound
      refine ⟨?_, tied.active, tied.totals, tied.shares⟩
      show if x.cash = x.cash then _ else _
      rw [if_pos rfl]
      exact value
  rwa [Books.modify_id] at apart

/-- What the position earns sets it apart too. -/
theorem tied_of_earn {c : Books} {found : Account} {shares : SortedMap String Position} {p q : Position}
    (apart : Books.Tied x.paidTie b c) (known : c.accounts.get? x.draft.account = some found)
    (holds : found.state.shares = some shares) (held : shares.get? x.draft.company = some p)
    (more : p.Earned x.amount q) :
    Books.Tied x.tie b
      (c.modify x.draft.account fun s => { s with shares := some (shares.insert x.draft.company q) }) := by
  have further : Books.Tied x.tie (b.modify x.draft.account id)
      (c.modify x.draft.account fun s => { s with shares := some (shares.insert x.draft.company q) }) := by
    refine apart.modify_to (fun r s s' away tied => ⟨tied.balance, tied.active, tied.totals, ?_⟩)
      fun f s' isFound tied => ?_
    · have both := tied.shares
      generalize s.shares = m at both
      generalize s'.shares = m' at both
      cases both with
      | none => exact .none
      | some both =>
        refine .some fun other => ?_
        show if r = x.draft.account ∧ other = x.draft.company then _ else _
        rw [if_neg fun here => away here.1]
        exact both other
    · obtain ⟨_, known', _, tied'⟩ := apart.exists_get? isFound
      cases known.symm.trans known'
      have both := tied'.shares
      rw [holds] at both
      refine ⟨tied.balance, tied.active, tied.totals, ?_⟩
      show Option.Rel _ f.state.shares _
      generalize f.state.shares = before at both
      cases both with
      | @some before _ both =>
        refine .some fun other => ?_
        have kept : shares.get? other = before.get? other := both other
        rw [SortedMap.get?_insert]
        by_cases here : other = x.draft.company
        · rw [if_pos here.symm, here, ← both, held]
          show if x.draft.account = x.draft.account ∧ x.draft.company = x.draft.company then _ else _
          rw [if_pos ⟨rfl, rfl⟩]
          exact ⟨p, q, rfl, rfl, more⟩
        · rw [if_neg fun same => here same.symm, kept]
          show if x.draft.account = x.draft.account ∧ other = x.draft.company then _ else _
          rw [if_neg fun same => here same.2]
  rwa [Books.modify_id] at further

/-- **The dividend sets the books apart** by its amount. It is paid to an account that is there, and by one
that holds shares. -/
theorem tied_of_payment (ran : (foldTelling Books.take b x.steps).result = .ok next) (exact : b.RunsExactly x.steps)
    (currency : ∀ holder ∈ b.accounts.get? x.draft.account, ∀ paid ∈ b.accounts.get? x.cash,
      paid.currency = holder.currency) :
    Books.Tied x.tie b next ∧ b.canHold x.draft.account = true ∧ (b.accounts.get? x.cash).isSome := by
  obtain ⟨met, ran, exact⟩ := Books.of_run_needs ran exact
  obtain ⟨paid, knownCash, kept⟩ : ∃ paid, b.accounts.get? x.cash = some paid ∧ paid.currency = x.money.currency :=
    Books.exists_of_keptIn (met _ List.mem_cons_self)
  obtain ⟨holder, p, knownHolder, held⟩ : ∃ holder p, b.accounts.get? x.draft.account = some holder ∧
      holder.position? x.draft.company = some p :=
    Books.exists_of_holding (met _ (List.mem_cons_of_mem _ List.mem_cons_self))
  have position : b.positionOf? x.draft.account x.draft.company = some p := by
    rw [Books.positionOf?_of_get? knownHolder, held]
  obtain ⟨c, _, credits, ran⟩ := result_foldTelling_cons.1 ran
  obtain ⟨d, _, earns, ran⟩ := result_foldTelling_cons.1 ran
  cases ran
  obtain ⟨w, sum, isNext⟩ := Books.exists_of_credit (Books.ok_of_take rfl credits) knownCash
  have value := (exact.1 _ (Books.balanceOf?_of_get? knownCash) w sum).1
  have apart : Books.Tied x.paidTie b c := isNext ▸ tied_of_credit knownCash value
  -- The position is still the one that was looked up, and so is the currency of its account.
  obtain ⟨holder', knownHolder', opening, _⟩ := apart.exists_get? knownHolder
  have currency : x.money.currency = holder'.currency := by
    rw [Account.currency, opening, ← kept]
    exact currency _ knownHolder _ knownCash
  obtain ⟨shares, q, holds, held', more, rfl⟩ := Books.exists_of_earn earns (exact.tail credits).1 knownHolder'
    ((apart.held position).trans position) currency
  refine ⟨tied_of_earn apart knownHolder' holds held' more, ?_, ?_⟩
  · apply Books.canHold_of_positionOf?
    rw [position]
    rfl
  · rw [knownCash]
    rfl

end AddedDividend

/-! ### Figures -/

/-- The total returns of an account and their sum are not rounded. -/
def AccountState.ReturnsExactly (s : AccountState) : Prop :=
  ∀ shares ∈ s.shares, (∀ e ∈ shares.entries, e.2.ReturnsExactly) ∧
    Decimal.AddsExactly .zero (shares.entries.map (·.2.totalReturn))

instance (s : AccountState) : Decidable s.ReturnsExactly := inferInstanceAs (Decidable (∀ _ ∈ _, _))

namespace AddedDividend

/-- What the dividend adds to a position of the account that pays: to one of them its amount. -/
def AddsToPosition (x : AddedDividend) (company : String) (p p' : Position) : Prop :=
  if company = x.draft.company then p.EarnedInTotal x.amount p' else p' = p

/-- What the dividend adds to the shares of an account: to one position, and to the total return. -/
structure AddsToShares (x : AddedDividend) (m m' : SortedMap String Position) (t t' : EquityTotals) : Prop where
  earned : ∃ p p', m.get? x.draft.company = some p ∧ m'.get? x.draft.company = some p' ∧ p.EarnedInTotal x.amount p'
  others : ∀ company, company ≠ x.draft.company → m'.get? company = m.get? company
  totalReturn : t'.totalReturn.units = t.totalReturn.units + x.amount
  totals : t' = { t with totalReturn := t'.totalReturn }

/-- What the dividend adds to an account: to the balance that is paid, and to the shares that pay. -/
structure AddsTo (x : AddedDividend) (a a' : Account) : Prop where
  opening : a'.opening = a.opening
  active : a'.state.active = a.state.active
  balance :
    if a.reference = x.cash then a'.state.balance.units = a.state.balance.units + x.amount
    else a'.state.balance = a.state.balance
  shares :
    if a.reference = x.draft.account then
      ∃ m m' t t', a.state.shares = some m ∧ a'.state.shares = some m' ∧ a.state.totals = some t ∧
        a'.state.totals = some t' ∧ x.AddsToShares m m' t t'
    else
      a'.state.shares = a.state.shares ∧ a'.state.totals = a.state.totals

theorem AddsToPosition.costBasis {x : AddedDividend} {company : String} {p p' : Position}
    (h : x.AddsToPosition company p p') : p'.costBasis = p.costBasis := by
  rw [AddsToPosition] at h
  split at h
  · rw [h.others]
  · rw [h]

theorem AddsToPosition.marketValue {x : AddedDividend} {company : String} {p p' : Position}
    (h : x.AddsToPosition company p p') : p'.marketValue = p.marketValue := by
  rw [AddsToPosition] at h
  split at h
  · rw [h.others]
  · rw [h]

variable {x : AddedDividend} {method : CostBasis} {m m' new new' : SortedMap String Position} {t t' : EquityTotals}

/-- Positions of the account that pays stand side by side. -/
theorem forall₂_positions (held : ∀ company, x.tie.held x.draft.account company (m.get? company) (m'.get? company)) :
    List.Forall₂ (fun e e' => e'.1 = e.1 ∧
      if e.1 = x.draft.company then e.2.Earned x.amount e'.2 else e'.2 = e.2) m.entries m'.entries := by
  refine SortedMap.forall₂_of_get? (R := fun (company : String) (p p' : Position) =>
    if company = x.draft.company then p.Earned x.amount p' else p' = p) fun company => ?_
  have here := held company
  by_cases same : company = x.draft.company
  · simp only [tie, same, and_self, if_true] at here ⊢
    obtain ⟨q, q', isSome, isSome', more⟩ := here
    rw [isSome, isSome']
    exact .some more
  · simp only [tie, same, and_false, if_false] at here ⊢
    rw [here]
    cases m.get? company with
    | none => exact .none
    | some p => exact .some rfl

/-- The figures of these positions stand side by side as well. -/
theorem forall₂_figures {es es' fs fs' : List (String × Position)}
    (h : List.Forall₂ (fun e e' => e'.1 = e.1 ∧
      if e.1 = x.draft.company then e.2.Earned x.amount e'.2 else e'.2 = e.2) es es')
    (side : List.Forall₂ (fun e f => f.1 = e.1 ∧ e.2.revalue method = some f.2) es fs)
    (side' : List.Forall₂ (fun e f => f.1 = e.1 ∧ e.2.revalue method = some f.2) es' fs')
    (exact : ∀ f ∈ fs, f.2.ReturnsExactly) (exact' : ∀ f ∈ fs', f.2.ReturnsExactly) :
    List.Forall₂ (fun f f' => f'.1 = f.1 ∧ x.AddsToPosition f.1 f.2 f'.2) fs fs' := by
  refine forall₂_square h side side' fun e e' f f' mem mem' pair here here' => ?_
  obtain ⟨company, pair⟩ := pair
  obtain ⟨key, worked⟩ := here
  obtain ⟨key', worked'⟩ := here'
  refine ⟨by rw [key', company, key], ?_⟩
  rw [AddsToPosition, key]
  by_cases same : e.1 = x.draft.company
  · rw [if_pos same] at pair ⊢
    exact pair.revalue worked worked' (exact f mem) (exact' f' mem')
  · rw [if_neg same] at pair ⊢
    rw [pair, worked] at worked'
    exact (Option.some.inj worked').symm

/-- Only the total return of one position is larger, so the sum of all of them is as much larger. -/
theorem units_of_totals {fs fs' : List (String × Position)}
    (h : List.Forall₂ (fun f f' => f'.1 = f.1 ∧ x.AddsToPosition f.1 f.2 f'.2) fs fs')
    (nodup : (fs.map (·.1)).Nodup) (present : x.draft.company ∈ fs.map (·.1)) :
    Decimal.unitsOf (fs'.map (·.2.totalReturn)) = Decimal.unitsOf (fs.map (·.2.totalReturn)) + x.amount := by
  have each : (fs'.map fun f => f.2.totalReturn.units)
      = fs.map fun f => f.2.totalReturn.units + if f.1 = x.draft.company then x.amount else 0 := by
    refine map_eq_of_forall₂ (h.imp fun f f' pair => ?_)
    have pair := pair.2
    rw [AddsToPosition] at pair
    split at pair
    · next here => rw [pair.totalReturn, if_pos here]
    · next other => rw [pair, if_neg other, Int.add_zero]
  have once : (fs.map fun f => if f.1 = x.draft.company then x.amount else 0).sum = x.amount := by
    calc (fs.map fun f => if f.1 = x.draft.company then x.amount else 0).sum
        = ((fs.map (·.1)).map fun company => if company = x.draft.company then x.amount else 0).sum := by
          rw [List.map_map]
          rfl
      _ = x.amount := by
          rw [List.sum_map_ite_eq, List.count_eq_one_of_mem nodup present, List.map_const', List.sum_replicate]
          simp
  rw [Decimal.unitsOf, Decimal.unitsOf, List.map_map, List.map_map]
  show (fs'.map fun f => f.2.totalReturn.units).sum = (fs.map fun f => f.2.totalReturn.units).sum + x.amount
  rw [each, List.sum_map_add, once]

/-- **The figures of the shares that pay.** -/
theorem addsToShares_of_revise
    (held : ∀ company, x.tie.held x.draft.account company (m.get? company) (m'.get? company))
    (worked : m.revise (revalueInto method x.draft.account) {} = .ok (new, t))
    (worked' : m'.revise (revalueInto method x.draft.account) {} = .ok (new', t'))
    (exact : (∀ e ∈ new.entries, e.2.ReturnsExactly) ∧ Decimal.AddsExactly .zero (new.entries.map (·.2.totalReturn)))
    (exact' : (∀ e ∈ new'.entries, e.2.ReturnsExactly) ∧
      Decimal.AddsExactly .zero (new'.entries.map (·.2.totalReturn))) :
    x.AddsToShares new new' t t' := by
  obtain ⟨side, basis, market, total⟩ := figures_of_reviseEntries (SortedMap.reviseEntries_of_revise worked)
  obtain ⟨side', basis', market', total'⟩ := figures_of_reviseEntries (SortedMap.reviseEntries_of_revise worked')
  have both := forall₂_figures (forall₂_positions held) side side' exact.1 exact'.1
  have pairs (company : String) : Option.Rel (x.AddsToPosition company) (new.get? company) (new'.get? company) :=
    SortedMap.rel_get?_of_forall₂ both company
  have present : ∃ p, new.get? x.draft.company = some p := by
    have here := held x.draft.company
    simp only [tie, and_self, if_true] at here
    obtain ⟨p, _, isSome, _⟩ := here
    have pair := SortedMap.rel_get?_of_forall₂ (R := fun _ (p q : Position) => p.revalue method = some q) side
      x.draft.company
    rw [isSome] at pair
    generalize new.get? x.draft.company = found at pair
    cases pair with
    | @some _ q _ => exact ⟨q, rfl⟩
  obtain ⟨p, present⟩ := present
  have sum : t'.totalReturn.units = t.totalReturn.units + x.amount := by
    obtain ⟨e, isEntry, _⟩ := Option.map_eq_some_iff.1 present
    have listed : x.draft.company ∈ new.entries.map (·.1) :=
      List.mem_map.2 ⟨e, List.mem_of_find?_eq_some isEntry, by simpa using List.find?_some isEntry⟩
    rw [Decimal.units_of_foldlM_add exact.2 total, Decimal.units_of_foldlM_add exact'.2 total',
      units_of_totals both new.nodup_keys listed, Int.add_assoc]
  have costBasis : t'.costBasis = t.costBasis := by
    have same := map_eq_of_forall₂ (both.imp fun f f' pair => pair.2.costBasis)
    rw [same, basis] at basis'
    exact (Option.some.inj basis').symm
  have marketValue : t'.marketValue = t.marketValue := by
    have same := map_eq_of_forall₂ (both.imp fun f f' pair => pair.2.marketValue)
    rw [same, market] at market'
    exact (Option.some.inj market').symm
  refine ⟨?_, fun company other => ?_, sum, ?_⟩
  · have pair := pairs x.draft.company
    rw [present] at pair ⊢
    generalize new'.get? x.draft.company = found at pair
    cases pair with
    | @some _ p' more =>
      rw [AddsToPosition, if_pos rfl] at more
      exact ⟨p, p', rfl, rfl, more⟩
  · have pair := pairs company
    generalize new.get? company = found at pair
    generalize new'.get? company = found' at pair
    cases pair with
    | none => rfl
    | some same =>
      rw [AddsToPosition, if_neg other] at same
      rw [same]
  · rw [← costBasis, ← marketValue]

/-- **What the dividend adds to an account**, with its figures worked out. -/
theorem addsTo_of_revalued {opening : Opening} {before before' s s' : AccountState}
    (tied : before.Tied x.tie opening.account before')
    (holds : opening.account = x.draft.account → before.shares.isSome)
    (worked : Account.revalued method ⟨opening, before⟩ = .ok s)
    (worked' : Account.revalued method ⟨opening, before'⟩ = .ok s')
    (exact : s.ReturnsExactly) (exact' : s'.ReturnsExactly) : x.AddsTo ⟨opening, s⟩ ⟨opening, s'⟩ := by
  obtain ⟨balance, active, shares, totals⟩ := before
  obtain ⟨balance', active', shares', totals'⟩ := before'
  obtain ⟨larger, rfl, rfl, both⟩ := tied
  cases both with
  | none =>
    cases worked
    cases worked'
    refine ⟨rfl, rfl, larger, ?_⟩
    show if opening.account = x.draft.account then _ else _
    rw [if_neg fun here => Bool.false_ne_true (holds here)]
    exact ⟨rfl, rfl⟩
  | @some m m' both =>
    simp only [Account.revalued, bind_eq_ok_iff, Except.ok.injEq] at worked worked'
    obtain ⟨⟨new, t⟩, revised, rfl⟩ := worked
    obtain ⟨⟨new', t'⟩, revised', rfl⟩ := worked'
    change m.revise (revalueInto method opening.account) {} = .ok (new, t) at revised
    change m'.revise (revalueInto method opening.account) {} = .ok (new', t') at revised'
    refine ⟨rfl, rfl, larger, ?_⟩
    show if opening.account = x.draft.account then _ else _
    by_cases here : opening.account = x.draft.account
    · rw [if_pos here]
      have both : ∀ company, x.tie.held x.draft.account company (m.get? company) (m'.get? company) := here ▸ both
      exact ⟨new, new', t, t', rfl, rfl, rfl, rfl,
        addsToShares_of_revise both (here ▸ revised) (here ▸ revised') (exact new rfl) (exact' new' rfl)⟩
    · rw [if_neg here]
      have same : m' = m := SortedMap.eq_of_get?_eq fun company => by
        have held := both company
        simp only [tie] at held
        rwa [if_neg fun both => here both.1] at held
      rw [same, revised] at revised'
      cases revised'
      exact ⟨rfl, rfl⟩

end AddedDividend

/-! ### Ledgers -/

/-- No sum of a ledger is rounded: neither in the replay of its items nor in the total returns. -/
structure Ledger.IsExact (o : Options) (items : List Item) (l : Ledger) : Prop where
  replay : ReplaysExactly o items
  returns : ∀ a ∈ l.accounts.accounts, a.state.ReturnsExactly

namespace AddedDividend

/-- What the dividend adds to a ledger. -/
structure Adds (x : AddedDividend) (l l' : Ledger) : Prop where
  accounts : List.Forall₂ x.AddsTo l.accounts.accounts l'.accounts.accounts
  paid : (l.accounts.get? x.cash).isSome
  pays : (l.accounts.get? x.draft.account).isSome
  others : l' = { l with accounts := l'.accounts }

variable {x : AddedDividend} {o : Options} {b books books' : Books} {late : List Item}

/-- **After the dividend the two replays stay apart by it.** -/
theorem tied_of_late (effective : x.date ≤ o.now)
    (currency : ∀ holder ∈ b.accounts.get? x.draft.account, ∀ paid ∈ b.accounts.get? x.cash,
      paid.currency = holder.currency)
    (unasserted : ∀ i ∈ late, ∀ a ∈ i.asserted o.now, a.entry.account ≠ x.cash)
    (played : (foldTelling (Books.apply o) b late).result = .ok books)
    (played' : (foldTelling (Books.apply o) b (x.booked ++ late)).result = .ok books')
    (exact : b.RunsExactly (late.flatMap (Item.steps o)))
    (exact' : b.RunsExactly ((x.booked ++ late).flatMap (Item.steps o))) :
    Books.Tied x.tie books books' ∧ b.canHold x.draft.account = true ∧ (b.accounts.get? x.cash).isSome := by
  rw [Books.result_eq_steps] at played played'
  rw [List.flatMap_append, steps_booked effective] at played' exact'
  rw [result_foldTelling_append] at played'
  obtain ⟨next, paid, played'⟩ := bind_eq_ok_iff.1 played'
  obtain ⟨exactPaid, exact'⟩ := Books.runsExactly_append exact' paid
  obtain ⟨tied, holding⟩ := tied_of_payment paid exactPaid currency
  refine ⟨tied.run (fun s mem => keeps_tie fun a asserts => ?_) exact exact' played played', holding⟩
  -- Whatever asserts a balance after the dividend is an item that does.
  have isAsserted : a ∈ (late.flatMap (Item.steps o)).filterMap Step.asserted? :=
    List.mem_filterMap.2 ⟨s, mem, asserts⟩
  rw [List.filterMap_flatMap] at isAsserted
  obtain ⟨i, isLate, isAsserted⟩ := List.mem_flatMap.1 isAsserted
  rw [Item.asserted_steps] at isAsserted
  exact unasserted i isLate a isAsserted

/-- With all figures worked out, the accounts of the two replays stand side by side. -/
theorem forall₂_addsTo {accounts accounts' : Registry} (tied : Books.Tied x.tie books books')
    (holds : books.canHold x.draft.account = true) (worked : books.accounts.revalue o.costBasis = .ok accounts)
    (worked' : books'.accounts.revalue o.costBasis = .ok accounts')
    (exact : ∀ a ∈ accounts.accounts, a.state.ReturnsExactly)
    (exact' : ∀ a ∈ accounts'.accounts, a.state.ReturnsExactly) :
    List.Forall₂ x.AddsTo accounts.accounts accounts'.accounts := by
  have holds : ∀ a ∈ books.accounts.accounts, a.reference = x.draft.account → a.state.shares.isSome := by
    rintro a mem here
    rwa [Books.canHold, Books.sharesOf?, ← here, Registry.get?_of_mem mem] at holds
  refine forall₂_square ((List.forall₂_and_left _ _).2 ⟨holds, tied.accounts⟩)
    (Registry.forall₂_of_mapStates (Registry.mapStates_of_modifyAll worked))
    (Registry.forall₂_of_mapStates (Registry.mapStates_of_modifyAll worked')) ?_
  rintro ⟨opening, before⟩ ⟨opening', before'⟩ a a' mem mem' ⟨holds, same, tied⟩ ⟨s, worked, rfl⟩ ⟨s', worked', rfl⟩
  obtain rfl : opening' = opening := same
  exact addsTo_of_revalued tied holds worked worked' (exact _ mem) (exact' _ mem')

theorem sameSetup (x : AddedDividend) : SameSetup x.items x.without := by
  apply sameSetup_of_filter
  simp [items, without, booked_eq, Item.isReplayed]

/-- Both replays start with the same items, up to the dividend, and go on with the same items. -/
theorem exists_order (x : AddedDividend) :
    ∃ early late, chronological x.items = early ++ (x.booked ++ late) ∧ chronological x.without = early ++ late ∧
      ∀ i ∈ late, i ∈ x.before ∧ x.date < i.effectiveDate ∨ i ∈ x.after ∧ x.date ≤ i.effectiveDate := by
  have date : ∀ i ∈ x.booked, i.effectiveDate = x.date := by
    intro i mem
    simp only [booked_eq, List.mem_cons, List.not_mem_nil, or_false] at mem
    rcases mem with rfl | rfl <;> rfl
  obtain ⟨early, late, order', order, isLate⟩ := exists_chronological_insert date x.before x.after
  exact ⟨early, late, order'.trans (List.append_assoc ..), order, isLate⟩

end AddedDividend

/-- **A dividend adds its amount where it should, and changes nothing else**, wherever it is written: if it
counts, if the account that is paid and the one that pays are kept in one currency, and if no balance of the
former is asserted after it. -/
theorem dividend_adds_only {x : AddedDividend} {o : Options} {l l' : Ledger}
    (old : (Ledger.compute o x.without).result = .ok l) (new : (Ledger.compute o x.items).result = .ok l')
    (effective : x.date ≤ o.now)
    (currency : ∀ holder ∈ l.accounts.get? x.draft.account, ∀ paid ∈ l.accounts.get? x.cash,
      paid.currency = holder.currency)
    (unasserted : x.Unasserted o.now) (exact : l.IsExact o x.without) (exact' : l'.IsExact o x.items) :
    x.Adds l l' := by
  rw [Ledger.result_compute] at old new
  simp only [bind_eq_ok_iff, Except.ok.injEq] at old new
  obtain ⟨config, set, registry, opened, books, played, accounts, worked, rfl⟩ := old
  obtain ⟨config', set', registry', opened', books', played', accounts', worked', rfl⟩ := new
  -- Settings, accounts and groups do not depend on the dividend.
  have setup := x.sameSetup
  cases Except.ok.inj (opened.symm.trans (setup.registry.symm.trans opened'))
  rw [setup.config, set] at set'
  cases set'
  obtain ⟨early, late, order', order, isLate⟩ := x.exists_order
  rw [replay, order, result_foldTelling_append] at played
  rw [replay, order', result_foldTelling_append] at played'
  obtain ⟨b, start, played⟩ := bind_eq_ok_iff.1 played
  obtain ⟨b', start', played'⟩ := bind_eq_ok_iff.1 played'
  cases Except.ok.inj (start.symm.trans start')
  -- The ledger has the accounts of the books.
  have frame := Books.sameFrame_of_foldTelling played
  have openings : accounts.openings = b.accounts.openings :=
    (Registry.openings_of_revalue worked).trans frame.openings
  obtain ⟨tied, holds, paid⟩ := AddedDividend.tied_of_late effective (fun holder isHolder cash isCash => by
      obtain ⟨holder', known, same⟩ := Registry.exists_get?_of_openings openings isHolder
      obtain ⟨cash', known', same'⟩ := Registry.exists_get?_of_openings openings isCash
      have := currency holder' known cash' known'
      rwa [Account.currency, Account.currency, same, same'] at this)
    (fun i mem => (isLate i mem).elim (fun h => unasserted.before i h.1 h.2) (fun h => unasserted.after i h.1 h.2))
    played played' (exact.replay.late opened order start) (exact'.replay.late opened' order' start)
  have pays : (b.accounts.get? x.draft.account).isSome := Option.isSome_of_isSome_bind holds
  refine ⟨?_, ?_, ?_, ?_⟩
  · exact AddedDividend.forall₂_addsTo tied ((frame.holders _).trans holds) worked worked' exact.returns exact'.returns
  · exact (Registry.isSome_get?_of_openings openings x.cash).trans paid
  · exact (Registry.isSome_get?_of_openings openings x.draft.account).trans pays
  · show (⟨accounts', books'.basket, _, _, _, _⟩ : Ledger) = ⟨accounts', books.basket, _, _, _, _⟩
    rw [tied.basket, setup.groups]

/-- Another dividend of the household, written and paid between the purchase of the shares and the dividend
that is there. -/
def earlierDividend : AddedDividend where
  before := houseItems.take 7
  after := houseItems.drop 7
  draft :=
    { timestamp := day2021 2 15
      account := houseBroker
      company := "ACME"
      sourceLocation := houseLine 34
      cash := .onAccount houseBank (usd 25) (houseLine 35)
      tags := []
      location := houseLine 33 }
  money := usd 25
  accepted := by decide
  cash := houseBank
  paid := rfl

theorem chronological_earlierDividend : chronological earlierDividend.items = earlierDividend.items :=
  chronological_eq_self (by decide)

/-- The household gets both dividends. -/
theorem adds_of_earlierDividend :
    ∃ j l l', Journal.parse houseBook = .ok j ∧ earlierDividend.without = j.items ∧
      (Ledger.compute houseOptions earlierDividend.without).result = .ok l ∧
      (Ledger.compute houseOptions earlierDividend.items).result = .ok l' ∧ earlierDividend.Adds l l' := by
  obtain ⟨j, read, items⟩ := exists_journal_of_houseBook
  have without : earlierDividend.without = houseItems := List.take_append_drop 7 houseItems
  have old : ∃ l ∈ (Ledger.compute houseOptions earlierDividend.without).result.toOption,
      (∀ a ∈ l.accounts.accounts, a.state.ReturnsExactly) ∧
      ∀ holder ∈ l.accounts.get? houseBroker, ∀ paid ∈ l.accounts.get? houseBank, paid.currency = holder.currency := by
    rw [without]
    simp only [Ledger.compute, replay, chronological_houseItems]
    decide +kernel
  have new : ∃ l ∈ (Ledger.compute houseOptions earlierDividend.items).result.toOption,
      ∀ a ∈ l.accounts.accounts, a.state.ReturnsExactly := by
    simp only [Ledger.compute, replay, chronological_earlierDividend]
    decide +kernel
  have exact : ReplaysExactly houseOptions earlierDividend.without := by
    rw [without, ReplaysExactly, replaySteps, chronological_houseItems]
    decide +kernel
  have exact' : ReplaysExactly houseOptions earlierDividend.items := by
    rw [ReplaysExactly, replaySteps, chronological_earlierDividend]
    decide +kernel
  have unasserted : earlierDividend.Unasserted houseOptions.now := by
    have none : ∀ i ∈ houseItems, i.asserted houseOptions.now = [] := by decide
    constructor
    · intro i mem _ a asserted
      rw [none i (List.mem_of_mem_take mem)] at asserted
      cases asserted
    · intro i mem _ a asserted
      rw [none i (List.mem_of_mem_drop mem)] at asserted
      cases asserted
  obtain ⟨l, old, returns, currency⟩ := old
  obtain ⟨l', new, returns'⟩ := new
  have old := toOption_eq_some_iff.1 old
  have new := toOption_eq_some_iff.1 new
  exact ⟨j, l, l', read, without.trans items.symm, old, new,
    dividend_adds_only old new (by decide) currency unasserted ⟨exact, returns⟩ ⟨exact', returns'⟩⟩

end Daybook
