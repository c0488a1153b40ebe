import Daybook.Proofs.Account.Recorded
import Daybook.Proofs.Replay.Step

/-!
# Items as steps on the books

An item changes the books in place, one account after the other: it is a list of steps, each of which
finds what the steps before it left. Here these steps are written down (`Item.steps`). First everything
that the item names is looked up (`Item.needs`), and only then is anything written.

Taken one after the other the steps are what `Books.apply` does (`apply_eq_steps`), and the steps of all
items are the replay (`replay_eq_steps`). What a step that is refused leaves behind is known from them too
(`Books.leftBy`).
-/

namespace Daybook

/-! ### Results with what was told -/

/-- The result together with what was told, or the error. -/
def Told.outcome {α : Type} (t : Told α) : Except Error (α × List Notice) := t.result.map (·, t.notices)

section

variable {σ τ ρ α β : Type} {step : σ → α → Except Error (σ × List Notice)}

/-- One thing after another, with what both tell. -/
def andThen (x : Except Error (σ × List Notice)) (next : σ → Except Error (τ × List Notice)) :
    Except Error (τ × List Notice) :=
  match x with
  | .error e => .error e
  | .ok (s, notices) => (next s).map fun (t, more) => (t, notices ++ more)

theorem ok_bind (a : α) (next : α → Except Error β) : (Except.ok a >>= next) = next a := rfl

theorem andThen_eq_bind (x : Except Error (σ × List Notice)) (next : σ → Except Error (τ × List Notice)) :
    (x >>= fun (s, notices) => next s >>= fun (t, more) => .ok (t, notices ++ more)) = andThen x next := by
  cases x with
  | error e => rfl
  | ok taken =>
    obtain ⟨s, notices⟩ := taken
    show (next s >>= _) = (next s).map _
    cases next s <;> rfl

theorem andThen_ok_nil (s : σ) (next : σ → Except Error (τ × List Notice)) :
    andThen (.ok (s, [])) next = next s := by
  rw [andThen]
  cases next s <;> rfl

theorem andThen_quiet (x : Except Error (σ × List Notice)) :
    andThen x (fun s => .ok (s, [])) = x := by
  cases x with
  | error e => rfl
  | ok taken => simp [andThen, Except.map]

theorem andThen_map {x : Except Error σ} (next : σ → Except Error (τ × List Notice)) :
    andThen (x.map (·, [])) next = x >>= next := by
  cases x with
  | error e => rfl
  | ok s => exact andThen_ok_nil s next

theorem andThen_assoc (x : Except Error (σ × List Notice)) (f : σ → Except Error (τ × List Notice))
    (g : τ → Except Error (ρ × List Notice)) :
    andThen (andThen x f) g = andThen x fun s => andThen (f s) g := by
  cases x with
  | error e => rfl
  | ok taken =>
    obtain ⟨s, notices⟩ := taken
    cases first : f s with
    | error e => simp [andThen, first, Except.map]
    | ok taken =>
      obtain ⟨t, more⟩ := taken
      cases second : g t with
      | error e => simp [andThen, first, second, Except.map]
      | ok last => simp [andThen, first, second, Except.map]

theorem outcome_foldTelling_nil (s : σ) : (foldTelling step s []).outcome = .ok (s, []) := rfl

theorem outcome_foldTelling_cons (s : σ) (x : α) (rest : List α) :
    (foldTelling step s (x :: rest)).outcome
      = andThen (step s x) fun next => (foldTelling step next rest).outcome := by
  rw [foldTelling]
  cases step s x with
  | error e => rfl
  | ok taken =>
    obtain ⟨next, notices⟩ := taken
    simp only [andThen, Told.outcome]
    cases (foldTelling step next rest).result <;> rfl

theorem outcome_foldTelling_append (s : σ) (xs ys : List α) :
    (foldTelling step s (xs ++ ys)).outcome
      = andThen (foldTelling step s xs).outcome fun next => (foldTelling step next ys).outcome := by
  induction xs generalizing s with
  | nil => exact (andThen_ok_nil s fun next => (foldTelling step next ys).outcome).symm
  | cons x rest ih => simp only [List.cons_append, outcome_foldTelling_cons, andThen_assoc, ih]

theorem outcome_eq_ok_iff {t : Told α} {a : α} {notices : List Notice} :
    t.outcome = .ok (a, notices) ↔ t.result = .ok a ∧ t.notices = notices := by
  rw [Told.outcome, map_eq_ok_iff]
  constructor
  · rintro ⟨_, result, same⟩
    cases same
    exact ⟨result, rfl⟩
  · rintro ⟨result, rfl⟩
    exact ⟨a, result, rfl⟩

theorem Told.result_eq {α : Type} (t : Told α) : t.result = t.outcome.map Prod.fst := by
  rw [Told.outcome]
  cases t.result <;> rfl

/-- A loop whose step is a loop itself is one loop over all of the inner steps. -/
theorem outcome_foldTelling_flatMap {inner : σ → β → Except Error (σ × List Notice)} {steps : α → List β}
    (each : ∀ s x, step s x = (foldTelling inner s (steps x)).outcome) (s : σ) (xs : List α) :
    (foldTelling step s xs).outcome = (foldTelling inner s (xs.flatMap steps)).outcome := by
  induction xs generalizing s with
  | nil => rfl
  | cons x rest ih => simp only [outcome_foldTelling_cons, List.flatMap_cons, outcome_foldTelling_append, each, ih]

end

/-! ### What is looked up -/

/-- What is asked of an account. -/
inductive Demand where
  | keptIn (currency : Currency)
  | holding (company : String)
  /-- Money has a worth in the currency of the account. -/
  | valuing (money : Money)
  deriving DecidableEq

/-- Something that an item relies on, and where it is written. -/
structure Need where
  account : AccountRef
  demand : Demand
  location : Location
  deriving DecidableEq

/-- What an account lacks of what is asked of it. -/
def Account.problem? (found : Account) (rates : Basket) : Demand → Option Problem
  | .keptIn currency =>
    if found.currency = currency then none
    else some (.accountCurrency found.reference found.currency currency)
  | .holding company =>
    if (found.position? company).isSome then none else some (.noPosition company found.reference)
  | .valuing money =>
    match rates.convert money found.currency with
    | .ok _ => none
    | .error why => some (.dividendValue money found.currency why)

/-- An account for each leg on a tracked account, kept in the currency of the leg. -/
def Leg.need? (leg : Leg) : Option Need :=
  leg.posting?.map fun (account, money) => ⟨account, .keptIn money.currency, leg.location⟩

/-- What a dividend pays: money, from the holder of shares to another account. -/
structure Payment where
  source : AccountRef
  account : AccountRef
  money : Money
  location : Location
  deriving DecidableEq

/-- The payment that a transaction stands for, from its first legs. -/
def Payment.ofTransaction (t : Transaction) : Except Error Payment := do
  let source ← orError (t.ins.head?.bind Leg.account?) (.plain .dividendWithoutSource)
  let cash ← orError t.outs.head? (.plain .dividendWithoutTarget)
  let (account, money) ← orError cash.posting? (.plain .dividendToOutside)
  .ok { source, account, money, location := cash.location }

/-- What a dividend relies on: the account of the cash, the position, and the worth of the money. -/
def Payment.needs (p : Payment) (company : String) (location : Location) : List Need :=
  [⟨p.account, .keptIn p.money.currency, p.location⟩, ⟨p.source, .holding company, location⟩,
    ⟨p.source, .valuing p.money, location⟩]

/-- What a transaction relies on. Revenue that a dividend is has been looked up with the dividend. -/
def Transaction.needs (t : Transaction) : List Need :=
  if t.origin = .dividendRevenue then []
  else
    match t.kind with
    | .expense | .revenue | .transfer | .equity => t.legs.filterMap Leg.need?
    | .dividend company =>
      match Payment.ofTransaction t with
      | .error _ => []
      | .ok p => p.needs company t.location

/-- What an entry of an assertion relies on. -/
def BalanceEntry.needs (e : BalanceEntry) : List Need :=
  match e.assertion with
  | .cash money => [⟨e.account, .keptIn money.currency, e.location⟩]
  | .sharePrice company price =>
    [⟨e.account, .keptIn price.currency, e.location⟩, ⟨e.account, .holding company, e.location⟩]

/-- What an item relies on, in the order in which it is looked up. -/
def Item.needs : Item → List Need
  | transaction t => t.needs
  | balance a => a.entries.flatMap BalanceEntry.needs
  | _ => []

/-! ### Steps -/

/-- A step of an item on the books. -/
inductive Step where
  | need (need : Need)
  | refuse (why : Error)
  | credit (account : AccountRef) (amount : Decimal) (location : Location)
  /-- Makes room for a company. -/
  | hold (account : AccountRef) (company : String)
  | record (account : AccountRef) (company : String) (leg : ShareLeg) (price : Decimal)
      (location : Location)
  /-- Adds the worth of a dividend to the earnings of a position. -/
  | earn (account : AccountRef) (company : String) (money : Money) (location : Location)
  | assertion (time : Timestamp) (entry : BalanceEntry)
  | quote (rates : List ExchangeRate)
  | tell (notice : Notice)
  deriving DecidableEq

def Leg.credit? (leg : Leg) : Option Step :=
  leg.posting?.map fun (account, money) => .credit account money.amount leg.location

/-- What a transfer of shares writes: the cash, the shares of the holder, and for shares that go from one
equity account to another also those of the source. -/
def Books.ShareMove.writes (m : ShareMove) (t : Transaction) (price : Decimal) : List Step :=
  let fee := (t.tags.fee?.map Money.amount).getD .zero
  let leg : ShareLeg := ⟨m.value, m.shares.count, fee, t.effectiveDate⟩
  let back : ShareLeg := ⟨m.value, m.shares.count.neg, .zero, t.effectiveDate⟩
  let company := m.shares.company
  [.credit m.source m.given.amount m.sourceLocation, .credit m.target m.taken.amount m.targetLocation,
    .hold m.holder company, .record m.holder company leg price t.location]
    ++ (if m.isBetweenHolders then [.hold m.source company, .record m.source company back price t.location]
      else [])
    ++ [.tell (.sharesBooked t.location m.shares price m.holder)]

/-- What a transaction writes. -/
def Transaction.writes (t : Transaction) : List Step :=
  if t.origin = .dividendRevenue then []
  else
    match t.kind with
    | .expense | .revenue | .transfer => t.legs.filterMap Leg.credit?
    | .equity =>
      match Books.ShareMove.ofTransaction t with
      | .error e => [.refuse e]
      | .ok m =>
        match m.price? with
        | none => [.refuse (.overflow t.location)]
        | some price => m.writes t price
    | .dividend company =>
      match Payment.ofTransaction t with
      | .error e => [.refuse e]
      | .ok p =>
        [.credit p.account p.money.amount p.location, .earn p.source company p.money t.location]

/-- The steps of an item, in the order in which they are taken. What counts only later is told of. -/
def Item.steps (o : Options) : Item → List Step
  | .setting _ | .opening _ | .closing _ | .group _ => []
  | .rates r =>
    if o.ratePolicy = .gated ∧ o.now < r.timestamp then [.tell (.ratesSkipped r.location)]
    else [.quote r.rates]
  | .balance a =>
    if o.now < a.timestamp then [.tell (.itemSkipped a.location a.timestamp)]
    else (Item.balance a).needs.map .need ++ a.entries.map (.assertion a.timestamp)
  | .transaction t =>
    if o.now < t.effectiveDate then [.tell (.itemSkipped t.location t.effectiveDate)]
    else t.needs.map .need ++ t.writes

/-- The steps of all items, in the order in which these count. -/
def replaySteps (o : Options) (items : List Item) : List Step := (chronological items).flatMap (Item.steps o)

namespace Books

/-- What an item lacks of what it relies on. -/
def problem? (b : Books) (n : Need) : Option Problem :=
  match b.accounts.get? n.account with
  | none => some (.unknownAccount n.account)
  | some found => found.problem? b.basket n.demand

/-- Refuses what is lacking. -/
def meet (b : Books) (n : Need) : Except Error Unit :=
  match b.problem? n with
  | none => .ok ()
  | some why => .error (.meaning n.location why)

def meetAll (b : Books) : List Need → Except Error Unit
  | [] => .ok ()
  | n :: rest => do
    b.meet n
    b.meetAll rest

/-- Money in the currency of an account. -/
def worth (b : Books) (account : AccountRef) (money : Money) (location : Location) : Except Error Money := do
  let found ← b.accounts.lookup account location
  (b.basket.convert money found.currency).mapError fun why =>
    .meaning location (.dividendValue money found.currency why)

/-- Takes a step. A step that is refused changes nothing. -/
def take (b : Books) : Step → Except Error (Books × List Notice)
  | .need n => (b.meet n).map fun _ => (b, [])
  | .refuse why => .error why
  | .credit account amount location => (b.credit account amount location).map (·, [])
  | .hold account company => (b.modifyPosition account company .ok).map (·, [])
  | .record account company leg price location =>
    (b.modifyPosition account company (recordAt location price leg)).map (·, [])
  | .earn account company money location => do
    let earned ← b.worth account money location
    let b ← b.modifyPosition account company fun p =>
      orError (p.addDividend earned.amount) (.overflow location)
    .ok (b, [])
  | .assertion time entry => assertEntry time b entry
  | .quote rates => .ok ({ b with basket := b.basket.setAll rates }, [])
  | .tell notice => .ok (b, [notice])

/-- The books as steps leave them: changed by all of them, or by those before the first that is refused. -/
def leftBy (b : Books) : List Step → Books
  | [] => b
  | s :: rest =>
    match b.take s with
    | .error _ => b
    | .ok (next, _) => next.leftBy rest

/-! ### Looking up -/

variable {b : Books}

theorem meetAll_append (b : Books) (needs more : List Need) :
    b.meetAll (needs ++ more) = (b.meetAll needs >>= fun _ => b.meetAll more) := by
  induction needs with
  | nil => rfl
  | cons n rest ih => simp only [List.cons_append, meetAll, ih, bind_assoc]

/-- What is refused is the first thing that is lacking. -/
theorem meetAll_eq_error {met rest : List Need} {first : Need} {why : Problem}
    (before : ∀ n ∈ met, b.problem? n = none) (lacking : b.problem? first = some why) :
    b.meetAll (met ++ first :: rest) = .error (.meaning first.location why) := by
  induction met with
  | nil =>
    rw [List.nil_append, meetAll, meet, lacking]
    rfl
  | cons n met ih =>
    rw [List.cons_append, meetAll, meet, before n List.mem_cons_self]
    exact ih fun n mem => before n (List.mem_cons_of_mem _ mem)

/-- Where something is lacking, something is lacking first. -/
theorem exists_first {needs : List Need} {n : Need} (mem : n ∈ needs) (lacking : b.problem? n ≠ none) :
    ∃ met first rest why, needs = met ++ first :: rest ∧ (∀ n ∈ met, b.problem? n = none) ∧
      b.problem? first = some why := by
  induction needs with
  | nil => cases mem
  | cons head needs ih =>
    cases here : b.problem? head with
    | some why => exact ⟨[], head, needs, why, rfl, by simp, here⟩
    | none =>
      have later : n ∈ needs := by
        rcases List.mem_cons.1 mem with rfl | later
        · exact absurd here lacking
        · exact later
      obtain ⟨met, first, rest, why, rfl, before, first⟩ := ih later
      refine ⟨head :: met, _, rest, why, rfl, fun n mem => ?_, first⟩
      rcases List.mem_cons.1 mem with rfl | mem
      · exact here
      · exact before n mem

theorem meet_keptIn (b : Books) (account : AccountRef) (currency : Currency) (location : Location) :
    b.meet ⟨account, .keptIn currency, location⟩
      = (b.check account currency location).map fun _ => () := by
  rw [meet, problem?, check, Registry.lookup]
  cases known : b.accounts.get? account with
  | none => rfl
  | some found =>
    obtain rfl := Registry.reference_of_get? known
    by_cases kept : found.currency = currency
    · simp [Account.problem?, orError, bind, Except.bind, kept, Except.map]
    · simp [Account.problem?, orError, bind, Except.bind, kept, Except.map]

theorem meet_holding (b : Books) (account : AccountRef) (company : String) (location : Location) :
    b.meet ⟨account, .holding company, location⟩
      = (b.checkPosition account company location).map fun _ => () := by
  rw [meet, problem?, checkPosition, Registry.lookup]
  cases known : b.accounts.get? account with
  | none => rfl
  | some found =>
    obtain rfl := Registry.reference_of_get? known
    cases holds : found.position? company with
    | none => simp [Account.problem?, orError, bind, Except.bind, holds, Except.map]
    | some p => simp [Account.problem?, orError, bind, Except.bind, holds, Except.map]

theorem meet_valuing (b : Books) (account : AccountRef) (money : Money) (location : Location) :
    b.meet ⟨account, .valuing money, location⟩ = (b.worth account money location).map fun _ => () := by
  rw [meet, problem?, worth, Registry.lookup]
  cases known : b.accounts.get? account with
  | none => rfl
  | some found =>
    cases worth : b.basket.convert money found.currency with
    | error why => simp [Account.problem?, orError, bind, Except.bind, worth, Except.map, Except.mapError]
    | ok earned => simp [Account.problem?, orError, bind, Except.bind, worth, Except.map, Except.mapError]

theorem map_unit_bind {α β : Type} (x : Except Error α) (k : Except Error β) :
    ((x.map fun _ => ()) >>= fun _ => k) = x >>= fun _ => k := by
  cases x <;> rfl

theorem checkLegs_eq (b : Books) (legs : List Leg) : b.checkLegs legs = b.meetAll (legs.filterMap Leg.need?) := by
  induction legs with
  | nil => rfl
  | cons leg rest ih =>
    rw [checkLegs]
    split
    · next outside =>
      rw [List.filterMap_cons_none (by rw [Leg.need?, outside]; rfl), ih]
    · next account money owned =>
      rw [List.filterMap_cons_some (by rw [Leg.need?, owned]; rfl), meetAll, meet_keptIn, map_unit_bind, ih]

theorem checkEntry_eq (b : Books) (e : BalanceEntry) : b.checkEntry e = b.meetAll e.needs := by
  obtain ⟨account, assertion, location⟩ := e
  cases assertion with
  | cash money =>
    simp only [checkEntry, BalanceEntry.needs, meetAll, meet_keptIn]
    rw [map_unit_bind]
  | sharePrice company price =>
    simp only [checkEntry, BalanceEntry.needs, meetAll, meet_keptIn, meet_holding]
    rw [map_unit_bind, map_unit_bind]

theorem checkEntries_eq (b : Books) (entries : List BalanceEntry) :
    b.checkEntries entries = b.meetAll (entries.flatMap BalanceEntry.needs) := by
  induction entries with
  | nil => rfl
  | cons e rest ih => rw [checkEntries, checkEntry_eq, ih, List.flatMap_cons, meetAll_append]

/-! ### Steps that were taken -/

section

variable {next : Books} {s : Step} {notices : List Notice} {account : AccountRef} {company : String}
  {location : Location}

/-- A step that is one change of the books was taken because the change works. -/
theorem ok_of_take {x : Except Error Books} (same : b.take s = x.map (·, []))
    (taken : b.take s = .ok (next, notices)) : x = .ok next := by
  rw [same, map_eq_ok_iff] at taken
  obtain ⟨_, ok, rest⟩ := taken
  cases rest
  exact ok

/-- To look something up changes nothing, and finds that nothing is lacking. -/
theorem take_need_ok {n : Need} (taken : b.take (.need n) = .ok (next, notices)) :
    next = b ∧ b.problem? n = none := by
  simp only [take, meet, map_eq_ok_iff, Prod.mk.injEq] at taken
  obtain ⟨_, met, rfl, _⟩ := taken
  split at met
  · next none => exact ⟨rfl, none⟩
  · cases met

/-- A position earns what the money is worth. -/
theorem take_earn_ok {money : Money} (taken : b.take (.earn account company money location) = .ok (next, notices)) :
    ∃ earned, b.worth account money location = .ok earned ∧
      b.modifyPosition account company (fun p => orError (p.addDividend earned.amount) (.overflow location))
        = .ok next := by
  simp only [take, bind_eq_ok_iff, Except.ok.injEq, Prod.mk.injEq] at taken
  obtain ⟨earned, worth, _, changed, rfl, _⟩ := taken
  exact ⟨earned, worth, changed⟩

/-- A price that is asserted is set, and nothing is told of it. -/
theorem take_sharePrice_ok {time : Timestamp} {price : Money}
    (taken : b.take (.assertion time ⟨account, .sharePrice company price, location⟩) = .ok (next, notices)) :
    b.modifyPosition account company (fun p => .ok { p with price := price.amount }) = .ok next := by
  simp only [take, assertEntry, bind_eq_ok_iff, Except.ok.injEq, Prod.mk.injEq] at taken
  obtain ⟨_, changed, rfl, _⟩ := taken
  exact changed

end

/-! ### Writing -/

theorem outcome_needs_append (b : Books) (needs : List Need) (steps : List Step) :
    (foldTelling take b (needs.map .need ++ steps)).outcome
      = (b.meetAll needs >>= fun _ => (foldTelling take b steps).outcome) := by
  induction needs with
  | nil => rfl
  | cons n rest ih =>
    rw [List.map_cons, List.cons_append, outcome_foldTelling_cons, take, meetAll, bind_assoc, ← ih]
    cases b.meet n with
    | error e => rfl
    | ok _ => exact andThen_ok_nil b _

theorem outcome_credits (b : Books) (legs : List Leg) :
    (foldTelling take b (legs.filterMap Leg.credit?)).outcome = (b.creditLegs legs).map (·, []) := by
  induction legs generalizing b with
  | nil => rfl
  | cons leg rest ih =>
    rw [creditLegs]
    split
    · next outside =>
      rw [List.filterMap_cons_none (by rw [Leg.credit?, outside]; rfl), ih]
    · next account money owned =>
      rw [List.filterMap_cons_some (by rw [Leg.credit?, owned]; rfl), outcome_foldTelling_cons, take,
        andThen_map]
      cases b.credit account money.amount leg.location with
      | error e => rfl
      | ok next => exact ih next

theorem outcome_assertions (time : Timestamp) (b : Books) (entries : List BalanceEntry) :
    (foldTelling take b (entries.map (.assertion time))).outcome = assertEntries time b entries := by
  induction entries generalizing b with
  | nil => rfl
  | cons e rest ih =>
    rw [List.map_cons, outcome_foldTelling_cons]
    simp only [ih]
    exact (andThen_eq_bind (assertEntry time b e) fun b => assertEntries time b rest).symm

/-- To make room for a company and then to change its position is to change its position. -/
theorem modifyPosition_hold (b : Books) (account : AccountRef) (company : String)
    (f : Position → Except Error Position) :
    (b.modifyPosition account company .ok >>= fun b => b.modifyPosition account company f)
      = b.modifyPosition account company f := by
  rw [modifyPosition]
  split
  · next none =>
    rw [modifyPosition, none]
    rfl
  · next shares holds =>
    obtain ⟨found, known, held⟩ := Option.bind_eq_some_iff.1 holds
    show modifyPosition (b.modify account _) account company f = _
    have holds' : ((b.modify account fun state => { state with shares := some (shares.insert company
        ((shares.get? company).getD .empty)) }).accounts.get? account).bind (·.state.shares)
          = some (shares.insert company ((shares.get? company).getD .empty)) := by
      rw [modify, Registry.get?_modify, known]
      simp
    rw [modifyPosition, holds', modifyPosition, holds]
    simp only [SortedMap.get?_insert, if_true, Option.getD_some]
    congr 1
    funext p
    rw [modify, modify, modify, Registry.modify_modify]
    simp only [SortedMap.insert_insert]
    rfl

theorem outcome_credit_cons (b : Books) (account : AccountRef) (amount : Decimal) (location : Location)
    (rest : List Step) :
    (foldTelling take b (.credit account amount location :: rest)).outcome
      = b.credit account amount location >>= fun next => (foldTelling take next rest).outcome := by
  rw [outcome_foldTelling_cons, take, andThen_map]

theorem outcome_record_cons (b : Books) (account : AccountRef) (company : String) (leg : ShareLeg)
    (price : Decimal) (location : Location) (rest : List Step) :
    (foldTelling take b (.hold account company :: .record account company leg price location :: rest)).outcome
      = b.modifyPosition account company (recordAt location price leg) >>= fun next =>
          (foldTelling take next rest).outcome := by
  simp only [outcome_foldTelling_cons, take, andThen_map]
  rw [← bind_assoc, modifyPosition_hold]

theorem outcome_writes (b : Books) (m : ShareMove) (t : Transaction) (price : Decimal) :
    (foldTelling take b (m.writes t price)).outcome = (do
      let b ← b.credit m.source m.given.amount m.sourceLocation
      let b ← b.credit m.target m.taken.amount m.targetLocation
      let fee := (t.tags.fee?.map Money.amount).getD .zero
      let leg : ShareLeg := ⟨m.value, m.shares.count, fee, t.effectiveDate⟩
      let b ← b.modifyPosition m.holder m.shares.company (recordAt t.location price leg)
      let b ←
        if m.isBetweenHolders then
          let back : ShareLeg := ⟨m.value, m.shares.count.neg, .zero, t.effectiveDate⟩
          b.modifyPosition m.source m.shares.company (recordAt t.location price back)
        else
          .ok b
      .ok (b, [.sharesBooked t.location m.shares price m.holder])) := by
  cases between : m.isBetweenHolders with
  | true =>
    simp only [ShareMove.writes, between, if_true, List.cons_append, List.nil_append, outcome_credit_cons,
      outcome_record_cons]
    rfl
  | false =>
    simp only [ShareMove.writes, between, Bool.false_eq_true, if_false, List.append_nil, List.cons_append,
      List.nil_append, outcome_credit_cons, outcome_record_cons]
    rfl

theorem equity_eq (b : Books) (t : Transaction) (kind : t.kind = .equity)
    (direct : t.origin ≠ .dividendRevenue) : b.equity t = (foldTelling take b t.writes).outcome := by
  rw [equity, Transaction.writes, if_neg direct]
  simp only [kind]
  cases ShareMove.ofTransaction t with
  | error e => rfl
  | ok m =>
    simp only [ok_bind]
    cases m.price? with
    | none => rfl
    | some price => exact (outcome_writes b m t price).symm

/-- What money is worth in an account does not depend on balances. -/
theorem worth_credit {b b' : Books} {account other : AccountRef} {amount : Decimal} {location : Location}
    (h : b.credit account amount location = .ok b') (money : Money) (place : Location) :
    b'.worth other money place = b.worth other money place := by
  cases known : b.accounts.get? account with
  | none =>
    obtain rfl := eq_of_credit h known
    rfl
  | some paid =>
    obtain ⟨balance, _, rfl⟩ := exists_of_credit h known
    rw [worth, worth, Registry.lookup, Registry.lookup, modify, Registry.get?_modify]
    cases b.accounts.get? other with
    | none => rfl
    | some found =>
      by_cases here : account = other
      · simp only [here, Option.map_some, if_true]
        rfl
      · simp only [here, Option.map_some, if_false]

/-- Applies the payment of a dividend. -/
def pay (b : Books) (p : Payment) (company : String) (location : Location) : Except Error Books := do
  let _ ← b.check p.account p.money.currency p.location
  let holder ← b.checkPosition p.source company location
  let earned ← (b.basket.convert p.money holder.currency).mapError fun why =>
    .meaning location (.dividendValue p.money holder.currency why)
  let b ← b.credit p.account p.money.amount p.location
  b.modifyPosition p.source company fun q =>
    orError (q.addDividend earned.amount) (.overflow location)

theorem dividend_eq_pay (b : Books) (t : Transaction) (company : String) :
    b.dividend t company = Payment.ofTransaction t >>= fun p => b.pay p company t.location := by
  rw [dividend, Payment.ofTransaction]
  simp only [bind_assoc]
  rfl

theorem pay_eq (b : Books) (p : Payment) (company : String) (location : Location) :
    (b.pay p company location).map (·, [])
      = (foldTelling take b ((p.needs company location).map .need
          ++ [.credit p.account p.money.amount p.location, .earn p.source company p.money location])).outcome := by
  rw [outcome_needs_append, outcome_credit_cons, Payment.needs, pay]
  simp only [meetAll, meet_keptIn, meet_holding, meet_valuing, bind_assoc]
  simp only [map_unit_bind, ok_bind]
  cases b.check p.account p.money.currency p.location with
  | error e => rfl
  | ok _ =>
    cases holds : b.checkPosition p.source company location with
    | error e => rfl
    | ok holder =>
      -- The holder that was found is the account whose currency the money is counted in.
      have found : b.worth p.source p.money location = (b.basket.convert p.money holder.currency).mapError
          fun why => .meaning location (.dividendValue p.money holder.currency why) := by
        rw [worth, Registry.lookup, (checkPosition_ok holds).1]
        rfl
      simp only [ok_bind, ← found]
      cases earned : b.worth p.source p.money location with
      | error e => rfl
      | ok money =>
        simp only [ok_bind]
        cases credited : b.credit p.account p.money.amount p.location with
        | error e => rfl
        | ok next =>
          simp only [ok_bind, outcome_foldTelling_cons, outcome_foldTelling_nil, take, worth_credit credited,
            earned, andThen_quiet]
          cases next.modifyPosition p.source company _ <;> rfl

theorem dividend_eq (b : Books) (t : Transaction) (company : String) (kind : t.kind = .dividend company)
    (direct : t.origin ≠ .dividendRevenue) :
    (b.dividend t company).map (·, [])
      = (foldTelling take b (t.needs.map .need ++ t.writes)).outcome := by
  rw [dividend_eq_pay, Transaction.needs, Transaction.writes, if_neg direct, if_neg direct]
  simp only [kind]
  cases Payment.ofTransaction t with
  | error e => rfl
  | ok p => exact pay_eq b p company t.location

/-! ### Items -/

theorem transaction_eq (b : Books) (t : Transaction) :
    b.transaction t = (foldTelling take b (t.needs.map .need ++ t.writes)).outcome := by
  rw [transaction]
  split
  · next mirror =>
    rw [Transaction.needs, Transaction.writes, if_pos mirror, if_pos mirror]
    rfl
  · next direct =>
    split
    case h_4 kind =>
      rw [outcome_needs_append, ← equity_eq b t kind direct, Transaction.needs, if_neg direct, kind, checkLegs_eq]
    case h_5 company kind =>
      rw [← dividend_eq b t company kind direct]
      cases b.dividend t company <;> rfl
    all_goals
      rename_i kind
      rw [outcome_needs_append, Transaction.needs, Transaction.writes, if_neg direct, if_neg direct, kind,
        checkLegs_eq]
      dsimp only
      rw [outcome_credits]
      congr 1

/-- **The steps of an item are what is done when it is applied.** -/
theorem apply_eq_steps (o : Options) (b : Books) (i : Item) :
    b.apply o i = (foldTelling take b (i.steps o)).outcome := by
  cases i with
  | rates r =>
    rw [apply, setRates, Item.steps]
    split <;> rfl
  | balance a =>
    rw [apply, Item.steps]
    split
    · rfl
    · rw [balance, checkEntries_eq, outcome_needs_append, outcome_assertions]
      rfl
  | transaction t =>
    rw [apply, Item.steps]
    split
    · rfl
    · exact transaction_eq b t
  | _ => rfl

theorem outcome_eq_steps (o : Options) (b : Books) (items : List Item) :
    (foldTelling (apply o) b items).outcome = (foldTelling take b (items.flatMap (Item.steps o))).outcome :=
  outcome_foldTelling_flatMap (apply_eq_steps o) b items

theorem result_eq_steps (o : Options) (b : Books) (items : List Item) :
    (foldTelling (apply o) b items).result = (foldTelling take b (items.flatMap (Item.steps o))).result := by
  rw [Told.result_eq, Told.result_eq, outcome_eq_steps]

/-- **The steps of all items are the replay.** -/
theorem replay_eq_steps (o : Options) (b : Books) (items : List Item) :
    (replay o b items).outcome = (foldTelling take b (replaySteps o items)).outcome :=
  outcome_eq_steps o b (chronological items)

/-- What steps leave behind is their result, where none of them is refused. -/
theorem leftBy_of_ok {b b' : Books} {steps : List Step} (h : (foldTelling take b steps).result = .ok b') :
    b.leftBy steps = b' := by
  induction steps generalizing b with
  | nil =>
    cases h
    rfl
  | cons s rest ih =>
    obtain ⟨next, notices, taken, h⟩ := result_foldTelling_cons.1 h
    rw [leftBy, taken]
    exact ih h

end Books

end Daybook
