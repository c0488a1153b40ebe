import Daybook.Proofs.Account.Openings

/-!
# The books, seen from one account

Everything that the replay does to one account is a change of its balance or of one of its positions.
`Evolves a b b' balances shares` says that books became others by such changes, as far as one account can
tell. Each operation of the replay is here the list of its changes, and operations one after the other
are their lists joined (`Evolves.trans`).
-/

namespace Daybook

/-! ### Changes -/

/-- A change of the balance of an account. -/
inductive BalanceEffect where
  | add (amount : Decimal)
  | replace (amount : Decimal)
  deriving DecidableEq

/-- The balance after a change, unless it does not fit. -/
def BalanceEffect.apply (balance : Decimal) : BalanceEffect → Option Decimal
  | add amount => balance.add amount
  | replace amount => some amount

/-- A change of the position of an account in a company. A figure that is worked out for it may be
missing, and then the change fails. -/
inductive ShareEvent where
  /-- Shares come in or go out, at a price. -/
  | traded (leg : ShareLeg) (price : Option Decimal)
  /-- A dividend is paid, in the currency of the account. -/
  | earned (amount : Option Decimal)
  /-- The price of a share is known. -/
  | priced (price : Decimal)
  deriving DecidableEq

/-- The position after a change. Only shares that come in or go out make a position where there is none;
anything else fails there. -/
def ShareEvent.apply (p : Option Position) : ShareEvent → Option (Option Position)
  | traded leg price => do
    let p ← (p.getD .empty).record leg
    let price ← price
    some (some { p with price })
  | earned amount => do
    let p ← p
    let amount ← amount
    let p ← p.addDividend amount
    some (some p)
  | priced price => do
    let p ← p
    some (some { p with price })

/-- A change leaves a position. -/
theorem ShareEvent.isSome_of_apply {p p' : Option Position} {e : ShareEvent}
    (h : e.apply p = some p') : p'.isSome := by
  cases e with
  | traded leg price =>
    simp only [apply, Option.bind_eq_bind, Option.bind_eq_some_iff, Option.some.injEq] at h
    obtain ⟨_, _, _, _, rfl⟩ := h
    rfl
  | earned amount =>
    simp only [apply, Option.bind_eq_bind, Option.bind_eq_some_iff, Option.some.injEq] at h
    obtain ⟨_, _, _, _, _, _, rfl⟩ := h
    rfl
  | priced price =>
    simp only [apply, Option.bind_eq_bind, Option.bind_eq_some_iff, Option.some.injEq] at h
    obtain ⟨_, _, rfl⟩ := h
    rfl

/-! ### Accounts in the books -/

namespace Books

def state? (b : Books) (a : AccountRef) : Option AccountState := (b.accounts.get? a).map Account.state

def balanceOf? (b : Books) (a : AccountRef) : Option Decimal := (b.state? a).map AccountState.balance

/-- What an account holds of a company. -/
def positionOf? (b : Books) (a : AccountRef) (company : String) : Option Position :=
  (b.state? a).bind fun s => s.shares.bind (·.get? company)

variable {b b' b'' : Books} {a account : AccountRef}

@[simp]
theorem openings_modify (b : Books) (account : AccountRef) (f : AccountState → AccountState) :
    (b.modify account f).accounts.openings = b.accounts.openings :=
  Registry.openings_modify b.accounts account f

theorem state?_modify (b : Books) (account a : AccountRef) (f : AccountState → AccountState) :
    (b.modify account f).state? a = (b.state? a).map fun s => if account = a then f s else s := by
  rw [state?, modify, Registry.get?_modify, state?, Option.map_map, Option.map_map]
  congr 1
  funext found
  simp only [Function.comp_apply]
  split <;> rfl

theorem state?_of_get? {found : Account} (h : b.accounts.get? a = some found) :
    b.state? a = some found.state := by
  rw [state?, h]
  rfl

theorem balanceOf?_of_get? {found : Account} (h : b.accounts.get? a = some found) :
    b.balanceOf? a = some found.state.balance := by
  rw [balanceOf?, state?_of_get? h]
  rfl

theorem positionOf?_of_get? {found : Account} (h : b.accounts.get? a = some found) (company : String) :
    b.positionOf? a company = found.position? company := by
  rw [positionOf?, state?_of_get? h]
  rfl

def quoting (b : Books) (rates : Basket) : Books := { b with basket := rates }

@[simp]
theorem quoting_basket (b : Books) : b.quoting b.basket = b := rfl

@[simp]
theorem quoting_quoting (b : Books) (rates later : Basket) :
    (b.quoting rates).quoting later = b.quoting later := rfl

end Books

/-! ### Books that become others -/

/-- Seen from an account, books became others by changes of its balance and, company by company, of its
positions, and by nothing else. -/
structure Evolves (a : AccountRef) (b b' : Books) (balances : List BalanceEffect)
    (shares : String → List ShareEvent) : Prop where
  openings : b'.accounts.openings = b.accounts.openings
  basket : b'.basket = b.basket
  balance : b'.balanceOf? a = (b.balanceOf? a).bind fun v => balances.foldlM BalanceEffect.apply v
  positions : ∀ company, (shares company).foldlM ShareEvent.apply (b.positionOf? a company)
    = some (b'.positionOf? a company)

namespace Evolves

variable {a account : AccountRef} {b b' b'' : Books} {balances balances' : List BalanceEffect}
  {shares shares' : String → List ShareEvent}

theorem refl (a : AccountRef) (b : Books) : Evolves a b b [] fun _ => [] where
  openings := rfl
  basket := rfl
  balance := by simp
  positions _ := rfl

/-- **One after the other, changes are joined.** -/
theorem trans (first : Evolves a b b' balances shares) (second : Evolves a b' b'' balances' shares') :
    Evolves a b b'' (balances ++ balances') fun company => shares company ++ shares' company where
  openings := second.openings.trans first.openings
  basket := second.basket.trans first.basket
  balance := by
    rw [second.balance, first.balance, Option.bind_assoc]
    congr 1
    funext v
    rw [List.foldlM_append]
    rfl
  positions company := by
    rw [List.foldlM_append, first.positions company]
    exact second.positions company

/-- The rates do not matter for what happens to an account. -/
theorem quoting (h : Evolves a b b' balances shares) (rates : Basket) :
    Evolves a (b.quoting rates) (b'.quoting rates) balances shares where
  openings := h.openings
  basket := rfl
  balance := h.balance
  positions := h.positions

/-- What is held goes on being held. -/
theorem isSome_positionOf? (h : Evolves a b b' balances shares) {company : String}
    (before : (b.positionOf? a company).isSome) : (b'.positionOf? a company).isSome := by
  have run := h.positions company
  rcases List.eq_nil_or_concat (shares company) with quiet | ⟨rest, last, events⟩
  · rw [quiet] at run
    rw [← Option.some.inj run]
    exact before
  · rw [events, List.concat_eq_append, List.foldlM_append] at run
    obtain ⟨p, _, run⟩ := Option.bind_eq_some_iff.1 run
    simp only [List.foldlM_cons, List.foldlM_nil, Option.bind_eq_bind, Option.bind_eq_some_iff] at run
    obtain ⟨p', run, same⟩ := run
    rw [← Option.some.inj same]
    exact ShareEvent.isSome_of_apply run

end Evolves

/-! ### Balances -/

/-- The amount of a leg that is on an account. -/
def Leg.amountOn? (a : AccountRef) (leg : Leg) : Option Decimal :=
  leg.posting?.bind fun (account, money) => if account = a then some money.amount else none

/-- The amounts of legs on an account, as changes of its balance. -/
def Leg.effectsOn (a : AccountRef) (legs : List Leg) : List BalanceEffect :=
  (legs.filterMap (amountOn? a)).map .add

theorem Leg.effectsOn_append (a : AccountRef) (legs more : List Leg) :
    effectsOn a (legs ++ more) = effectsOn a legs ++ effectsOn a more := by
  simp [effectsOn]

theorem Leg.effectsOn_of_outside {leg : Leg} (h : leg.posting? = none) (a : AccountRef) :
    effectsOn a [leg] = [] := by
  simp [effectsOn, amountOn?, h]

theorem Leg.effectsOn_of_posting? {leg : Leg} {account : AccountRef} {money : Money}
    (h : leg.posting? = some (account, money)) (a : AccountRef) :
    effectsOn a [leg] = if account = a then [.add money.amount] else [] := by
  by_cases same : account = a <;> simp [effectsOn, amountOn?, h, same]

namespace Books

variable {a account : AccountRef} {b b' : Books}

/-- What is credited to an account that is not there changes nothing. -/
theorem eq_of_credit {amount : Decimal} {location : Location} (h : b.credit account amount location = .ok b')
    (missing : b.accounts.get? account = none) : b' = b := by
  rw [credit, missing] at h
  cases h
  rfl

/-- What is credited to an account that is known is added to its balance. -/
theorem exists_of_credit {amount : Decimal} {location : Location} {found : Account}
    (h : b.credit account amount location = .ok b') (known : b.accounts.get? account = some found) :
    ∃ w, found.state.balance.add amount = some w ∧ b' = b.modify account fun s => { s with balance := w } := by
  rw [credit, known] at h
  simp only [bind_eq_ok_iff, orError_eq_ok_iff, Except.ok.injEq] at h
  obtain ⟨w, sum, rfl⟩ := h
  exact ⟨w, sum, rfl⟩

/-- A position that is changed is one of an account that can hold shares. -/
theorem exists_of_modifyPosition {company : String} {f : Position → Except Error Position}
    (h : b.modifyPosition account company f = .ok b') :
    ∃ found shares q, b.accounts.get? account = some found ∧ found.state.shares = some shares ∧
      f ((shares.get? company).getD .empty) = .ok q ∧
      b' = b.modify account fun s => { s with shares := some (shares.insert company q) } := by
  rw [modifyPosition] at h
  split at h
  · cases h
  · next shares holds =>
    obtain ⟨found, known, holds⟩ := Option.bind_eq_some_iff.1 holds
    simp only [bind_eq_ok_iff, Except.ok.injEq] at h
    obtain ⟨q, changed, rfl⟩ := h
    exact ⟨found, shares, q, known, holds, changed, rfl⟩

/-- A balance that is set is a change of one account, of which the others see nothing. -/
theorem evolves_of_setBalance {found : Account} {v : Decimal} {e : BalanceEffect}
    (known : b.accounts.get? account = some found) (does : e.apply found.state.balance = some v) :
    Evolves a b (b.modify account fun state => { state with balance := v })
      (if account = a then [e] else []) fun _ => [] := by
  refine ⟨openings_modify _ _ _, rfl, ?_, fun company => ?_⟩
  · rw [balanceOf?, balanceOf?, state?_modify]
    split
    · next same =>
      subst same
      simp [state?_of_get? known, does]
    · simp
  · rw [positionOf?, positionOf?, state?_modify]
    cases b.state? a with
    | none => rfl
    | some s =>
      simp only [Option.map_some, Option.bind_some]
      split <;> rfl

theorem evolves_of_credit {amount : Decimal} {location : Location}
    (h : b.credit account amount location = .ok b') :
    Evolves a b b' (if account = a then [.add amount] else []) fun _ => [] := by
  cases known : b.accounts.get? account with
  | none =>
    obtain rfl := eq_of_credit h known
    refine ⟨rfl, rfl, ?_, fun _ => rfl⟩
    split
    · next same =>
      subst same
      simp [balanceOf?, state?, known]
    · simp
  | some found =>
    obtain ⟨w, sum, rfl⟩ := exists_of_credit h known
    exact evolves_of_setBalance known sum

theorem evolves_of_creditLegs {legs : List Leg} (h : b.creditLegs legs = .ok b') :
    Evolves a b b' (Leg.effectsOn a legs) fun _ => [] := by
  induction legs generalizing b with
  | nil =>
    cases h
    exact .refl a _
  | cons leg rest ih =>
    have parts := Leg.effectsOn_append a [leg] rest
    rw [List.singleton_append] at parts
    rw [creditLegs] at h
    split at h
    · next outside =>
      rw [parts, Leg.effectsOn_of_outside outside]
      exact ih h
    · next account money owned =>
      obtain ⟨next, credited, h⟩ := bind_eq_ok_iff.1 h
      rw [parts, Leg.effectsOn_of_posting? owned]
      exact (evolves_of_credit credited).trans (ih h)

/-! ### Positions -/

/-- A position is changed by an event that does to it what the change does. -/
theorem evolves_of_modifyPosition {company : String} {f : Position → Except Error Position}
    {e : ShareEvent} (h : b.modifyPosition account company f = .ok b')
    (does : account = a → ∀ p, f ((b.positionOf? account company).getD .empty) = .ok p →
      e.apply (b.positionOf? account company) = some (some p)) :
    Evolves a b b' [] fun c => if account = a ∧ company = c then [e] else [] := by
  obtain ⟨found, shares, p, known, holds, changed, rfl⟩ := exists_of_modifyPosition h
  have before (c : String) : b.positionOf? account c = shares.get? c := by
    rw [positionOf?, state?_of_get? known]
    simp [holds]
  refine ⟨openings_modify _ _ _, rfl, ?_, fun c => ?_⟩
  · rw [balanceOf?, balanceOf?, state?_modify]
    cases b.state? a with
    | none => rfl
    | some s =>
      simp only [Option.map_some, Option.bind_some, List.foldlM_nil]
      split <;> rfl
  · by_cases here : account = a
    · subst here
      have after (c : String) : (b.modify account fun state =>
          { state with shares := some (shares.insert company p) }).positionOf? account c
            = if company = c then some p else b.positionOf? account c := by
        rw [positionOf?, state?_modify, state?_of_get? known]
        simp [before, SortedMap.get?_insert]
      rw [after]
      by_cases same : company = c
      · subst same
        rw [← before] at changed
        simp [does rfl p changed]
      · simp [same]
    · have after : (b.modify account fun state =>
          { state with shares := some (shares.insert company p) }).positionOf? a c
            = b.positionOf? a c := by
        rw [positionOf?, positionOf?, state?_modify]
        simp [here]
      rw [after]
      simp [here]

/-! ### Transactions -/

/-- How a transaction has been applied: with the dividend that it is the revenue from, by its legs, as a
transfer of shares, or as a dividend. -/
inductive Applied (b : Books) (t : Transaction) : Books → List Notice → Prop
  | mirror : t.origin = .dividendRevenue → Applied b t b []
  | cash {next : Books} : t.origin ≠ .dividendRevenue → t.kind ≠ .equity →
      (∀ company, t.kind ≠ .dividend company) → b.checkLegs t.legs = .ok () →
      b.creditLegs t.legs = .ok next → Applied b t next []
  | equity {next : Books} {notices : List Notice} : t.origin ≠ .dividendRevenue → t.kind = .equity →
      b.checkLegs t.legs = .ok () → b.equity t = .ok (next, notices) → Applied b t next notices
  | dividend {company : String} {next : Books} : t.origin ≠ .dividendRevenue → t.kind = .dividend company →
      b.dividend t company = .ok next → Applied b t next []

theorem applied_of_transaction {t : Transaction} {notices : List Notice}
    (h : b.transaction t = .ok (b', notices)) : Applied b t b' notices := by
  rw [transaction] at h
  split at h
  · next mirror =>
    cases h
    exact .mirror mirror
  · next direct =>
    split at h
    case h_4 kind =>
      obtain ⟨_, checked, traded⟩ := bind_eq_ok_iff.1 h
      exact .equity direct kind checked traded
    case h_5 company kind =>
      simp only [bind_eq_ok_iff, Except.ok.injEq, Prod.mk.injEq] at h
      obtain ⟨_, paid, rfl, rfl⟩ := h
      exact .dividend direct kind paid
    all_goals
      rename_i kind
      simp only [bind_eq_ok_iff, Except.ok.injEq, Prod.mk.injEq] at h
      obtain ⟨_, checked, _, credited, rfl, rfl⟩ := h
      exact .cash direct (by simp [kind]) (by simp [kind]) checked credited

end Books

end Daybook
