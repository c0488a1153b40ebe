import Daybook.Proofs.Decimal.Exact
import Daybook.Proofs.Replay.InPlace
import Mathlib.Data.List.Forall2

/-!
# Two replays, side by side

Two books can be told apart by their balances and positions. A `Tie` says which balances of an account, and
which positions in a company, are taken as alike. Books are tied if all of theirs are, and nothing else
about them is different. A step keeps books tied if the tie allows it and nothing is rounded
(`Tied.take`), and so does a run of steps (`Tied.run`).
-/

namespace Daybook

/-! ### Sums that are not rounded -/

namespace Books

/-- No balance and no earnings are rounded when a step adds to them. -/
def AddsExactly (b : Books) : Step → Prop
  | .credit account amount _ => ∀ v ∈ b.balanceOf? account, Decimal.AddsExactly v [amount]
  | .earn account company money location => ∀ earned ∈ (b.worth account money location).toOption,
      Decimal.AddsExactly ((b.positionOf? account company).getD .empty).dividends [earned.amount]
  | _ => True

instance (b : Books) : (s : Step) → Decidable (b.AddsExactly s)
  | .credit _ _ _ | .earn _ _ _ _ => inferInstanceAs (Decidable (∀ _ ∈ _, _))
  | .need _ | .refuse _ | .hold _ _ | .record _ _ _ _ _ | .assertion _ _ | .quote _ | .tell _ => isTrue trivial

/-- No step of a run rounds. -/
def RunsExactly (b : Books) : List Step → Prop
  | [] => True
  | s :: rest => b.AddsExactly s ∧ ∀ taken ∈ (b.take s).toOption, taken.1.RunsExactly rest

instance decidableRunsExactly (b : Books) : (steps : List Step) → Decidable (b.RunsExactly steps)
  | [] => isTrue trivial
  | s :: rest =>
    have := fun next : Books => decidableRunsExactly next rest
    inferInstanceAs (Decidable (b.AddsExactly s ∧ ∀ taken ∈ (b.take s).toOption, taken.1.RunsExactly rest))

variable {b next : Books}

theorem RunsExactly.tail {s : Step} {rest : List Step} {notices : List Notice} (h : b.RunsExactly (s :: rest))
    (taken : b.take s = .ok (next, notices)) : next.RunsExactly rest :=
  h.2 _ (toOption_eq_some_iff.2 taken)

theorem runsExactly_append {xs ys : List Step} (h : b.RunsExactly (xs ++ ys))
    (ran : (foldTelling take b xs).result = .ok next) : b.RunsExactly xs ∧ next.RunsExactly ys := by
  induction xs generalizing b with
  | nil =>
    cases ran
    exact ⟨trivial, h⟩
  | cons s rest ih =>
    obtain ⟨c, _, taken, ran⟩ := result_foldTelling_cons.1 ran
    obtain ⟨first, later⟩ := ih (h.tail taken) ran
    refine ⟨⟨h.1, fun other isOther => ?_⟩, later⟩
    rw [toOption_eq_some_iff.2 taken] at isOther
    cases isOther
    exact first

end Books

/-- No step of the replay of items rounds. -/
def ReplaysExactly (o : Options) (items : List Item) : Prop :=
  ∀ registry ∈ (Registry.ofItems items).toOption, Books.RunsExactly ⟨registry, .empty⟩ (replaySteps o items)

instance (o : Options) (items : List Item) : Decidable (ReplaysExactly o items) :=
  inferInstanceAs (Decidable (∀ _ ∈ _, _))

/-- In a replay that does not round, neither does what comes after some items. -/
theorem ReplaysExactly.late {o : Options} {items early late : List Item} {registry : Registry} {b : Books}
    (h : ReplaysExactly o items) (opened : Registry.ofItems items = .ok registry)
    (order : chronological items = early ++ late)
    (start : (foldTelling (Books.apply o) ⟨registry, .empty⟩ early).result = .ok b) :
    b.RunsExactly (late.flatMap (Item.steps o)) := by
  have all := h registry (toOption_eq_some_iff.2 opened)
  rw [replaySteps, order, List.flatMap_append] at all
  rw [Books.result_eq_steps] at start
  exact (Books.runsExactly_append all start).2

/-! ### Ties -/

/-- Which balances of an account, and which positions of an account in a company, are taken as alike. -/
structure Tie where
  balance : AccountRef → Decimal → Decimal → Prop
  held : AccountRef → String → Option Position → Option Position → Prop

/-- A step keeps alike what is alike, as far as it adds exactly. -/
def Tie.Keeps (T : Tie) : Step → Prop
  | .credit a x _ => ∀ v v' w w', T.balance a v v' → v.add x = some w → v'.add x = some w' →
      w.units = v.units + x.units → w'.units = v'.units + x.units → T.balance a w w'
  | .hold a company => ∀ p p', T.held a company p p' →
      T.held a company (some (p.getD .empty)) (some (p'.getD .empty))
  | .record a company leg price location => ∀ p p' q q', T.held a company p p' →
      Books.recordAt location price leg (p.getD .empty) = .ok q →
      Books.recordAt location price leg (p'.getD .empty) = .ok q' → T.held a company (some q) (some q')
  | .earn a company _ _ => ∀ x p p' q q', T.held a company p p' →
      (p.getD .empty).addDividend x = some q → (p'.getD .empty).addDividend x = some q' →
      q.dividends.units = (p.getD .empty).dividends.units + x.units →
      q'.dividends.units = (p'.getD .empty).dividends.units + x.units → T.held a company (some q) (some q')
  | .assertion _ e =>
    match e.assertion with
    | .cash money => T.balance e.account money.amount money.amount
    | .sharePrice company price => ∀ p p', T.held e.account company p p' →
        T.held e.account company (some { p.getD .empty with price := price.amount })
          (some { p'.getD .empty with price := price.amount })
  | .need _ | .refuse _ | .quote _ | .tell _ => True

/-- Two states of an account that are alike in balance and positions, and otherwise the same. -/
structure AccountState.Tied (T : Tie) (a : AccountRef) (s s' : AccountState) : Prop where
  balance : T.balance a s.balance s'.balance
  active : s'.active = s.active
  totals : s'.totals = s.totals
  shares : Option.Rel (fun m m' => ∀ company, T.held a company (m.get? company) (m'.get? company))
    s.shares s'.shares

structure Account.Tied (T : Tie) (a a' : Account) : Prop where
  opening : a'.opening = a.opening
  state : a.state.Tied T a.reference a'.state

namespace Books

theorem modify_id (b : Books) (a : AccountRef) : b.modify a id = b := by
  have same : b.accounts.modify a id = b.accounts := by
    apply Registry.eq_of_accounts_eq
    show b.accounts.accounts.map (fun x => if x.reference = a then x else x) = b.accounts.accounts
    simp
  rw [modify, same]

structure Tied (T : Tie) (b b' : Books) : Prop where
  accounts : List.Forall₂ (Account.Tied T) b.accounts.accounts b'.accounts.accounts
  basket : b'.basket = b.basket

namespace Tied

variable {T : Tie} {b b' next next' : Books} {a : AccountRef} {company : String} {location : Location}

/-- Books are tied to themselves if all balances and positions are. -/
theorem refl (balance : ∀ a v, T.balance a v v) (held : ∀ a company p, T.held a company p p) (b : Books) :
    Tied T b b := by
  refine ⟨List.forall₂_same.2 fun a _ => ⟨rfl, balance _ _, rfl, rfl, ?_⟩, rfl⟩
  cases a.state.shares with
  | none => exact .none
  | some shares => exact .some fun _ => held _ _ _

/-! ### Accounts of tied books -/

theorem rel_get? (h : Tied T b b') (a : AccountRef) :
    Option.Rel (Account.Tied T) (b.accounts.get? a) (b'.accounts.get? a) := by
  obtain ⟨accounts, _⟩ := h
  rw [Registry.get?, Registry.get?]
  generalize b.accounts.accounts = xs at accounts
  generalize b'.accounts.accounts = xs' at accounts
  induction accounts with
  | nil => exact .none
  | @cons x x' xs xs' tied _ ih =>
    have same : x'.reference = x.reference := congrArg Opening.account tied.opening
    simp only [List.find?_cons, same]
    split
    · exact .some tied
    · exact ih

/-- Tied books have the same accounts. -/
theorem get?_eq_none (h : Tied T b b') (missing : b.accounts.get? a = none) : b'.accounts.get? a = none := by
  have tied := h.rel_get? a
  rw [missing] at tied
  generalize b'.accounts.get? a = other at tied
  cases tied
  rfl

theorem exists_get? (h : Tied T b b') {found : Account} (known : b.accounts.get? a = some found) :
    ∃ found', b'.accounts.get? a = some found' ∧ found'.opening = found.opening ∧
      found.state.Tied T a found'.state := by
  have tied := h.rel_get? a
  rw [known] at tied
  generalize b'.accounts.get? a = other at tied
  cases tied with
  | @some _ found' tied => exact ⟨found', rfl, tied.opening, Registry.reference_of_get? known ▸ tied.state⟩

/-- The positions of tied books are tied. -/
theorem held (h : Tied T b b') {p : Position} (position : b.positionOf? a company = some p) :
    T.held a company (b.positionOf? a company) (b'.positionOf? a company) := by
  obtain ⟨state, isState, some⟩ := Option.bind_eq_some_iff.1 position
  obtain ⟨found, known, rfl⟩ := Option.map_eq_some_iff.1 isState
  obtain ⟨shares, holds, _⟩ := Option.bind_eq_some_iff.1 some
  obtain ⟨found', known', _, tied⟩ := h.exists_get? known
  have both := tied.shares
  rw [positionOf?_of_get? known, positionOf?_of_get? known', Account.position?, Account.position?]
  rw [holds] at both ⊢
  generalize found'.state.shares = other at both ⊢
  cases both with
  | some both => exact both company

/-- A change of an account takes books from one tie to another if it does so for the account. -/
theorem modify_to {T' : Tie} (h : Tied T b b') {f f' : AccountState → AccountState}
    (others : ∀ (r : AccountRef) (s s' : AccountState), r ≠ a → s.Tied T r s' → s.Tied T' r s')
    (each : ∀ found s', b.accounts.get? a = some found → found.state.Tied T a s' →
      (f found.state).Tied T' a (f' s')) :
    Tied T' (b.modify a f) (b'.modify a f') := by
  refine ⟨?_, h.basket⟩
  have known : ∀ x ∈ b.accounts.accounts, b.accounts.get? x.reference = some x :=
    fun x mem => Registry.get?_of_mem mem
  show List.Forall₂ _ (b.accounts.accounts.map _) (b'.accounts.accounts.map _)
  rw [List.forall₂_map_left_iff, List.forall₂_map_right_iff]
  refine ((List.forall₂_and_left _ _).2 ⟨known, h.accounts⟩).imp fun x x' both => ?_
  obtain ⟨known, tied⟩ := both
  have same : x'.reference = x.reference := congrArg Opening.account tied.opening
  by_cases here : x.reference = a
  · rw [if_pos here, if_pos (same.trans here)]
    refine ⟨tied.opening, ?_⟩
    show (f x.state).Tied T' x.reference (f' x'.state)
    rw [here]
    exact each x x'.state (here ▸ known) (here ▸ tied.state)
  · rw [if_neg here, if_neg (same ▸ here)]
    exact ⟨tied.opening, others _ _ _ here tied.state⟩

/-- A change of an account keeps books tied if it does so for the account. -/
theorem modify (h : Tied T b b') {f f' : AccountState → AccountState}
    (each : ∀ found s', b.accounts.get? a = some found → found.state.Tied T a s' → (f found.state).Tied T a (f' s')) :
    Tied T (b.modify a f) (b'.modify a f') :=
  h.modify_to (fun _ _ _ _ tied => tied) each

/-! ### Operations on tied books -/

theorem setBalance (h : Tied T b b') {v v' : Decimal} (alike : T.balance a v v') :
    Tied T (b.modify a fun state => { state with balance := v })
      (b'.modify a fun state => { state with balance := v' }) :=
  h.modify fun _ _ _ tied => ⟨alike, tied.active, tied.totals, tied.shares⟩

theorem credit (h : Tied T b b') {amount : Decimal}
    (alike : ∀ v ∈ b.balanceOf? a, ∀ v' ∈ b'.balanceOf? a, ∀ w w', T.balance a v v' → v.add amount = some w →
      v'.add amount = some w' → T.balance a w w')
    (taken : b.credit a amount location = .ok next) (taken' : b'.credit a amount location = .ok next') :
    Tied T next next' := by
  cases known : b.accounts.get? a with
  | none =>
    obtain rfl := eq_of_credit taken known
    obtain rfl := eq_of_credit taken' (h.get?_eq_none known)
    exact h
  | some found =>
    obtain ⟨found', known', _, tied⟩ := h.exists_get? known
    obtain ⟨w, sum, rfl⟩ := exists_of_credit taken known
    obtain ⟨w', sum', rfl⟩ := exists_of_credit taken' known'
    exact h.setBalance
      (alike _ (balanceOf?_of_get? known) _ (balanceOf?_of_get? known') w w' tied.balance sum sum')

theorem modifyPosition (h : Tied T b b') {f f' : Position → Except Error Position}
    (alike : ∀ q q', T.held a company (b.positionOf? a company) (b'.positionOf? a company) →
      f ((b.positionOf? a company).getD .empty) = .ok q →
      f' ((b'.positionOf? a company).getD .empty) = .ok q' → T.held a company (some q) (some q'))
    (taken : b.modifyPosition a company f = .ok next) (taken' : b'.modifyPosition a company f' = .ok next') :
    Tied T next next' := by
  obtain ⟨found, shares, q, known, holds, changed, rfl⟩ := exists_of_modifyPosition taken
  obtain ⟨found', shares', q', known', holds', changed', rfl⟩ := exists_of_modifyPosition taken'
  obtain ⟨_, isFound', _, tied⟩ := h.exists_get? known
  cases known'.symm.trans isFound'
  have both := tied.shares
  rw [holds, holds'] at both
  obtain ⟨both⟩ := both
  have before : b.positionOf? a company = shares.get? company := by
    rw [positionOf?_of_get? known, Account.position?, holds]
    rfl
  have before' : b'.positionOf? a company = shares'.get? company := by
    rw [positionOf?_of_get? known', Account.position?, holds']
    rfl
  rw [before, before'] at alike
  refine h.modify fun _ _ _ tied => ⟨tied.balance, tied.active, tied.totals, .some fun c => ?_⟩
  rw [SortedMap.get?_insert, SortedMap.get?_insert]
  by_cases same : company = c
  · rw [if_pos same, if_pos same]
    exact same ▸ alike q q' (both company) changed changed'
  · rw [if_neg same, if_neg same]
    exact both c

/-- Money is worth the same in tied books. -/
theorem worth (h : Tied T b b') (a : AccountRef) (money : Money) (location : Location) :
    b'.worth a money location = b.worth a money location := by
  rw [Books.worth, Books.worth, Registry.lookup, Registry.lookup, h.basket]
  cases known : b.accounts.get? a with
  | none =>
    rw [h.get?_eq_none known]
  | some found =>
    obtain ⟨found', known', opening, _⟩ := h.exists_get? known
    have currency : found'.currency = found.currency := congrArg (·.balance.currency) opening
    rw [known', orError, orError, ok_bind, ok_bind, currency]

/-! ### Steps -/

/-- **A step keeps books tied**, if the tie allows it and nothing is rounded. -/
theorem take {s : Step} {notices notices' : List Notice} (h : Tied T b b') (keeps : T.Keeps s)
    (exact : b.AddsExactly s) (exact' : b'.AddsExactly s) (taken : b.take s = .ok (next, notices))
    (taken' : b'.take s = .ok (next', notices')) : Tied T next next' := by
  cases s with
  | need n =>
    obtain ⟨rfl, _⟩ := take_need_ok taken
    obtain ⟨rfl, _⟩ := take_need_ok taken'
    exact h
  | refuse why => cases taken
  | credit account amount location =>
    refine h.credit (fun v mem v' mem' w w' tied sum sum' => ?_) (ok_of_take rfl taken) (ok_of_take rfl taken')
    exact keeps v v' w w' tied sum sum' (exact v mem w sum).1 (exact' v' mem' w' sum').1
  | hold account company =>
    refine h.modifyPosition (fun q q' tied changed changed' => ?_) (ok_of_take rfl taken) (ok_of_take rfl taken')
    cases changed
    cases changed'
    exact keeps _ _ tied
  | record account company leg price location =>
    refine h.modifyPosition (fun q q' tied changed changed' => ?_) (ok_of_take rfl taken) (ok_of_take rfl taken')
    exact keeps _ _ q q' tied changed changed'
  | earn account company money location =>
    obtain ⟨earned, worth, changed⟩ := take_earn_ok taken
    obtain ⟨earned', worth', changed'⟩ := take_earn_ok taken'
    have sum := exact earned (toOption_eq_some_iff.2 worth)
    have sum' := exact' earned' (toOption_eq_some_iff.2 worth')
    rw [h.worth, worth] at worth'
    cases worth'
    refine h.modifyPosition (fun q q' tied added added' => ?_) changed changed'
    rw [orError_eq_ok_iff] at added added'
    refine keeps earned.amount _ _ q q' tied added added' ?_ ?_
    · obtain ⟨_, add, rfl⟩ := Option.map_eq_some_iff.1 added
      exact (sum _ add).1
    · obtain ⟨_, add, rfl⟩ := Option.map_eq_some_iff.1 added'
      exact (sum' _ add).1
  | assertion time e =>
    obtain ⟨account, assertion, location⟩ := e
    cases assertion with
    | cash money =>
      cases taken
      cases taken'
      exact h.setBalance keeps
    | sharePrice company price =>
      refine h.modifyPosition (fun q q' tied set set' => ?_) (take_sharePrice_ok taken) (take_sharePrice_ok taken')
      cases set
      cases set'
      exact keeps _ _ tied
  | quote rates =>
    cases taken
    cases taken'
    exact ⟨h.accounts, congrArg (·.setAll rates) h.basket⟩
  | tell notice =>
    cases taken
    cases taken'
    exact h

/-- **The same steps keep books tied.** -/
theorem run {steps : List Step} (h : Tied T b b') (keeps : ∀ s ∈ steps, T.Keeps s)
    (exact : b.RunsExactly steps) (exact' : b'.RunsExactly steps)
    (ran : (foldTelling Books.take b steps).result = .ok next)
    (ran' : (foldTelling Books.take b' steps).result = .ok next') : Tied T next next' := by
  induction steps generalizing b b' with
  | nil =>
    cases ran
    cases ran'
    exact h
  | cons s rest ih =>
    obtain ⟨c, _, taken, ran⟩ := result_foldTelling_cons.1 ran
    obtain ⟨c', _, taken', ran'⟩ := result_foldTelling_cons.1 ran'
    have tied := h.take (keeps s List.mem_cons_self) exact.1 exact'.1 taken taken'
    exact ih tied (fun s mem => keeps s (List.mem_cons_of_mem _ mem)) (exact.tail taken) (exact'.tail taken') ran ran'

end Tied

end Books

end Daybook
