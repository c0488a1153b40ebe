import Daybook.Proofs.Account.Recorded
import Mathlib.Data.List.Induction

/-!
# Runs of a registry

Openings and closings change a registry in place (`Registry.setUp`). A closing even writes before it tells
whether there was anything to write to. Still what is refused changes nothing (`after_of_refused`), so a
run may go on after it, and what comes of a run is known from the items alone: its accounts are the first
openings (`openings_run`), each of them with what its opening says, and active until it is closed
(`comesFrom_run`).

The main account is known from the accounts in their order (`main?_eq_some_iff`).
-/

namespace Daybook

/-! ### The first openings -/

namespace Opening

/-- The openings of accounts that have not been opened before. -/
def firsts : List Opening → List Opening
  | [] => []
  | o :: rest => o :: (firsts rest).filter fun later => later.account ≠ o.account

theorem exists_mem_firsts_iff {openings : List Opening} {account : AccountRef} :
    (∃ o ∈ firsts openings, o.account = account) ↔ ∃ o ∈ openings, o.account = account := by
  induction openings with
  | nil => rfl
  | cons first rest ih =>
    by_cases here : first.account = account
    · exact iff_of_true ⟨first, List.mem_cons_self, here⟩ ⟨first, List.mem_cons_self, here⟩
    · -- A later opening of this account is not one of the first account, so it is not left out.
      have kept : ∀ o : Opening, o.account = account → o.account ≠ first.account := by
        rintro o rfl same
        exact here same.symm
      simp only [firsts, List.exists_mem_cons_iff, here, false_or, ← ih, List.mem_filter, decide_eq_true_eq]
      constructor
      · rintro ⟨o, ⟨mem, _⟩, same⟩
        exact ⟨o, mem, same⟩
      · rintro ⟨o, mem, same⟩
        exact ⟨o, ⟨mem, kept o same⟩, same⟩

/-- One more opening counts if its account has not been opened before. -/
theorem firsts_concat (openings : List Opening) (o : Opening) :
    firsts (openings ++ [o])
      = if ∃ known ∈ openings, known.account = o.account then firsts openings else firsts openings ++ [o] := by
  induction openings with
  | nil => rfl
  | cons first rest ih =>
    rw [List.cons_append, firsts, ih, firsts]
    by_cases later : ∃ known ∈ rest, known.account = o.account
    · have some_known : ∃ known ∈ first :: rest, known.account = o.account := List.exists_mem_cons_of_exists later
      rw [if_pos later, if_pos some_known]
    · rw [if_neg later, List.filter_append]
      by_cases here : first.account = o.account
      · simp [here]
      · have none_known : ¬ ∃ known ∈ first :: rest, known.account = o.account := by
          rw [List.exists_mem_cons_iff]
          exact not_or.2 ⟨here, later⟩
        rw [if_neg none_known]
        simp [Ne.symm here]

end Opening

namespace Registry

variable {r next : Registry} {items : List Item} {i : Item} {account : AccountRef} {a : Account} {e : Error}

/-! ### Changes in place -/

/-- A computation that changes a registry as it goes along. What it has written stays when it is refused. -/
abbrev InPlace := ExceptT Error (StateM Registry)

/-- A result, or the error it is refused with. -/
def told {α : Type} (x : Except Error α) : InPlace α := ExceptT.mk (pure x)

/-- An opening or a closing, in place. To close an account is to write into it, if it is there; only then
its absence is told. -/
def setUp : Item → InPlace Unit
  | .opening o => do
    let next ← told ((← get).opened o)
    set next
  | .closing c => do
    let found := (← get).get? c.account
    set ((← get).modify c.account fun state => { state with active := false })
    let _ ← told (orError found (.meaning c.location (.closeUnknown c.account)))
  | _ => pure ()

/-- What an item is answered, and the registry that it leaves. -/
def outcome (r : Registry) (i : Item) : Except Error Unit × Registry := (setUp i).run.run r

/-- The registry after an item, whether it was refused or not. -/
def after (r : Registry) (i : Item) : Registry := (r.outcome i).2

/-- The item is refused. -/
def Refuses (r : Registry) (i : Item) (e : Error) : Prop := (r.outcome i).1 = .error e

/-- The registry after some items, of which some may be refused. -/
def run (r : Registry) (items : List Item) : Registry := items.foldl after r

theorem get?_eq_none_iff : r.get? account = none ↔ ∀ a ∈ r.accounts, a.reference ≠ account := by
  simp [get?]

theorem modify_of_get?_eq_none (unknown : r.get? account = none) (f : AccountState → AccountState) :
    r.modify account f = r := by
  apply eq_of_accounts_eq
  show r.accounts.map _ = r.accounts
  rw [List.map_congr_left (g := id), List.map_id]
  intro a mem
  exact if_neg (get?_eq_none_iff.1 unknown a mem)

/-- In place an item does what it does to the value of the registry. -/
theorem outcome_eq_step (r : Registry) (i : Item) :
    r.outcome i = ((r.step i).map fun _ => (), (r.step i).toOption.getD r) := by
  cases i with
  | opening o =>
    show (told (r.opened o) >>= fun next => set next).run.run r = _
    rw [step]
    cases r.opened o <;> rfl
  | closing c =>
    show (told (orError (r.get? c.account) _) >>= fun _ => pure ()).run.run (r.modify c.account _) = _
    rw [step, closed]
    cases found : r.get? c.account with
    | none =>
      rw [modify_of_get?_eq_none found]
      rfl
    | some a => rfl
  | _ => rfl

theorem refuses_iff_step : r.Refuses i e ↔ r.step i = .error e := by
  unfold Refuses
  rw [outcome_eq_step]
  cases r.step i <;> simp [Except.map]

/-- **What is refused changes nothing.** -/
theorem after_of_refused (h : r.Refuses i e) : r.after i = r := by
  unfold after
  rw [outcome_eq_step, refuses_iff_step.1 h]
  rfl

theorem after_of_step (h : r.step i = .ok next) : r.after i = next := by
  unfold after
  rw [outcome_eq_step, h]
  rfl

theorem run_concat (r : Registry) (items : List Item) (i : Item) : r.run (items ++ [i]) = (r.run items).after i :=
  List.foldl_concat after r i items

/-- Why an item is refused: what is opened is there already, or what is closed is not. -/
inductive IsRefusal (r : Registry) : Item → Error → Prop
  | opening {o : Opening} {known : Account} (mem : known ∈ r.accounts) (same : known.reference = o.account) :
    IsRefusal r (.opening o) (.meaning o.location (.accountExists o.account known.opening.location))
  | closing {c : Closing} (unknown : ∀ a ∈ r.accounts, a.reference ≠ c.account) :
    IsRefusal r (.closing c) (.meaning c.location (.closeUnknown c.account))

theorem refuses_iff_isRefusal : r.Refuses i e ↔ r.IsRefusal i e := by
  rw [refuses_iff_step]
  constructor
  · intro refused
    cases i with
    | opening o =>
      rw [step, opened] at refused
      split at refused
      · next known found =>
        cases refused
        exact .opening (mem_of_get? found) (reference_of_get? found)
      · cases refused
    | closing c =>
      rw [step, closed] at refused
      split at refused
      · next missing =>
        cases refused
        exact .closing (get?_eq_none_iff.1 missing)
      · cases refused
    | _ => cases refused
  · intro refusal
    cases refusal with
    | @opening o known mem same =>
      have found := get?_of_mem mem
      rw [same] at found
      rw [step, opened]
      split
      · next other isOther =>
        rw [found] at isOther
        cases isOther
        rfl
      · next missing =>
        rw [found] at missing
        cases missing
    | @closing c unknown => rw [step, closed, get?_eq_none_iff.2 unknown]

end Registry

/-! ### Where accounts come from -/

namespace Account

variable {items : List Item} {i : Item} {a : Account}

/-- An account is what its first opening says, and active unless it was closed after that. -/
structure ComesFrom (items : List Item) (a : Account) : Prop where
  since : ∃ before later, items = before ++ .opening a.opening :: later ∧
    (∀ o, .opening o ∈ before → o.account ≠ a.reference) ∧
    (a.state.active = true ↔ ∀ c, .closing c ∈ later → c.account ≠ a.reference)
  fresh : a.IsFresh

theorem comesFrom_ofOpening {o : Opening} (first : ∀ o', .opening o' ∈ items → o'.account ≠ o.account) :
    (ofOpening o).ComesFrom (items ++ [.opening o]) where
  since := ⟨items, [], rfl, first, by simp [ofOpening]⟩
  fresh := rfl

/-- What does not close an account leaves it as it is. -/
theorem ComesFrom.concat (h : a.ComesFrom items) (other : ∀ c, i = .closing c → c.account ≠ a.reference) :
    a.ComesFrom (items ++ [i]) := by
  obtain ⟨⟨before, later, rfl, first, active⟩, fresh⟩ := h
  refine ⟨⟨before, later ++ [i], by simp, first, ?_⟩, fresh⟩
  rw [active]
  constructor
  · intro open_ c mem
    rcases List.mem_append.1 mem with mem | mem
    · exact open_ c mem
    · exact other c (List.mem_singleton.1 mem).symm
  · intro open_ c mem
    exact open_ c (List.mem_append_left _ mem)

theorem ComesFrom.closed (h : a.ComesFrom items) {c : Closing} (same : c.account = a.reference) :
    ComesFrom (items ++ [.closing c]) { a with state := { a.state with active := false } } := by
  obtain ⟨⟨before, later, rfl, first, _⟩, fresh⟩ := h
  refine ⟨⟨before, later ++ [.closing c], by simp, first, ?_⟩, ?_⟩
  · apply iff_of_false Bool.false_ne_true
    intro open_
    exact open_ c (by simp) same
  · unfold IsFresh at fresh ⊢
    rw [fresh]

theorem ComesFrom.balance (h : a.ComesFrom items) : a.state.balance = a.opening.balance.amount := by
  rw [h.fresh]
  rfl

theorem ComesFrom.isSome_shares_iff (h : a.ComesFrom items) :
    a.state.shares.isSome = true ↔ a.reference.kind = .equity := by
  rw [h.fresh]
  show (if a.reference.kind = .equity then some SortedMap.empty else none).isSome = true ↔ _
  split
  · next equity => exact iff_of_true rfl equity
  · next other => exact iff_of_false Bool.false_ne_true other

end Account

namespace Registry

variable {r next : Registry} {items : List Item} {i : Item} {account : AccountRef} {a : Account} {e : Error}

/-! ### Runs -/

/-- The accounts are the first openings of some items, each with what the items have made of it. -/
structure IsSetUp (r : Registry) (items : List Item) : Prop where
  openings : r.openings = Opening.firsts (items.filterMap Item.opening?)
  history : ∀ a ∈ r.accounts, a.ComesFrom items

theorem IsSetUp.exists_mem_accounts_iff (setUp : r.IsSetUp items) :
    (∃ a ∈ r.accounts, a.reference = account) ↔ ∃ o, .opening o ∈ items ∧ o.account = account := by
  have mapped : (∃ a ∈ r.accounts, a.reference = account) ↔ ∃ o ∈ r.openings, o.account = account := by
    simp only [Registry.openings, List.mem_map, exists_exists_and_eq_and]
    rfl
  simp only [mapped, setUp.openings, Opening.exists_mem_firsts_iff, Item.mem_filterMap_opening?]

theorem isSetUp_empty : empty.IsSetUp [] := ⟨rfl, by simp [empty]⟩

section

variable {o : Opening}

theorem firsts_of_other (other : i.opening? = none) :
    Opening.firsts ((items ++ [i]).filterMap Item.opening?) = Opening.firsts (items.filterMap Item.opening?) := by
  rw [List.filterMap_append, List.filterMap_cons_none other, List.filterMap_nil, List.append_nil]

theorem firsts_of_known (known : ∃ o', Item.opening o' ∈ items ∧ o'.account = o.account) :
    Opening.firsts ((items ++ [Item.opening o]).filterMap Item.opening?)
      = Opening.firsts (items.filterMap Item.opening?) := by
  simp only [← Item.mem_filterMap_opening?] at known
  rw [List.filterMap_append]
  exact (Opening.firsts_concat _ o).trans (if_pos known)

theorem firsts_of_unknown (unknown : ¬ ∃ o', Item.opening o' ∈ items ∧ o'.account = o.account) :
    Opening.firsts ((items ++ [Item.opening o]).filterMap Item.opening?)
      = Opening.firsts (items.filterMap Item.opening?) ++ [o] := by
  simp only [← Item.mem_filterMap_opening?] at unknown
  rw [List.filterMap_append]
  exact (Opening.firsts_concat _ o).trans (if_neg unknown)

end

/-- What is refused does not count as a first opening, and closes nothing. -/
theorem IsSetUp.concat_refused (setUp : r.IsSetUp items) (refused : r.IsRefusal i e) :
    r.IsSetUp (items ++ [i]) := by
  cases refused with
  | @opening o known mem same =>
    constructor
    · rw [firsts_of_known (setUp.exists_mem_accounts_iff.1 ⟨known, mem, same⟩)]
      exact setUp.openings
    · intro a mem
      exact (setUp.history a mem).concat fun c same => Item.noConfusion same
  | @closing c unknown =>
    constructor
    · rw [firsts_of_other rfl]
      exact setUp.openings
    · intro a mem
      apply (setUp.history a mem).concat
      rintro _ ⟨⟩ same
      exact unknown a mem same.symm

theorem IsSetUp.concat_opening {o : Opening} (setUp : r.IsSetUp items) (h : r.opened o = .ok next) :
    next.IsSetUp (items ++ [.opening o]) := by
  have unknown : ¬ ∃ known, .opening known ∈ items ∧ known.account = o.account := by
    rw [← setUp.exists_mem_accounts_iff]
    rintro ⟨known, mem, same⟩
    have refused := refuses_iff_step.1 (refuses_iff_isRefusal.2 (.opening mem same))
    rw [step, h] at refused
    cases refused
  constructor
  · rw [openings_of_opened h, firsts_of_unknown unknown, setUp.openings]
  · rw [opened] at h
    split at h
    · cases h
    · cases h
      intro a mem
      rcases List.mem_append.1 mem with mem | mem
      · exact (setUp.history a mem).concat fun c same => Item.noConfusion same
      · obtain rfl := List.mem_singleton.1 mem
        apply Account.comesFrom_ofOpening
        intro known mem same
        exact unknown ⟨known, mem, same⟩

theorem IsSetUp.concat_closing {c : Closing} (setUp : r.IsSetUp items) (h : r.closed c = .ok next) :
    next.IsSetUp (items ++ [.closing c]) := by
  rw [closed] at h
  split at h
  · cases h
  · cases h
    constructor
    · rw [openings_modify, firsts_of_other rfl]
      exact setUp.openings
    · intro a mem
      obtain ⟨b, was, rfl⟩ := List.mem_map.1 mem
      split
      · next same => exact (setUp.history b was).closed same.symm
      · next other =>
        apply (setUp.history b was).concat
        rintro _ ⟨⟩ same
        exact other same.symm

/-- One more item keeps the accounts the first openings, whether it is refused or not. -/
theorem IsSetUp.after (setUp : r.IsSetUp items) (i : Item) : (r.after i).IsSetUp (items ++ [i]) := by
  cases stepped : r.step i with
  | error e =>
    have refused := refuses_iff_step.2 stepped
    rw [after_of_refused refused]
    exact setUp.concat_refused (refuses_iff_isRefusal.1 refused)
  | ok next =>
    rw [after_of_step stepped]
    cases i with
    | opening o => exact setUp.concat_opening stepped
    | closing c => exact setUp.concat_closing stepped
    | _ =>
      cases stepped
      constructor
      · rw [firsts_of_other rfl]
        exact setUp.openings
      · intro a mem
        exact (setUp.history a mem).concat fun c same => Item.noConfusion same

theorem isSetUp_run (items : List Item) : (run empty items).IsSetUp items := by
  induction items using List.reverseRec with
  | nil => exact isSetUp_empty
  | append_singleton items i ih =>
    rw [run_concat]
    exact ih.after i

/-! ### The main account -/

theorem earliest?_eq_none_iff {accounts : List Account} : earliest? accounts = none ↔ accounts = [] := by
  cases accounts with
  | nil => exact iff_of_true rfl rfl
  | cons first rest =>
    refine iff_of_false ?_ (List.cons_ne_nil _ _)
    rw [earliest?]
    split
    · exact Option.some_ne_none _
    · split <;> exact Option.some_ne_none _

theorem mem_of_earliest? {accounts : List Account} (h : earliest? accounts = some a) : a ∈ accounts := by
  induction accounts with
  | nil => cases h
  | cons first rest ih =>
    rw [earliest?] at h
    split at h
    · cases h
      exact List.mem_cons_self
    · next b least =>
      split at h
      · cases h
        exact List.mem_cons_of_mem _ (ih least)
      · cases h
        exact List.mem_cons_self

/-- Of some accounts, one that was opened before those that stand before it, and no later than the others. -/
structure IsEarliest (a : Account) (before later : List Account) : Prop where
  before : ∀ b ∈ before, a.opening.timestamp < b.opening.timestamp
  later : ∀ b ∈ later, a.opening.timestamp ≤ b.opening.timestamp

theorem IsEarliest.earliest? {before later : List Account} (h : IsEarliest a before later) :
    earliest? (before ++ a :: later) = some a := by
  induction before with
  | nil =>
    rw [List.nil_append, Registry.earliest?]
    split
    · rfl
    · next b least => exact if_neg (Int.not_lt.2 (h.later b (mem_of_earliest? least)))
  | cons first before ih =>
    obtain ⟨here, there⟩ := List.forall_mem_cons.1 h.before
    rw [List.cons_append, Registry.earliest?, ih ⟨there, h.later⟩]
    exact if_pos here

theorem earliest?_eq_some_iff {accounts : List Account} :
    earliest? accounts = some a ↔ ∃ before later, accounts = before ++ a :: later ∧ IsEarliest a before later := by
  constructor
  · intro h
    induction accounts generalizing a with
    | nil => cases h
    | cons first rest ih =>
      rw [earliest?] at h
      split at h
      · next none_left =>
        cases h
        rw [earliest?_eq_none_iff.1 none_left]
        exact ⟨[], [], rfl, by simp, by simp⟩
      · next b least =>
        obtain ⟨before, later, rfl, isLeast⟩ := ih least
        split at h
        · next earlier =>
          cases h
          exact ⟨first :: before, later, rfl, List.forall_mem_cons.2 ⟨earlier, isLeast.before⟩, isLeast.later⟩
        · next no_earlier =>
          cases h
          have first_le : first.opening.timestamp ≤ b.opening.timestamp := Int.not_lt.1 no_earlier
          refine ⟨[], _, rfl, by simp, ?_⟩
          intro c mem
          rcases List.mem_append.1 mem with mem | mem
          · exact Int.le_trans first_le (Int.le_of_lt (isLeast.before c mem))
          · rcases List.mem_cons.1 mem with rfl | mem
            · exact first_le
            · exact Int.le_trans first_le (isLeast.later c mem)
  · rintro ⟨before, later, rfl, h⟩
    exact h.earliest?

/-- The earliest account of those that are picked, at its place among all. -/
theorem earliest?_filter_iff {accounts : List Account} {p : Account → Bool} :
    earliest? (accounts.filter p) = some a ↔
      ∃ before later, accounts = before ++ a :: later ∧ p a = true ∧
        IsEarliest a (before.filter p) (later.filter p) := by
  constructor
  · intro h
    obtain ⟨picked, rest, parts, least⟩ := earliest?_eq_some_iff.1 h
    obtain ⟨before, after, rfl, rfl, filtered⟩ := List.filter_eq_append_iff.1 parts
    obtain ⟨skipped, later, rfl, none_picked, isPicked, rfl⟩ := List.filter_eq_cons_iff.1 filtered
    refine ⟨before ++ skipped, later, by simp, isPicked, ?_⟩
    rw [List.filter_append, List.filter_eq_nil_iff.2 none_picked, List.append_nil]
    exact least
  · rintro ⟨before, later, rfl, isPicked, least⟩
    rw [List.filter_append, List.filter_cons_of_pos isPicked]
    exact least.earliest?

/-- An account is the first one with the label `main`; or there is none, and it is the earliest asset account. -/
inductive IsMain (r : Registry) (a : Account) : Prop
  | tagged (before later : List Account) (parts : r.accounts = before ++ a :: later)
      (isTagged : a.hasTag "main" = true) (first : ∀ b ∈ before, b.hasTag "main" = false)
  | asset (before later : List Account) (parts : r.accounts = before ++ a :: later)
      (untagged : ∀ b ∈ r.accounts, b.hasTag "main" = false) (isAsset : a.reference.kind = .asset)
      (first : ∀ b ∈ before, b.reference.kind = .asset → a.opening.timestamp < b.opening.timestamp)
      (earliest : ∀ b ∈ later, b.reference.kind = .asset → a.opening.timestamp ≤ b.opening.timestamp)

theorem find?_main_eq_none_iff :
    r.accounts.find? (·.hasTag "main") = none ↔ ∀ b ∈ r.accounts, b.hasTag "main" = false := by
  simp

/-- **The main account is the first one that is labelled so, or else the asset account opened first.** -/
theorem main?_eq_some_iff : r.main? = some a ↔ r.IsMain a := by
  rw [main?]
  constructor
  · intro h
    split at h
    · next tagged found =>
      cases h
      obtain ⟨isTagged, before, later, parts, first⟩ := List.find?_eq_some_iff_append.1 found
      exact .tagged before later parts isTagged fun b mem => by simpa using first b mem
    · next missing =>
      obtain ⟨before, later, parts, isAsset, least⟩ := earliest?_filter_iff.1 h
      apply IsMain.asset before later parts (find?_main_eq_none_iff.1 missing) (of_decide_eq_true isAsset)
      · intro b mem kind
        exact least.before b (List.mem_filter.2 ⟨mem, decide_eq_true kind⟩)
      · intro b mem kind
        exact least.later b (List.mem_filter.2 ⟨mem, decide_eq_true kind⟩)
  · intro h
    cases h with
    | tagged before later parts isTagged first =>
      have found : r.accounts.find? (·.hasTag "main") = some a := by
        rw [List.find?_eq_some_iff_append]
        exact ⟨isTagged, before, later, parts, fun b mem => by simp [first b mem]⟩
      rw [found]
    | asset before later parts untagged isAsset first earliest =>
      rw [find?_main_eq_none_iff.2 untagged]
      refine earliest?_filter_iff.2 ⟨before, later, parts, decide_eq_true isAsset, ?_, ?_⟩
      · intro b mem
        obtain ⟨mem, kind⟩ := List.mem_filter.1 mem
        exact first b mem (of_decide_eq_true kind)
      · intro b mem
        obtain ⟨mem, kind⟩ := List.mem_filter.1 mem
        exact earliest b mem (of_decide_eq_true kind)

theorem main?_eq_none_iff :
    r.main? = none ↔ ∀ a ∈ r.accounts, a.hasTag "main" = false ∧ a.reference.kind ≠ .asset := by
  rw [main?]
  split
  · next tagged found =>
    apply iff_of_false (Option.some_ne_none _)
    intro untagged
    rw [find?_main_eq_none_iff.2 fun b mem => (untagged b mem).1] at found
    cases found
  · next missing =>
    have untagged := find?_main_eq_none_iff.1 missing
    rw [earliest?_eq_none_iff, ofKind, List.filter_eq_nil_iff]
    constructor
    · intro other a mem
      exact ⟨untagged a mem, fun kind => other a mem (decide_eq_true kind)⟩
    · intro other a mem kind
      exact (other a mem).2 (of_decide_eq_true kind)

/-! ### Runs from the beginning -/

/-- What is known of a registry that some items have set up, from an empty one. -/
structure IsLedTo (r : Registry) (items : List Item) : Prop where
  /-- There is one account for each reference that was ever opened. -/
  known : ∀ account, (∃! a, a ∈ r.accounts ∧ a.reference = account) ↔
    ∃ o, .opening o ∈ items ∧ o.account = account
  order : r.openings = Opening.firsts (items.filterMap Item.opening?)
  history : ∀ a ∈ r.accounts, a.ComesFrom items
  balance : ∀ a ∈ r.accounts, a.state.balance = a.opening.balance.amount
  shares : ∀ a ∈ r.accounts, a.state.shares.isSome = true ↔ a.reference.kind = .equity
  refused : ∀ i e, r.Refuses i e ↔ r.IsRefusal i e
  told : ∀ o e, r.Refuses (.opening o) e → ∃ known ∈ r.accounts, known.reference = o.account ∧
    e.message = o.location.text ++ ": " ++ ("account " ++ o.account.text ++ " already exists, opened at "
      ++ known.opening.location.text)
  untouched : ∀ i e, r.Refuses i e → r.after i = r
  main : ∀ a, r.main? = some a ↔ r.IsMain a
  noMain : r.main? = none ↔ ∀ a ∈ r.accounts, a.hasTag "main" = false ∧ a.reference.kind ≠ .asset

theorem existsUnique_iff_exists (r : Registry) (account : AccountRef) :
    (∃! a, a ∈ r.accounts ∧ a.reference = account) ↔ ∃ a ∈ r.accounts, a.reference = account := by
  constructor
  · rintro ⟨a, found, _⟩
    exact ⟨a, found⟩
  · rintro ⟨a, mem, rfl⟩
    refine ⟨a, ⟨mem, rfl⟩, ?_⟩
    rintro b ⟨mem', same⟩
    have found := get?_of_mem mem'
    rw [same, get?_of_mem mem] at found
    exact (Option.some.inj found).symm

theorem message_of_refuses {o : Opening} (h : r.Refuses (.opening o) e) :
    ∃ known ∈ r.accounts, known.reference = o.account ∧
      e.message = o.location.text ++ ": " ++ ("account " ++ o.account.text ++ " already exists, opened at "
        ++ known.opening.location.text) := by
  cases refuses_iff_isRefusal.1 h with
  | @opening _ known mem same => exact ⟨known, mem, same, rfl⟩

/-- **A registry is what its run has made of it**, with the items that are refused on the way: these change
nothing. -/
theorem isLedTo_items (items : List Item) : (run empty items).IsLedTo items where
  known account := by
    rw [existsUnique_iff_exists]
    exact (isSetUp_run items).exists_mem_accounts_iff
  order := (isSetUp_run items).openings
  history := (isSetUp_run items).history
  balance a mem := ((isSetUp_run items).history a mem).balance
  shares a mem := ((isSetUp_run items).history a mem).isSome_shares_iff
  refused _ _ := refuses_iff_isRefusal
  told _ _ := message_of_refuses
  untouched _ _ := after_of_refused
  main _ := main?_eq_some_iff
  noMain := main?_eq_none_iff

end Registry

end Daybook
