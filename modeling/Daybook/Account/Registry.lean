import Daybook.Account.Position
import Daybook.Problem

/-!
# Accounts

An account is what its opening says, and a state that changes from then on: the balance, whether it is
active, and for an equity account the share positions and their totals.

A registry holds accounts in the order in which they were opened. No account is opened twice: that each
reference has one account is part of the type.
-/

namespace Daybook

/-! ### Accounts -/

/-- What changes about an account. -/
structure AccountState where
  balance : Decimal
  active : Bool
  /-- Positions by company, for an equity account. -/
  shares : Option (SortedMap String Position)
  totals : Option EquityTotals
  deriving DecidableEq

/-- An account: how it was opened, and its state. -/
structure Account where
  opening : Opening
  state : AccountState
  deriving DecidableEq

namespace Account

def ofOpening (o : Opening) : Account where
  opening := o
  state :=
    { balance := o.balance.amount
      active := true
      shares := if o.account.kind = .equity then some .empty else none
      totals := none }

def reference (a : Account) : AccountRef := a.opening.account

@[simp]
theorem reference_ofOpening (o : Opening) : (ofOpening o).reference = o.account := rfl

def currency (a : Account) : Currency := a.opening.balance.currency

def hasTag (a : Account) (tag : String) : Bool := a.opening.tags.contains tag

def position? (a : Account) (company : String) : Option Position :=
  a.state.shares.bind (·.get? company)

end Account

/-! ### Registries -/

/-- Accounts in the order of their opening. -/
structure Registry where
  accounts : List Account
  nodup : (accounts.map Account.reference).Nodup

namespace Registry

instance : DecidableEq Registry := fun a b =>
  if h : a.accounts = b.accounts then isTrue (by cases a; cases b; cases h; rfl)
  else isFalse fun same => h (same ▸ rfl)

def empty : Registry := ⟨[], List.nodup_nil⟩

def get? (r : Registry) (account : AccountRef) : Option Account :=
  r.accounts.find? fun a => decide (a.reference = account)

def modify (r : Registry) (account : AccountRef) (f : AccountState → AccountState) : Registry where
  accounts := r.accounts.map fun a =>
    if a.reference = account then { a with state := f a.state } else a
  nodup := by
    have : (r.accounts.map fun a =>
        if a.reference = account then { a with state := f a.state } else a).map Account.reference
          = r.accounts.map Account.reference := by
      rw [List.map_map]
      refine List.map_congr_left fun a _ => ?_
      simp only [Function.comp_apply]
      split <;> rfl
    rw [this]
    exact r.nodup

@[simp]
theorem get?_empty (account : AccountRef) : empty.get? account = none := rfl

/-- An account that is found is the one that was asked for. -/
theorem reference_of_get? {r : Registry} {account : AccountRef} {a : Account}
    (h : r.get? account = some a) : a.reference = account := by
  simpa using List.find?_some h

/-- A change of one account's state changes that account, and leaves all others. -/
theorem get?_modify (r : Registry) (account other : AccountRef) (f : AccountState → AccountState) :
    (r.modify account f).get? other
      = (r.get? other).map fun a => if account = other then { a with state := f a.state } else a := by
  rw [get?, get?, modify, List.find?_map]
  have : ((fun a : Account => decide (a.reference = other)) ∘ fun a : Account =>
      if a.reference = account then { a with state := f a.state } else a)
        = fun a => decide (a.reference = other) := by
    funext a
    simp only [Function.comp_apply]
    split <;> rfl
  rw [this]
  cases h : r.accounts.find? fun a => decide (a.reference = other) with
  | none => rfl
  | some a =>
    have : a.reference = other := by simpa using List.find?_some h
    simp [this, eq_comm]

/-- New states for accounts, from first to last. -/
def mapStates {ε : Type} (f : Account → Except ε AccountState) :
    List Account → Except ε (List Account)
  | [] => .ok []
  | a :: rest => do
    let state ← f a
    let rest ← mapStates f rest
    .ok ({ a with state } :: rest)

/-- New states are of the same accounts. -/
theorem references_of_mapStates {ε : Type} {f : Account → Except ε AccountState}
    {accounts result : List Account} (h : mapStates f accounts = .ok result) :
    result.map Account.reference = accounts.map Account.reference := by
  induction accounts generalizing result with
  | nil => cases h; rfl
  | cons a rest ih =>
    simp only [mapStates, bind, Except.bind] at h
    split at h
    · cases h
    · split at h
      · cases h
      · next later => cases h; exact congrArg (a.reference :: ·) (ih later)

/-- The registry with the state of every account changed, from first to last. -/
def modifyAll {ε : Type} (r : Registry) (f : Account → Except ε AccountState) :
    Except ε Registry :=
  match h : mapStates f r.accounts with
  | .error e => .error e
  | .ok accounts => .ok ⟨accounts, references_of_mapStates h ▸ r.nodup⟩

/-- The registry with one more account, unless there is one with its reference. -/
def opened (r : Registry) (o : Opening) : Except Error Registry :=
  match h : r.get? o.account with
  | some existing => .error (.meaning o.location (.accountExists o.account existing.opening.location))
  | none =>
    .ok
      { accounts := r.accounts ++ [.ofOpening o]
        nodup := by
          rw [List.map_append, List.nodup_append]
          refine ⟨r.nodup, List.nodup_cons.2 ⟨by simp, List.nodup_nil⟩, fun a ha b hb same => ?_⟩
          obtain ⟨account, mem, rfl⟩ := List.mem_map.1 ha
          obtain rfl := List.mem_singleton.1 hb
          exact absurd (decide_eq_true same) (List.find?_eq_none.1 h account mem) }

/-- An opening adds its account, and leaves all others. -/
theorem get?_of_opened {r next : Registry} {o : Opening} (h : r.opened o = .ok next)
    (account : AccountRef) :
    next.get? account = if o.account = account then some (.ofOpening o) else r.get? account := by
  unfold opened at h
  split at h
  · cases h
  · next fresh =>
    cases h
    rw [get?, List.find?_append]
    split
    · next same =>
      subst same
      rw [get?] at fresh
      simp only [fresh, Option.none_or, List.find?_singleton, Account.reference_ofOpening, decide_true,
        if_true]
    · next other =>
      simp [get?, other]

/-- The registry with an account closed, if there is one. -/
def closed (r : Registry) (c : Closing) : Except Error Registry :=
  match r.get? c.account with
  | none => .error (.meaning c.location (.closeUnknown c.account))
  | some _ => .ok (r.modify c.account fun state => { state with active := false })

def lookup (r : Registry) (account : AccountRef) (location : Location) : Except Error Account :=
  orError (r.get? account) (.meaning location (.unknownAccount account))

def ofKind (r : Registry) (kind : AccountKind) : List Account :=
  r.accounts.filter fun a => decide (a.reference.kind = kind)

/-- The first account of a list with the earliest opening. -/
def earliest? : List Account → Option Account
  | [] => none
  | a :: rest =>
    match earliest? rest with
    | none => some a
    | some b => if b.opening.timestamp < a.opening.timestamp then some b else some a

/-- The first account with the label `main`, or else the asset account that was opened first. -/
def main? (r : Registry) : Option Account :=
  match r.accounts.find? (·.hasTag "main") with
  | some a => some a
  | none => earliest? (r.ofKind .asset)

def step (r : Registry) : Item → Except Error Registry
  | .opening o => r.opened o
  | .closing c => r.closed c
  | _ => .ok r

/-- The accounts that items open and close, in the order in which they are written. -/
def ofItems (items : List Item) : Except Error Registry := items.foldlM step empty

end Registry

end Daybook
