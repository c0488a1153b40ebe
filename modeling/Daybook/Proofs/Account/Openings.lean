import Daybook.Account.Valuation
import Daybook.Proofs.Checked
import Mathlib.Data.List.Forall2

/-!
# The openings behind a registry

What an account was opened with never changes, so a registry is looked at through its openings
(`Registry.openings`). The registry of some items has exactly the openings among these items, in their
order (`openings_of_ofItems`), and every account in it is as it was opened (`isFresh_of_ofItems`).
-/

namespace Daybook

/-- Elements that agree one by one are mapped to the same list. -/
theorem map_eq_of_forall₂ {α β γ : Type} {f : α → γ} {g : β → γ} {xs : List α} {ys : List β}
    (h : List.Forall₂ (fun a b => g b = f a) xs ys) : ys.map g = xs.map f := by
  induction h with
  | nil => rfl
  | cons same _ ih => rw [List.map_cons, List.map_cons, same, ih]

/-- Whatever stands on the right has something beside it on the left. -/
theorem exists_of_mem_forall₂ {α β : Type} {R : α → β → Prop} {xs : List α} {ys : List β}
    (h : List.Forall₂ R xs ys) {b : β} (mem : b ∈ ys) : ∃ a ∈ xs, R a b := by
  induction h with
  | nil => cases mem
  | cons here _ ih =>
    rcases List.mem_cons.1 mem with rfl | mem
    · exact ⟨_, List.mem_cons_self, here⟩
    · obtain ⟨a, mem, related⟩ := ih mem
      exact ⟨a, List.mem_cons_of_mem _ mem, related⟩

/-- Lists that come from lists side by side, element by element, stand side by side as well. -/
theorem forall₂_square {α α' β β' : Type} {A : α → α' → Prop} {B : α → β → Prop} {B' : α' → β' → Prop}
    {C : β → β' → Prop} {xs : List α} {xs' : List α'} {ys : List β} {ys' : List β'} (h : List.Forall₂ A xs xs')
    (left : List.Forall₂ B xs ys) (right : List.Forall₂ B' xs' ys')
    (each : ∀ a a' b b', b ∈ ys → b' ∈ ys' → A a a' → B a b → B' a' b' → C b b') : List.Forall₂ C ys ys' := by
  induction h generalizing ys ys' with
  | nil =>
    cases left
    cases right
    exact .nil
  | cons first _ ih =>
    cases left with
    | cons b later =>
      cases right with
      | cons b' later' =>
        refine .cons (each _ _ _ _ List.mem_cons_self List.mem_cons_self first b b') (ih later later' ?_)
        exact fun a a' b b' mem mem' => each a a' b b' (List.mem_cons_of_mem _ mem) (List.mem_cons_of_mem _ mem')

/-- Lists that come from one list, element by element, stand side by side. -/
theorem forall₂_fork {α β β' : Type} {B : α → β → Prop} {B' : α → β' → Prop} {C : β → β' → Prop} {xs : List α}
    {ys : List β} {ys' : List β'} (left : List.Forall₂ B xs ys) (right : List.Forall₂ B' xs ys')
    (each : ∀ a b b', B a b → B' a b' → C b b') : List.Forall₂ C ys ys' := by
  have same : List.Forall₂ (· = ·) xs xs := List.forall₂_refl xs
  apply forall₂_square same left right
  rintro a _ b b' _ _ rfl here here'
  exact each a b b' here here'

/-- What the first element of a list comes to stands before what the others come to. -/
theorem filterMap_cons_eq_append {α β : Type} (f : α → Option β) (x : α) (xs : List α) :
    (x :: xs).filterMap f = (f x).toList ++ xs.filterMap f := by
  rw [List.filterMap_cons]
  cases f x <;> rfl

def Item.opening? : Item → Option Opening
  | opening o => some o
  | _ => none

theorem Item.mem_filterMap_opening? {items : List Item} {o : Opening} :
    o ∈ items.filterMap opening? ↔ opening o ∈ items := by
  rw [List.mem_filterMap]
  constructor
  · rintro ⟨i, mem, same⟩
    cases i with
    | opening o' =>
      cases same
      exact mem
    | _ => cases same
  · intro mem
    exact ⟨opening o, mem, rfl⟩

/-- An account is as it was opened, except that it may have been closed since. -/
def Account.IsFresh (a : Account) : Prop :=
  a.state = { (ofOpening a.opening).state with active := a.state.active }

namespace Registry

/-- What the accounts were opened with. -/
def openings (r : Registry) : List Opening := r.accounts.map Account.opening

variable {r r' : Registry} {account : AccountRef}

/-! ### Accounts in the list, and accounts that are found -/

/-- An account of the list is the one found under its reference. -/
theorem get?_of_mem {a : Account} (mem : a ∈ r.accounts) : r.get? a.reference = some a := by
  rw [get?]
  have nodup := r.nodup
  generalize r.accounts = accounts at mem nodup
  induction accounts with
  | nil => cases mem
  | cons b rest ih =>
    obtain ⟨fresh, nodup⟩ := List.nodup_cons.1 nodup
    rcases List.mem_cons.1 mem with rfl | mem
    · simp
    · have other : b.reference ≠ a.reference := fun same => fresh (same ▸ List.mem_map_of_mem mem)
      rw [List.find?_cons_of_neg (by simpa using other)]
      exact ih mem nodup

theorem mem_of_get? {a : Account} (h : r.get? account = some a) : a ∈ r.accounts :=
  List.mem_of_find?_eq_some h

/-- Which accounts there are, and what they were opened with, is known from the openings. -/
theorem map_opening_get? (r : Registry) (account : AccountRef) :
    (r.get? account).map Account.opening = r.openings.find? fun o => decide (o.account = account) := by
  rw [openings, List.find?_map, get?]
  rfl

/-- The same openings are the same accounts. -/
theorem get?_eq_none_of_openings (same : r'.openings = r.openings) (missing : r'.get? account = none) :
    r.get? account = none := by
  have := map_opening_get? r account
  rwa [← same, ← map_opening_get?, missing, Option.map_none, Option.map_eq_none_iff] at this

theorem isSome_get?_of_openings (same : r'.openings = r.openings) (account : AccountRef) :
    (r'.get? account).isSome = (r.get? account).isSome := by
  rw [← Option.isSome_map, map_opening_get?, same, ← map_opening_get?, Option.isSome_map]

theorem exists_get?_of_openings (same : r'.openings = r.openings) {a : Account} (known : r.get? account = some a) :
    ∃ a', r'.get? account = some a' ∧ a'.opening = a.opening := by
  have := map_opening_get? r' account
  rw [same, ← map_opening_get?, known] at this
  exact Option.map_eq_some_iff.1 this

theorem exists_get?_of_mem_openings {o : Opening} (mem : o ∈ r.openings) :
    ∃ a, r.get? o.account = some a ∧ a.opening = o := by
  obtain ⟨a, known, rfl⟩ := List.mem_map.1 mem
  exact ⟨a, get?_of_mem known, rfl⟩

/-- Each account is kept in one currency. -/
theorem exists_currency (r : Registry) (account : AccountRef) :
    ∃ currency, ∀ o ∈ r.openings, o.account = account → o.balance.currency = currency := by
  cases found : r.get? account with
  | none =>
    -- No opening is one of this account, so any currency will do.
    refine ⟨.eur, fun o mem same => ?_⟩
    obtain ⟨a, known, _⟩ := exists_get?_of_mem_openings mem
    rw [same, found] at known
    cases known
  | some a =>
    refine ⟨a.currency, fun o mem same => ?_⟩
    obtain ⟨b, known, rfl⟩ := exists_get?_of_mem_openings mem
    rw [same, found] at known
    cases known
    rfl

/-! ### Changes of state -/

@[simp]
theorem openings_modify (r : Registry) (account : AccountRef) (f : AccountState → AccountState) :
    (r.modify account f).openings = r.openings := by
  rw [openings, openings, modify, List.map_map]
  refine List.map_congr_left fun a _ => ?_
  simp only [Function.comp_apply]
  split <;> rfl

theorem mapStates_of_modifyAll {ε : Type} {f : Account → Except ε AccountState}
    (h : r.modifyAll f = .ok r') : mapStates f r.accounts = .ok r'.accounts := by
  rw [modifyAll] at h
  split at h
  · cases h
  · next accounts new =>
    cases h
    exact new

/-- Accounts with new states stand side by side with those from before. -/
theorem forall₂_of_mapStates {ε : Type} {f : Account → Except ε AccountState} {accounts result : List Account}
    (h : mapStates f accounts = .ok result) :
    List.Forall₂ (fun a a' => ∃ state, f a = .ok state ∧ a' = ⟨a.opening, state⟩) accounts result := by
  induction accounts generalizing result with
  | nil =>
    cases h
    exact .nil
  | cons a rest ih =>
    simp only [mapStates, bind_eq_ok_iff, Except.ok.injEq] at h
    obtain ⟨state, here, later, h, rfl⟩ := h
    exact .cons ⟨state, here, rfl⟩ (ih h)

/-- Every account after a change of all states is one from before, with its new state. -/
theorem exists_of_mem_mapStates {ε : Type} {f : Account → Except ε AccountState}
    {accounts result : List Account} (h : mapStates f accounts = .ok result) {a' : Account}
    (mem : a' ∈ result) : ∃ a ∈ accounts, ∃ state, f a = .ok state ∧ a' = { a with state } := by
  obtain ⟨a, was, state, new, rfl⟩ := exists_of_mem_forall₂ (forall₂_of_mapStates h) mem
  exact ⟨a, was, state, new, rfl⟩

theorem openings_of_mapStates {ε : Type} {f : Account → Except ε AccountState}
    {accounts result : List Account} (h : mapStates f accounts = .ok result) :
    result.map Account.opening = accounts.map Account.opening :=
  map_eq_of_forall₂ <| (forall₂_of_mapStates h).imp fun _ _ ⟨_, _, same⟩ => by rw [same]

/-! ### The registry of some items -/

theorem openings_of_opened {o : Opening} (h : r.opened o = .ok r') :
    r'.openings = r.openings ++ [o] := by
  rw [opened] at h
  split at h
  · cases h
  · cases h
    rw [openings, openings, List.map_append]
    rfl

theorem openings_of_step {i : Item} (h : r.step i = .ok r') :
    r'.openings = r.openings ++ i.opening?.toList := by
  cases i with
  | opening o => exact openings_of_opened h
  | closing c =>
    rw [step, closed] at h
    split at h
    · cases h
    · cases h
      rw [openings_modify]
      exact (List.append_nil _).symm
  | _ =>
    cases h
    exact (List.append_nil _).symm

theorem isFresh_of_step {i : Item} (fresh : ∀ a ∈ r.accounts, a.IsFresh) (h : r.step i = .ok r') :
    ∀ a ∈ r'.accounts, a.IsFresh := by
  cases i with
  | opening o =>
    rw [step, opened] at h
    split at h
    · cases h
    · cases h
      intro a mem
      rcases List.mem_append.1 mem with mem | mem
      · exact fresh a mem
      · obtain rfl := List.mem_singleton.1 mem
        rfl
  | closing c =>
    rw [step, closed] at h
    split at h
    · cases h
    · cases h
      intro a mem
      obtain ⟨b, was, rfl⟩ := List.mem_map.1 mem
      have := fresh b was
      split
      · rw [Account.IsFresh] at this ⊢
        rw [this]
      · exact this
  | _ =>
    cases h
    exact fresh

theorem foldlM_step_induction {items : List Item} (fresh : ∀ a ∈ r.accounts, a.IsFresh)
    (h : items.foldlM step r = .ok r') :
    r'.openings = r.openings ++ items.filterMap Item.opening? ∧ ∀ a ∈ r'.accounts, a.IsFresh := by
  induction items generalizing r with
  | nil =>
    cases h
    exact ⟨(List.append_nil _).symm, fresh⟩
  | cons i rest ih =>
    simp only [List.foldlM_cons, bind_eq_ok_iff] at h
    obtain ⟨next, stepped, h⟩ := h
    obtain ⟨openings, fresh⟩ := ih (isFresh_of_step fresh stepped) h
    refine ⟨?_, fresh⟩
    rw [openings, openings_of_step stepped, filterMap_cons_eq_append, List.append_assoc]

/-- **The accounts of a registry are the openings among its items, in their order.** -/
theorem openings_of_ofItems {items : List Item} (h : ofItems items = .ok r) :
    r.openings = items.filterMap Item.opening? :=
  (foldlM_step_induction (by simp [empty]) h).1

theorem isFresh_of_ofItems {items : List Item} (h : ofItems items = .ok r) :
    ∀ a ∈ r.accounts, a.IsFresh :=
  (foldlM_step_induction (by simp [empty]) h).2

end Registry

end Daybook
