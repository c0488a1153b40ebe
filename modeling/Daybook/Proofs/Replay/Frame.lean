import Daybook.Proofs.Replay.History

/-!
# What applying an item never changes

An item may change balances, positions and, if it sets rates, the basket. Whatever else is in the books
stays: the accounts with their openings, and which of them can hold shares (`sameFrame_of_apply`). This
holds of all items, also of such as no statement writes. So the basket at the end of a replay is what the
rate sets among the items make of it (`sameFrame_of_foldTelling`).
-/

namespace Daybook

namespace Books

/-! ### Frames -/

def sharesOf? (b : Books) (a : AccountRef) : Option (SortedMap String Position) :=
  (b.accounts.get? a).bind (·.state.shares)

def canHold (b : Books) (a : AccountRef) : Bool := (b.sharesOf? a).isSome

/-- Books with the same rates, the same openings, and the same accounts that can hold shares. -/
structure SameFrame (b b' : Books) : Prop where
  basket : b'.basket = b.basket
  openings : b'.accounts.openings = b.accounts.openings
  holders : ∀ a, b'.canHold a = b.canHold a

variable {b b' b'' : Books} {account : AccountRef} {location : Location}

theorem SameFrame.refl (b : Books) : SameFrame b b := ⟨rfl, rfl, fun _ => rfl⟩

theorem SameFrame.trans (h : SameFrame b b') (h' : SameFrame b' b'') : SameFrame b b'' where
  basket := h'.basket.trans h.basket
  openings := h'.openings.trans h.openings
  holders a := (h'.holders a).trans (h.holders a)

theorem sharesOf?_eq_state? (b : Books) (a : AccountRef) :
    b.sharesOf? a = (b.state? a).bind AccountState.shares := by
  rw [sharesOf?, state?, Option.bind_map]
  rfl

/-- A position is held by an account that can hold shares. -/
theorem canHold_of_positionOf? {a : AccountRef} {company : String} (h : (b.positionOf? a company).isSome) :
    b.canHold a = true := by
  rw [canHold, sharesOf?_eq_state?]
  rw [positionOf?] at h
  cases found : b.state? a with
  | none => simp [found] at h
  | some s =>
    cases holds : s.shares with
    | none => simp [found, holds] at h
    | some shares => simp [holds]

/-! ### One operation at a time -/

/-- A change of one account's state keeps the frame if the account can hold shares after it exactly if it
could before. -/
theorem sameFrame_modify {f : AccountState → AccountState}
    (keeps : ∀ s, b.state? account = some s → (f s).shares.isSome = s.shares.isSome) :
    SameFrame b (b.modify account f) where
  basket := rfl
  openings := openings_modify b account f
  holders a := by
    rw [canHold, canHold, sharesOf?_eq_state?, sharesOf?_eq_state?, state?_modify]
    cases found : b.state? a with
    | none => rfl
    | some s =>
      simp only [Option.map_some, Option.bind_some]
      split
      · next same =>
        subst same
        exact keeps s found
      · rfl

theorem sameFrame_of_credit {amount : Decimal} (h : b.credit account amount location = .ok b') :
    SameFrame b b' := by
  cases known : b.accounts.get? account with
  | none =>
    obtain rfl := eq_of_credit h known
    exact .refl _
  | some found =>
    obtain ⟨_, _, rfl⟩ := exists_of_credit h known
    exact sameFrame_modify fun _ _ => rfl

theorem sameFrame_of_creditLegs {legs : List Leg} (h : b.creditLegs legs = .ok b') :
    SameFrame b b' := by
  induction legs generalizing b with
  | nil =>
    cases h
    exact .refl _
  | cons leg rest ih =>
    rw [creditLegs] at h
    split at h
    · exact ih h
    · obtain ⟨_, credited, h⟩ := bind_eq_ok_iff.1 h
      exact (sameFrame_of_credit credited).trans (ih h)

theorem sameFrame_of_modifyPosition {company : String} {f : Position → Except Error Position}
    (h : b.modifyPosition account company f = .ok b') : SameFrame b b' := by
  obtain ⟨found, shares, _, known, holds, _, rfl⟩ := exists_of_modifyPosition h
  refine sameFrame_modify fun s isState => ?_
  cases isState.symm.trans (state?_of_get? known)
  rw [holds]
  rfl

theorem sameFrame_of_assertEntry {time : Timestamp} {e : BalanceEntry} {notices : List Notice}
    (h : assertEntry time b e = .ok (b', notices)) : SameFrame b b' := by
  rw [assertEntry] at h
  split at h
  · cases h
    exact sameFrame_modify fun _ _ => rfl
  · simp only [bind_eq_ok_iff, Except.ok.injEq, Prod.mk.injEq] at h
    obtain ⟨_, changed, rfl, _⟩ := h
    exact sameFrame_of_modifyPosition changed

theorem sameFrame_of_assertEntries {time : Timestamp} {entries : List BalanceEntry}
    {notices : List Notice} (h : assertEntries time b entries = .ok (b', notices)) :
    SameFrame b b' := by
  induction entries generalizing b notices with
  | nil =>
    cases h
    exact .refl _
  | cons e rest ih =>
    simp only [assertEntries, bind_eq_ok_iff, Except.ok.injEq, Prod.mk.injEq] at h
    obtain ⟨⟨_, _⟩, asserted, ⟨_, _⟩, h, rfl, _⟩ := h
    exact (sameFrame_of_assertEntry asserted).trans (ih h)

theorem sameFrame_of_equity {t : Transaction} {notices : List Notice}
    (h : b.equity t = .ok (b', notices)) : SameFrame b b' := by
  simp only [equity, bind_eq_ok_iff] at h
  obtain ⟨m, _, price, _, b₁, given, b₂, taken, b₃, holder, h⟩ := h
  have cash := (sameFrame_of_credit given).trans (sameFrame_of_credit taken)
  have held := cash.trans (sameFrame_of_modifyPosition holder)
  split at h
  · simp only [bind_eq_ok_iff, Except.ok.injEq, Prod.mk.injEq] at h
    obtain ⟨_, mover, rfl, _⟩ := h
    exact held.trans (sameFrame_of_modifyPosition mover)
  · cases h
    exact held

theorem sameFrame_of_dividend {t : Transaction} {company : String}
    (h : b.dividend t company = .ok b') : SameFrame b b' := by
  simp only [dividend, bind_eq_ok_iff] at h
  obtain ⟨_, _, _, _, _, _, _, _, _, _, _, _, b₁, credited, h⟩ := h
  exact (sameFrame_of_credit credited).trans (sameFrame_of_modifyPosition h)

theorem sameFrame_of_transaction {t : Transaction} {notices : List Notice}
    (h : b.transaction t = .ok (b', notices)) : SameFrame b b' := by
  cases applied_of_transaction h with
  | mirror => exact .refl _
  | cash _ _ _ _ credited => exact sameFrame_of_creditLegs credited
  | equity _ _ _ traded => exact sameFrame_of_equity traded
  | dividend _ _ paid => exact sameFrame_of_dividend paid

/-! ### Items -/

/-- **An item keeps the frame**, but for the rates that it sets. -/
theorem sameFrame_of_apply {o : Options} {i : Item} {notices : List Notice}
    (h : b.apply o i = .ok (b', notices)) : SameFrame (b.quoting (i.ratesAfter o b.basket)) b' := by
  cases i with
  | rates r =>
    simp only [apply, setRates, Except.ok.injEq] at h
    rw [Item.ratesAfter]
    split at h
    · next gated =>
      cases h
      rw [if_pos gated]
      exact .refl _
    · next free =>
      cases h
      rw [if_neg free]
      exact .refl _
  | balance s =>
    rw [apply] at h
    split at h
    · cases h
      exact .refl _
    · simp only [balance, bind_eq_ok_iff] at h
      obtain ⟨_, _, h⟩ := h
      exact sameFrame_of_assertEntries h
  | transaction t =>
    rw [apply] at h
    split at h
    · cases h
      exact .refl _
    · exact sameFrame_of_transaction h
  | _ =>
    cases h
    exact .refl _

/-- The rates at the end are what the items make of those at the start, and all else of the frame is as it
was. -/
theorem sameFrame_of_foldTelling {o : Options} {items : List Item}
    (run : (foldTelling (apply o) b items).result = .ok b') :
    SameFrame (b.quoting (items.foldl (Item.ratesAfter o) b.basket)) b' := by
  induction items generalizing b with
  | nil =>
    cases run
    exact .refl _
  | cons i rest ih =>
    obtain ⟨next, notices, applied, run⟩ := result_foldTelling_cons.1 run
    have first := sameFrame_of_apply applied
    have later := ih run
    rw [first.basket] at later
    exact ⟨later.basket, later.openings.trans first.openings,
      fun a => (later.holders a).trans (first.holders a)⟩

end Books

end Daybook
