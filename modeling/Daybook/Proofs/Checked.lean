import Daybook.Replay
import Daybook.Statement.Booking

/-!
# Checked steps, from their results

A computation that may be refused is a chain of steps, and it succeeds when each of them does. The
lemmas here take a success apart: what every step must have returned. For a loop of steps that tell
(`foldTelling`) there is one induction, `foldTelling_induction`, over what has been taken so far.
-/

namespace Daybook

variable {ε α β σ : Type}

/-! ### One step -/

/-- A chain succeeds when its first step does, and the rest does with what that returned. -/
@[simp]
theorem bind_eq_ok_iff {x : Except ε α} {f : α → Except ε β} {b : β} :
    (x >>= f) = .ok b ↔ ∃ a, x = .ok a ∧ f a = .ok b := by
  cases x with
  | error e => simp [bind, Except.bind]
  | ok a => simp [bind, Except.bind]

@[simp]
theorem except_bind_eq_ok_iff {x : Except ε α} {f : α → Except ε β} {b : β} :
    x.bind f = .ok b ↔ ∃ a, x = .ok a ∧ f a = .ok b := bind_eq_ok_iff

@[simp]
theorem map_eq_ok_iff {x : Except ε α} {f : α → β} {b : β} :
    x.map f = .ok b ↔ ∃ a, x = .ok a ∧ f a = b := by
  cases x <;> simp [Except.map]

@[simp]
theorem mapError_eq_ok_iff {ε' : Type} {x : Except ε α} {f : ε → ε'} {a : α} :
    x.mapError f = .ok a ↔ x = .ok a := by
  constructor
  · intro h
    cases x with
    | error e => cases h
    | ok b => exact congrArg Except.ok (Except.ok.inj h)
  · intro h
    rw [h]
    rfl

theorem mapM_mapError_eq_ok_iff {ε' : Type} {f : α → Except ε β} {g : α → ε → ε'} {xs : List α} {ys : List β} :
    (xs.mapM fun x => (f x).mapError (g x)) = .ok ys ↔ xs.mapM f = .ok ys := by
  induction xs generalizing ys with
  | nil => simp [pure, Except.pure]
  | cons x xs ih => simp [List.mapM_cons, ih, pure, Except.pure]

@[simp]
theorem orError_eq_ok_iff {x : Option α} {e : Error} {a : α} : orError x e = .ok a ↔ x = some a := by
  cases x <;> simp [orError]

@[simp]
theorem require_eq_ok_iff {condition : Bool} {e : Error} {u : Unit} :
    require condition e = .ok u ↔ condition = true := by
  cases condition <;> simp [require]

/-- A chain fails when its first step does, or the rest with what that returned. -/
theorem bind_eq_error_iff {x : Except ε α} {f : α → Except ε β} {e : ε} :
    (x >>= f) = .error e ↔ x = .error e ∨ ∃ a, x = .ok a ∧ f a = .error e := by
  cases x with
  | error e' => simp [bind, Except.bind]
  | ok a => simp [bind, Except.bind]

theorem mapError_eq_error_iff {ε' : Type} {x : Except ε α} {f : ε → ε'} {e : ε'} :
    x.mapError f = .error e ↔ ∃ why, x = .error why ∧ f why = e := by
  cases x with
  | ok a =>
    constructor
    · intro h
      cases h
    · rintro ⟨why, same, _⟩
      cases same
  | error why =>
    constructor
    · intro h
      exact ⟨why, rfl, Except.error.inj h⟩
    · rintro ⟨_, same, rfl⟩
      cases same
      rfl

theorem orError_eq_error_iff {x : Option α} {e e' : Error} :
    orError x e = .error e' ↔ x = none ∧ e = e' := by
  cases x <;> simp [orError]

theorem toOption_eq_some_iff {x : Except ε α} {a : α} : x.toOption = some a ↔ x = .ok a := by
  cases x <;> simp [Except.toOption]

/-! ### What is returned, whatever the errors -/

variable {step : σ → α → Except Error (σ × List Notice)}

theorem result_foldTelling_cons {s final : σ} {x : α} {xs : List α} :
    (foldTelling step s (x :: xs)).result = .ok final ↔
      ∃ next notices, step s x = .ok (next, notices) ∧
        (foldTelling step next xs).result = .ok final := by
  rw [foldTelling]
  split
  · next e failed => simp [failed]
  · next next notices taken => simp [taken]

/-- A loop over two lists is one over the second, from where the one over the first ends. -/
theorem result_foldTelling_append (s : σ) (xs ys : List α) :
    (foldTelling step s (xs ++ ys)).result
      = (foldTelling step s xs).result >>= fun next => (foldTelling step next ys).result := by
  induction xs generalizing s with
  | nil => rfl
  | cons x rest ih =>
    rw [List.cons_append, foldTelling, foldTelling]
    split
    · rfl
    · next next notices taken => exact ih next

/-- Steps that do the same to every element make the same loop. -/
theorem foldTelling_congr {step' : σ → α → Except Error (σ × List Notice)} {xs : List α}
    (same : ∀ x ∈ xs, ∀ s, step s x = step' s x) (s : σ) :
    foldTelling step s xs = foldTelling step' s xs := by
  induction xs generalizing s with
  | nil => rfl
  | cons x rest ih =>
    have later := ih fun y mem => same y (List.mem_cons_of_mem _ mem)
    simp only [foldTelling, same x List.mem_cons_self, later]

/-- A loop that fails has failed in one step, after the loop over the elements before it. -/
theorem exists_of_foldTelling_error {xs : List α} {start : σ} {e : Error}
    (run : (foldTelling step start xs).result = .error e) :
    ∃ done x rest s, xs = done ++ x :: rest ∧
      (foldTelling step start done).result = .ok s ∧ step s x = .error e := by
  induction xs generalizing start with
  | nil => cases run
  | cons x rest ih =>
    rw [foldTelling] at run
    split at run
    · next e' failed =>
      cases run
      exact ⟨[], x, rest, start, rfl, rfl, failed⟩
    · next next notices taken =>
      obtain ⟨done, y, rest, s, rfl, before, failed⟩ := ih run
      exact ⟨x :: done, y, rest, s, rfl,
        result_foldTelling_cons.2 ⟨next, notices, taken, before⟩, failed⟩

/-- **Induction over a loop.** What holds before the first step, and after each step of what it held
of before, holds at the end; it may speak of the elements that have been taken so far. -/
theorem foldTelling_induction {motive : List α → σ → Prop} {xs : List α} {start final : σ}
    (run : (foldTelling step start xs).result = .ok final) (base : motive [] start)
    (next : ∀ done x s s' notices, x ∈ xs → motive done s → step s x = .ok (s', notices) →
      motive (done ++ [x]) s') :
    motive xs final := by
  suffices general : ∀ rest done s, (∀ x ∈ rest, x ∈ xs) → motive done s →
      (foldTelling step s rest).result = .ok final → motive (done ++ rest) final by
    exact general xs [] start (fun _ mem => mem) base run
  intro rest
  induction rest with
  | nil =>
    intro done s _ holds run
    cases run
    simpa using holds
  | cons x rest ih =>
    intro done s mem holds run
    obtain ⟨s', notices, taken, run⟩ := result_foldTelling_cons.1 run
    have := ih (done ++ [x]) s' (fun y h => mem y (List.mem_cons_of_mem _ h))
      (next done x s s' notices (mem x List.mem_cons_self) holds taken) run
    simpa using this

/-- Every element of a loop that succeeds has had its step, after the loop over those before it. -/
theorem exists_of_mem_foldTelling {xs : List α} {start final : σ} {x : α}
    (run : (foldTelling step start xs).result = .ok final) (mem : x ∈ xs) :
    ∃ done rest s next notices, xs = done ++ x :: rest ∧
      (foldTelling step start done).result = .ok s ∧ step s x = .ok (next, notices) := by
  induction xs generalizing start with
  | nil => cases mem
  | cons y rest ih =>
    obtain ⟨s, notices, taken, run⟩ := result_foldTelling_cons.1 run
    rcases List.mem_cons.1 mem with rfl | mem
    · exact ⟨[], rest, start, s, notices, rfl, rfl, taken⟩
    · obtain ⟨done, rest, s', next, notices', rfl, before, now⟩ := ih run mem
      exact ⟨y :: done, rest, s', next, notices', rfl,
        result_foldTelling_cons.2 ⟨s, notices, taken, before⟩, now⟩

/-- Elements that change nothing may be left out of a loop, whatever they tell. -/
theorem result_foldTelling_filter (keep : α → Bool)
    (skip : ∀ s x, keep x = false → ∃ notices, step s x = .ok (s, notices)) (s : σ) (xs : List α) :
    (foldTelling step s (xs.filter keep)).result = (foldTelling step s xs).result := by
  induction xs generalizing s with
  | nil => rfl
  | cons x rest ih =>
    cases kept : keep x with
    | false =>
      obtain ⟨notices, skipped⟩ := skip s x kept
      rw [List.filter_cons_of_neg (by simp [kept]), ih, foldTelling, skipped]
    | true =>
      rw [List.filter_cons_of_pos kept, foldTelling, foldTelling]
      split
      · rfl
      · next next notices taken => exact ih next

/-- Elements that change and tell nothing may be left out of a loop. -/
theorem foldTelling_filter (keep : α → Bool)
    (skip : ∀ s x, keep x = false → step s x = .ok (s, [])) (s : σ) (xs : List α) :
    foldTelling step s (xs.filter keep) = foldTelling step s xs := by
  induction xs generalizing s with
  | nil => rfl
  | cons x rest ih =>
    cases kept : keep x with
    | false =>
      rw [List.filter_cons_of_neg (by simp [kept]), ih]
      simp [foldTelling, skip s x kept]
    | true =>
      rw [List.filter_cons_of_pos kept]
      simp only [foldTelling, ih]

end Daybook
