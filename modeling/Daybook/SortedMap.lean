/-!
# Sorted maps and sets

A sorted map is a list of keys with their values, in strictly ascending order of the keys; the order is
part of the type. A sorted set is a list of its elements in the same order.

`SortedMap.insert` is a single pass over the list. An entry with the same key is replaced.
-/

namespace Daybook

variable {κ ν : Type}

/-! ### Changing the values of a list -/

/-- New values for the entries of a list, from left to right, with a running state. -/
def reviseEntries {ε σ : Type} (f : σ → κ → ν → Except ε (ν × σ)) :
    σ → List (κ × ν) → Except ε (List (κ × ν) × σ)
  | state, [] => .ok ([], state)
  | state, (key, value) :: rest => do
    let (value, state) ← f state key value
    let (rest, state) ← reviseEntries f state rest
    .ok ((key, value) :: rest, state)

/-- New values stand under the same keys. -/
theorem keys_of_reviseEntries {ε σ : Type} {f : σ → κ → ν → Except ε (ν × σ)}
    {entries : List (κ × ν)} {state : σ} {result : List (κ × ν) × σ}
    (h : reviseEntries f state entries = .ok result) :
    result.1.map (·.1) = entries.map (·.1) := by
  induction entries generalizing state result with
  | nil => cases h; rfl
  | cons head rest ih =>
    obtain ⟨key, value⟩ := head
    simp only [reviseEntries, bind, Except.bind] at h
    split at h
    · cases h
    · split at h
      · cases h
      · next later => cases h; simp [ih later]

/-! ### Order of keys -/

/-- A strict order of keys in which of two different keys one is below the other. -/
class KeyOrder (κ : Type) where
  below : κ → κ → Bool
  below_trans : ∀ {a b c : κ}, below a b → below b c → below a c
  below_self : ∀ a : κ, below a a = false
  eq_of_not_below : ∀ {a b : κ}, below a b = false → below b a = false → a = b

/-- Texts are ordered by their characters. -/
instance : KeyOrder String where
  below a b := @decide (a < b) (String.decidableLT a b)
  below_trans h h' := decide_eq_true (String.lt_trans (of_decide_eq_true h) (of_decide_eq_true h'))
  below_self a := decide_eq_false (String.lt_irrefl a)
  eq_of_not_below h h' :=
    String.le_antisymm (String.not_lt.1 (of_decide_eq_false h')) (String.not_lt.1 (of_decide_eq_false h))

open KeyOrder (below)

variable [KeyOrder κ]

/-! ### Insertion into a list -/

/-- Puts a key with its value where it belongs. A key that is neither below nor above is the same. -/
def insertEntry (key : κ) (value : ν) : List (κ × ν) → List (κ × ν)
  | [] => [(key, value)]
  | (k, v) :: rest =>
    if below key k then (key, value) :: (k, v) :: rest
    else if below k key then (k, v) :: insertEntry key value rest
    else (k, value) :: rest

/-- The keys after an insertion are the inserted one and those from before. -/
theorem key_of_mem_insertEntry {key : κ} {value : ν} {entries : List (κ × ν)} {e : κ × ν}
    (h : e ∈ insertEntry key value entries) : e.1 = key ∨ ∃ old ∈ entries, e.1 = old.1 := by
  induction entries with
  | nil => simp_all [insertEntry]
  | cons head rest ih =>
    obtain ⟨k, v⟩ := head
    simp only [insertEntry] at h
    split at h
    · rcases List.mem_cons.1 h with rfl | h
      · exact .inl rfl
      · exact .inr ⟨e, h, rfl⟩
    · split at h
      · rcases List.mem_cons.1 h with rfl | h
        · exact .inr ⟨_, List.mem_cons_self, rfl⟩
        · rcases ih h with h | ⟨old, mem, h⟩
          · exact .inl h
          · exact .inr ⟨old, List.mem_cons_of_mem _ mem, h⟩
      · rcases List.mem_cons.1 h with rfl | h
        · exact .inr ⟨_, List.mem_cons_self, rfl⟩
        · exact .inr ⟨e, List.mem_cons_of_mem _ h, rfl⟩

/-- Entries in strictly ascending order of their keys. -/
def Ascending (entries : List (κ × ν)) : Prop := entries.Pairwise fun a b => below a.1 b.1

theorem Ascending.insertEntry {key : κ} {value : ν} {entries : List (κ × ν)} (h : Ascending entries) :
    Ascending (insertEntry key value entries) := by
  induction entries with
  | nil => exact List.pairwise_singleton _ _
  | cons head rest ih =>
    obtain ⟨k, v⟩ := head
    obtain ⟨first, sorted⟩ := List.pairwise_cons.1 h
    simp only [Daybook.insertEntry]
    split
    · next less =>
      refine List.pairwise_cons.2 ⟨fun e mem => ?_, h⟩
      rcases List.mem_cons.1 mem with rfl | mem
      · exact less
      · exact KeyOrder.below_trans less (first e mem)
    · split
      · next less =>
        refine List.pairwise_cons.2 ⟨fun e mem => ?_, ih sorted⟩
        rcases key_of_mem_insertEntry mem with same | ⟨old, mem, same⟩
        · rw [same]; exact less
        · rw [same]; exact first old mem
      · exact List.pairwise_cons.2 ⟨first, sorted⟩

/-- What stands first under a key after an insertion: the inserted value under its own key, and under
any other key what stood there before. -/
theorem find?_insertEntry [DecidableEq κ] (key k : κ) (value : ν) (entries : List (κ × ν)) :
    (insertEntry key value entries).find? (fun e => decide (e.1 = k))
      = if key = k then some (key, value) else entries.find? fun e => decide (e.1 = k) := by
  induction entries with
  | nil => by_cases h : key = k <;> simp [insertEntry, h]
  | cons head rest ih =>
    obtain ⟨first, v⟩ := head
    simp only [insertEntry]
    split
    · by_cases h : key = k <;> simp [h]
    · next notBelow =>
      split
      · next above =>
        by_cases h : first = k
        · have : key ≠ k := fun same => by simp [h, same, KeyOrder.below_self] at above
          simp [h, this]
        · simpa [h] using ih
      · next notAbove =>
        obtain rfl := KeyOrder.eq_of_not_below (Bool.eq_false_iff.2 notBelow) (Bool.eq_false_iff.2 notAbove)
        by_cases h : key = k <;> simp [h]

/-- The order is one of the keys alone. -/
theorem ascending_iff_keys {entries : List (κ × ν)} :
    Ascending entries ↔ (entries.map (·.1)).Pairwise fun a b => below a b :=
  (List.pairwise_map (R := fun a b : κ => below a b)).symm

/-! ### Maps -/

/-- Values under keys, in ascending order of the keys. -/
structure SortedMap (κ ν : Type) [KeyOrder κ] where
  entries : List (κ × ν)
  ascending : Ascending entries

namespace SortedMap

def empty : SortedMap κ ν := ⟨[], List.Pairwise.nil⟩

instance : Inhabited (SortedMap κ ν) := ⟨empty⟩

instance [DecidableEq κ] [DecidableEq ν] : DecidableEq (SortedMap κ ν) := fun a b =>
  if h : a.entries = b.entries then
    isTrue (by cases a; cases b; cases h; rfl)
  else
    isFalse fun same => h (same ▸ rfl)

def get? [DecidableEq κ] (m : SortedMap κ ν) (key : κ) : Option ν :=
  (m.entries.find? fun e => decide (e.1 = key)).map (·.2)

/-- The map with a value under a key, in place of what was there. -/
def insert (m : SortedMap κ ν) (key : κ) (value : ν) : SortedMap κ ν :=
  ⟨insertEntry key value m.entries, m.ascending.insertEntry⟩

def erase [DecidableEq κ] (m : SortedMap κ ν) (key : κ) : SortedMap κ ν :=
  ⟨m.entries.filter fun e => decide (e.1 ≠ key), m.ascending.filter _⟩

@[simp]
theorem get?_empty [DecidableEq κ] (k : κ) : (empty : SortedMap κ ν).get? k = none := rfl

/-- An insertion puts its value under its key, and leaves what is under any other. -/
theorem get?_insert [DecidableEq κ] (m : SortedMap κ ν) (key k : κ) (value : ν) :
    (m.insert key value).get? k = if key = k then some value else m.get? k := by
  rw [get?, insert, find?_insertEntry]
  split <;> rfl

/-- An erased key is under nothing, and what is under any other stays. -/
theorem get?_erase [DecidableEq κ] (m : SortedMap κ ν) (key k : κ) :
    (m.erase key).get? k = if key = k then none else m.get? k := by
  rw [get?, erase, List.find?_filter]
  split
  · next same => simp [same]
  · next other =>
    rw [get?]
    congr 2
    funext e
    by_cases h : e.1 = k
    · simp [h, Ne.symm other]
    · simp [h]

/-- The map with new values, worked out in the order of the keys with a running state. -/
def revise {ε σ : Type} (f : σ → κ → ν → Except ε (ν × σ)) (state : σ) (m : SortedMap κ ν) :
    Except ε (SortedMap κ ν × σ) :=
  match h : reviseEntries f state m.entries with
  | .error e => .error e
  | .ok (entries, state) =>
    .ok (⟨entries, ascending_iff_keys.2 (keys_of_reviseEntries h ▸ ascending_iff_keys.1 m.ascending)⟩,
      state)

end SortedMap

/-! ### Sets -/

/-- Elements in ascending order, each once. -/
structure SortedSet (κ : Type) [KeyOrder κ] where
  map : SortedMap κ Unit

namespace SortedSet

def empty : SortedSet κ := ⟨.empty⟩

instance [DecidableEq κ] : DecidableEq (SortedSet κ) := fun a b =>
  if h : a.map = b.map then isTrue (by cases a; cases b; cases h; rfl)
  else isFalse fun same => h (same ▸ rfl)

def toList (s : SortedSet κ) : List κ := s.map.entries.map (·.1)

def insert (s : SortedSet κ) (x : κ) : SortedSet κ :=
  ⟨s.map.insert x ()⟩

def ofList (xs : List κ) : SortedSet κ :=
  xs.foldl insert empty

def contains [DecidableEq κ] (s : SortedSet κ) (x : κ) : Bool := (s.map.get? x).isSome

end SortedSet

end Daybook
