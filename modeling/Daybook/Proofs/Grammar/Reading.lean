import Daybook.Grammar.Peg

/-!
# Readings

What holds of the reading of every expression. It goes from its place over some characters to another
(`leads_of_read`). Where an expression reads at least a character each time, repeating it has an equation
without fuel (`readAll_of_some`, `readAll_of_none`) and an induction (`readAll_induction`).
-/

namespace Daybook.Grammar

/-! ### From one place to a later one -/

namespace Cursor

/-- Going over some characters leads from a place to another. -/
structure Leads (c : Cursor) (passed : List Char) (stop : Cursor) : Prop where
  rest : c.rest = passed ++ stop.rest
  offset : stop.offset = c.offset + passed.length
  line : stop.line = c.line + passed.count '\n'

theorem Leads.refl (c : Cursor) : c.Leads [] c := ⟨rfl, rfl, rfl⟩

variable {c m stop : Cursor} {passed further : List Char}

theorem Leads.trans (first : c.Leads passed m) (second : m.Leads further stop) :
    c.Leads (passed ++ further) stop where
  rest := by rw [first.rest, second.rest, List.append_assoc]
  offset := by rw [second.offset, first.offset, List.length_append, Nat.add_assoc]
  line := by rw [second.line, first.line, List.count_append, Nat.add_assoc]

theorem leads_next {x : Char} {rest : List Char} (h : c.rest = x :: rest) :
    c.Leads [x] (c.next x rest) := by
  refine ⟨h, rfl, ?_⟩
  rw [next]
  split
  · next feed => simp [feed]
  · next other => simp [other]

theorem leads_of_after? {text : List Char} (h : c.after? text = some stop) : c.Leads text stop := by
  induction text generalizing c with
  | nil =>
    cases h
    exact .refl _
  | cons x xs ih =>
    rw [after?] at h
    split at h
    · cases h
    · next y rest isRest =>
      split at h
      · next same =>
        subst same
        exact (leads_next isRest).trans (ih h)
      · cases h

/-- The characters between a place and one that it leads to are those gone over. -/
theorem Leads.upTo (h : c.Leads passed stop) : c.upTo stop = passed := by
  rw [Cursor.upTo, h.offset, h.rest, Nat.add_sub_cancel_left, List.take_left]

theorem Leads.length (h : c.Leads passed stop) : c.rest.length = passed.length + stop.rest.length := by
  rw [h.rest, List.length_append]

end Cursor

open Cursor (Leads)

namespace Expr

variable {e first second body : Expr} {c stop : Cursor} {nodes : List Node}

/-! ### What each expression reads -/

-- The equations of `read` are worked out here, once for all expressions.
theorem read_equations (c : Cursor) :
    (∀ first second, (seq first second).read c
      = (first.read c).bind fun r => (second.read r.2).map fun r' => (r.1 ++ r'.1, r'.2)) ∧
    (∀ first second, (alt first second).read c = (first.read c).or (second.read c)) ∧
    (∀ body, (ahead body).read c = (body.read c).map fun _ => ([], c)) ∧
    (∀ body, («unless» body).read c = if (body.read c).isSome then none else some ([], c)) ∧
    (∀ name kind body, (rule name kind body).read c = (body.read c).map fun r =>
      ([.mk name c.line (String.ofList (c.upTo r.2)) (if kind = .token then [] else r.1)], r.2)) ∧
    ∀ accepts, (char accepts).read c = c.rest.head?.bind fun x =>
      if accepts x then some ([], c.next x c.rest.tail) else none := by
  refine ⟨fun first second => ?_, fun first second => ?_, fun body => ?_, fun body => ?_,
    fun name kind body => ?_, fun accepts => ?_⟩
  · rw [read]
    cases first.read c with
    | none => rfl
    | some r =>
      dsimp only [Option.bind_some]
      cases second.read r.2 <;> rfl
  · rw [read]
    cases first.read c <;> rfl
  · rw [read]
    cases body.read c <;> rfl
  · rw [read]
    cases body.read c <;> rfl
  · rw [read]
    cases body.read c <;> rfl
  · rw [read]
    cases c.rest <;> rfl

theorem read_seq (first second : Expr) (c : Cursor) :
    (seq first second).read c
      = (first.read c).bind fun r => (second.read r.2).map fun r' => (r.1 ++ r'.1, r'.2) :=
  (read_equations c).1 first second

theorem read_alt (first second : Expr) (c : Cursor) :
    (alt first second).read c = (first.read c).or (second.read c) :=
  (read_equations c).2.1 first second

theorem read_ahead (body : Expr) (c : Cursor) :
    (ahead body).read c = (body.read c).map fun _ => ([], c) :=
  (read_equations c).2.2.1 body

theorem read_unless (body : Expr) (c : Cursor) :
    («unless» body).read c = if (body.read c).isSome then none else some ([], c) :=
  (read_equations c).2.2.2.1 body

theorem read_rule (name : Rule) (kind : RuleKind) (body : Expr) (c : Cursor) :
    (rule name kind body).read c = (body.read c).map fun r =>
      ([.mk name c.line (String.ofList (c.upTo r.2)) (if kind = .token then [] else r.1)], r.2) :=
  (read_equations c).2.2.2.2.1 name kind body

theorem read_char (accepts : Char → Bool) (c : Cursor) :
    (char accepts).read c = c.rest.head?.bind fun x =>
      if accepts x then some ([], c.next x c.rest.tail) else none :=
  (read_equations c).2.2.2.2.2 accepts

theorem read_char_eq_some_iff {accepts : Char → Bool} :
    (char accepts).read c = some (nodes, stop) ↔
      ∃ x rest, c.rest = x :: rest ∧ accepts x = true ∧ nodes = [] ∧ stop = c.next x rest := by
  rw [read_char]
  cases c.rest with
  | nil => simp
  | cons x rest =>
    rw [List.head?_cons, Option.bind_some, List.tail_cons]
    by_cases accepted : accepts x = true
    · rw [if_pos accepted]
      constructor
      · rintro ⟨rfl, rfl⟩
        exact ⟨x, rest, rfl, accepted, rfl, rfl⟩
      · rintro ⟨_, _, same, _, rfl, rfl⟩
        cases same
        rfl
    · rw [if_neg accepted]
      constructor
      · intro taken
        cases taken
      · rintro ⟨_, _, same, accepted', _⟩
        cases same
        exact absurd accepted' accepted

theorem read_char_eq_none_iff {accepts : Char → Bool} :
    (char accepts).read c = none ↔ ∀ x rest, c.rest = x :: rest → accepts x = false := by
  rw [read_char]
  cases c.rest with
  | nil => simp
  | cons x rest => cases accepted : accepts x <;> simp [accepted]

theorem read_word_eq_some_iff {text : List Char} :
    (word text).read c = some (nodes, stop) ↔ c.after? text = some stop ∧ nodes = [] := by
  show (c.after? text).map (fun stop => (([], stop) : Reading)) = _ ↔ _
  rw [Option.map_eq_some_iff]
  constructor
  · rintro ⟨_, after, same⟩
    cases same
    exact ⟨after, rfl⟩
  · rintro ⟨after, rfl⟩
    exact ⟨stop, after, rfl⟩

theorem read_word_eq_none_iff {text : List Char} : (word text).read c = none ↔ c.after? text = none :=
  Option.map_eq_none_iff

theorem read_done_eq_some_iff : done.read c = some (nodes, stop) ↔ c.rest = [] ∧ nodes = [] ∧ stop = c := by
  show (if c.rest.isEmpty then some ([], c) else none) = _ ↔ _
  split
  · next empty =>
    simp only [List.isEmpty_iff.1 empty, true_and, Option.some.injEq, Prod.mk.injEq]
    exact ⟨fun ⟨h, h'⟩ => ⟨h.symm, h'.symm⟩, fun ⟨h, h'⟩ => ⟨h.symm, h'.symm⟩⟩
  · next more => exact ⟨nofun, fun ⟨empty, _⟩ => absurd (List.isEmpty_iff.2 empty) more⟩

theorem read_done_eq_none_iff : done.read c = none ↔ c.rest ≠ [] := by
  show (if c.rest.isEmpty then some ([], c) else none) = none ↔ _
  cases c.rest <;> simp

theorem read_seq_eq_some_iff :
    (seq first second).read c = some (nodes, stop) ↔
      ∃ before m after, first.read c = some (before, m) ∧ second.read m = some (after, stop) ∧
        nodes = before ++ after := by
  rw [read_seq]
  simp only [Option.bind_eq_some_iff, Option.map_eq_some_iff, Prod.exists, Prod.mk.injEq]
  constructor
  · rintro ⟨before, m, begun, after, stop, later, rfl, rfl⟩
    exact ⟨before, m, after, begun, later, rfl⟩
  · rintro ⟨before, m, after, begun, later, rfl⟩
    exact ⟨before, m, begun, after, stop, later, rfl, rfl⟩

theorem read_seq_eq_none_iff :
    (seq first second).read c = none ↔
      first.read c = none ∨ ∃ before m, first.read c = some (before, m) ∧ second.read m = none := by
  rw [read_seq]
  cases first.read c with
  | none => simp
  | some r =>
    rw [Option.bind_some, Option.map_eq_none_iff]
    constructor
    · intro refused
      exact .inr ⟨r.1, r.2, rfl, refused⟩
    · rintro (none | ⟨before, m, same, refused⟩)
      · cases none
      · cases same
        exact refused

theorem read_alt_eq_some_iff {r : Reading} :
    (alt first second).read c = some r ↔
      first.read c = some r ∨ first.read c = none ∧ second.read c = some r := by
  rw [read_alt, Option.or_eq_some_iff]

theorem read_alt_eq_none_iff :
    (alt first second).read c = none ↔ first.read c = none ∧ second.read c = none := by
  rw [read_alt, Option.or_eq_none_iff]

theorem read_opt_eq_some_iff {r : Reading} :
    (opt body).read c = some r ↔ body.read c = some r ∨ body.read c = none ∧ r = ([], c) := by
  show some ((body.read c).getD ([], c)) = _ ↔ _
  cases body.read c with
  | none => simp [eq_comm]
  | some r' => simp

theorem read_ahead_eq_some_iff :
    (ahead body).read c = some (nodes, stop) ↔ (∃ r, body.read c = some r) ∧ nodes = [] ∧ stop = c := by
  rw [read_ahead]
  cases body.read c with
  | none => simp
  | some r => simp [eq_comm]

theorem read_ahead_eq_none_iff : (ahead body).read c = none ↔ body.read c = none := by
  rw [read_ahead, Option.map_eq_none_iff]

theorem read_unless_eq_some_iff :
    («unless» body).read c = some (nodes, stop) ↔ body.read c = none ∧ nodes = [] ∧ stop = c := by
  rw [read_unless]
  cases body.read c with
  | none => simp [eq_comm]
  | some r => simp

theorem read_unless_eq_none_iff : («unless» body).read c = none ↔ ∃ r, body.read c = some r := by
  rw [read_unless]
  cases body.read c <;> simp

theorem read_rule_eq_some_iff {name : Rule} {kind : RuleKind} :
    (rule name kind body).read c = some (nodes, stop) ↔
      ∃ inside, body.read c = some (inside, stop) ∧
        nodes = [.mk name c.line (String.ofList (c.upTo stop)) (if kind = .token then [] else inside)] := by
  rw [read_rule, Option.map_eq_some_iff]
  constructor
  · rintro ⟨⟨inside, _⟩, taken, same⟩
    cases same
    exact ⟨inside, taken, rfl⟩
  · rintro ⟨inside, taken, rfl⟩
    exact ⟨(inside, stop), taken, rfl⟩

theorem read_rule_eq_none_iff {name : Rule} {kind : RuleKind} :
    (rule name kind body).read c = none ↔ body.read c = none := by
  rw [read_rule, Option.map_eq_none_iff]

/-! ### Going over characters -/

theorem leads_of_iterate {read : Cursor → Option Reading}
    (leads : ∀ c nodes stop, read c = some (nodes, stop) → ∃ passed, c.Leads passed stop)
    (left : List Char) (c : Cursor) : ∃ passed, c.Leads passed (iterate read left c).2 := by
  induction left generalizing c with
  | nil =>
    rw [iterate]
    cases taken : read c with
    | none => exact ⟨[], .refl c⟩
    | some reading => exact leads c _ _ taken
  | cons _ left ih =>
    rw [iterate]
    split
    · exact ⟨[], .refl c⟩
    · next nodes m taken =>
      obtain ⟨passed, first⟩ := leads c nodes m taken
      obtain ⟨further, second⟩ := ih m
      exact ⟨passed ++ further, first.trans second⟩

/-- **A reading goes over some characters**, and never back. -/
theorem leads_of_read (h : e.read c = some (nodes, stop)) : ∃ passed, c.Leads passed stop := by
  induction e generalizing c nodes stop with
  | char accepts =>
    obtain ⟨x, rest, isRest, _, _, rfl⟩ := read_char_eq_some_iff.1 h
    exact ⟨[x], Cursor.leads_next isRest⟩
  | word text => exact ⟨text, Cursor.leads_of_after? (read_word_eq_some_iff.1 h).1⟩
  | done =>
    obtain ⟨_, _, rfl⟩ := read_done_eq_some_iff.1 h
    exact ⟨[], .refl _⟩
  | seq first second ih ih' =>
    obtain ⟨before, m, after, begun, later, _⟩ := read_seq_eq_some_iff.1 h
    obtain ⟨passed, led⟩ := ih begun
    obtain ⟨further, led'⟩ := ih' later
    exact ⟨passed ++ further, led.trans led'⟩
  | alt first second ih ih' =>
    rcases read_alt_eq_some_iff.1 h with taken | ⟨_, taken⟩
    · exact ih taken
    · exact ih' taken
  | star body ih =>
    obtain ⟨passed, led⟩ := leads_of_iterate (fun _ _ _ taken => ih taken) c.rest c
    rw [Option.some.inj h] at led
    exact ⟨passed, led⟩
  | opt body ih =>
    rcases read_opt_eq_some_iff.1 h with taken | ⟨_, same⟩
    · exact ih taken
    · cases same
      exact ⟨[], .refl c⟩
  | ahead body =>
    obtain ⟨_, _, rfl⟩ := read_ahead_eq_some_iff.1 h
    exact ⟨[], .refl _⟩
  | «unless» body =>
    obtain ⟨_, _, rfl⟩ := read_unless_eq_some_iff.1 h
    exact ⟨[], .refl _⟩
  | rule name kind body ih =>
    obtain ⟨inside, taken, _⟩ := read_rule_eq_some_iff.1 h
    exact ih taken

/-! ### Expressions that read a character -/

/-- Whatever the expression reads, it reads at least a character. -/
def consumes : Expr → Bool
  | char _ => true
  | word text => !text.isEmpty
  | done | star _ | opt _ | ahead _ | «unless» _ => false
  | seq first second => first.consumes || second.consumes
  | alt first second => first.consumes && second.consumes
  | rule _ _ body => body.consumes

theorem length_lt_of_consumes (h : e.consumes = true) (taken : e.read c = some (nodes, stop)) :
    stop.rest.length < c.rest.length := by
  induction e generalizing c nodes stop with
  | char accepts =>
    obtain ⟨x, rest, isRest, _, _, rfl⟩ := read_char_eq_some_iff.1 taken
    simp [Cursor.next, isRest]
  | word text =>
    have := (Cursor.leads_of_after? (read_word_eq_some_iff.1 taken).1).length
    have : text ≠ [] := by simpa [consumes] using h
    have := List.length_pos_iff.2 this
    omega
  | seq first second ih ih' =>
    obtain ⟨before, m, after, begun, later, _⟩ := read_seq_eq_some_iff.1 taken
    obtain ⟨passed, led⟩ := leads_of_read begun
    obtain ⟨further, led'⟩ := leads_of_read later
    have := led.length
    have := led'.length
    rw [consumes, Bool.or_eq_true] at h
    rcases h with h | h
    · have := ih h begun
      omega
    · have := ih' h later
      omega
  | alt first second ih ih' =>
    rw [consumes, Bool.and_eq_true] at h
    rcases read_alt_eq_some_iff.1 taken with taken | ⟨_, taken⟩
    · exact ih h.1 taken
    · exact ih' h.2 taken
  | rule name kind body ih =>
    obtain ⟨inside, taken, _⟩ := read_rule_eq_some_iff.1 taken
    exact ih h taken
  | done | star _ | opt _ | ahead _ | «unless» _ => cases h

theorem rest_ne_nil_of_consumes (h : e.consumes = true) (taken : e.read c = some (nodes, stop)) :
    c.rest ≠ [] := by
  intro empty
  have := length_lt_of_consumes h taken
  simp [empty] at this

/-! ### Repetitions -/

/-- What repeating an expression reads. -/
def readAll (body : Expr) (c : Cursor) : Reading := iterate (body.read ·) c.rest c

theorem read_star (body : Expr) (c : Cursor) : (star body).read c = some (body.readAll c) := rfl

theorem leads_readAll (body : Expr) (c : Cursor) : ∃ passed, c.Leads passed (body.readAll c).2 :=
  leads_of_iterate (fun _ _ _ taken => leads_of_read taken) c.rest c

/-- Fuel does not matter as long as there is as much of it as there are characters. -/
theorem iterate_eq (h : body.consumes = true) {left left' : List Char}
    (enough : c.rest.length ≤ left.length) (enough' : c.rest.length ≤ left'.length) :
    iterate (body.read ·) left c = iterate (body.read ·) left' c := by
  have atEnd {c : Cursor} (short : c.rest.length ≤ ([] : List Char).length) (left : List Char) :
      iterate (body.read ·) left c = ([], c) := by
    have empty : c.rest = [] := List.length_eq_zero_iff.1 (Nat.le_zero.1 short)
    have refused : body.read c = none := by
      cases taken : body.read c with
      | none => rfl
      | some reading => exact absurd empty (rest_ne_nil_of_consumes h taken)
    cases left <;> simp [iterate, refused]
  induction left generalizing c left' with
  | nil => rw [atEnd enough [], atEnd enough left']
  | cons x left ih =>
    cases left' with
    | nil => rw [atEnd enough' _, atEnd enough' []]
    | cons y left' =>
      rw [iterate, iterate]
      cases taken : body.read c with
      | none => rfl
      | some reading =>
        have := length_lt_of_consumes h taken
        have shorter : reading.2.rest.length ≤ left.length := by
          simp only [List.length_cons] at enough
          omega
        have shorter' : reading.2.rest.length ≤ left'.length := by
          simp only [List.length_cons] at enough'
          omega
        simp only [ih shorter shorter']

theorem readAll_of_none (h : body.read c = none) : body.readAll c = ([], c) := by
  rw [readAll]
  cases c.rest <;> simp [iterate, h]

theorem readAll_of_some (h : body.consumes = true) (taken : body.read c = some (nodes, stop)) :
    body.readAll c = (nodes ++ (body.readAll stop).1, (body.readAll stop).2) := by
  have shorter := length_lt_of_consumes h taken
  rw [readAll, readAll]
  cases rest : c.rest with
  | nil => exact absurd rest (rest_ne_nil_of_consumes h taken)
  | cons x left =>
    have enough : stop.rest.length ≤ left.length := by
      rw [rest, List.length_cons] at shorter
      omega
    rw [iterate]
    simp only [taken, iterate_eq h enough (Nat.le_refl stop.rest.length)]

/-- **Induction over a repetition**, from where it stops back to where it starts. -/
theorem readAll_induction {motive : Cursor → Prop} (h : body.consumes = true)
    (none : ∀ c, body.read c = none → motive c)
    (some : ∀ c nodes m, body.read c = some (nodes, m) → motive m → motive c) (c : Cursor) : motive c := by
  induction length : c.rest.length using Nat.strongRecOn generalizing c with
  | _ n ih =>
    cases taken : body.read c with
    | none => exact none c taken
    | some reading =>
      obtain ⟨nodes, m⟩ := reading
      exact some c nodes m taken (ih m.rest.length (length ▸ length_lt_of_consumes h taken) m rfl)

/-- A repetition stops where there is nothing more to repeat. -/
theorem read_readAll (h : body.consumes = true) (c : Cursor) : body.read (body.readAll c).2 = none := by
  induction c using readAll_induction h with
  | none c refused => rwa [readAll_of_none refused]
  | some c nodes m taken ih => rwa [readAll_of_some h taken]

end Expr

end Daybook.Grammar
