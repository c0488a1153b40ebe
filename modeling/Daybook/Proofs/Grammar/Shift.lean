import Daybook.Proofs.Grammar.Reading
import Mathlib.Data.List.Forall2

/-!
# The same text at another place

A reading does not depend on what stands before its place. Elsewhere, with the same rest of the text, an
expression is refused where it was, and else it reads the same with other line numbers
(`shifts_of_counted`).
-/

namespace Daybook.Grammar

open Cursor (Leads)

/-! ### Places and parts -/

/-- Parts that differ in their line numbers only, which are related by `numbers`. -/
inductive Node.Alike (numbers : Nat → Nat → Prop) : Node → Node → Prop where
  | mk {rule : Rule} {line line' : Nat} {text : String} {children children' : List Node}
      (place : numbers line line') (parts : List.Forall₂ (Node.Alike numbers) children children') :
      Alike numbers (.mk rule line text children) (.mk rule line' text children')

namespace Cursor

/-- The same rest of a text, with so many characters and lines more before it. -/
def shift (characters lines : Nat) (c : Cursor) : Cursor := ⟨c.offset + characters, c.line + lines, c.rest⟩

variable {c stop : Cursor} {characters lines : Nat}

theorem shift_next (c : Cursor) (x : Char) (rest : List Char) :
    (c.shift characters lines).next x rest = (c.next x rest).shift characters lines := by
  simp only [shift, next, mk.injEq, and_true]
  constructor
  · omega
  · split <;> omega

theorem shift_after? (c : Cursor) (text : List Char) :
    (c.shift characters lines).after? text = (c.after? text).map (shift characters lines) := by
  induction text generalizing c with
  | nil => rfl
  | cons x xs ih =>
    obtain ⟨offset, line, rest⟩ := c
    cases rest with
    | nil => rfl
    | cons y rest =>
      simp only [after?, shift]
      split
      · have := ih (Cursor.next ⟨offset, line, y :: rest⟩ y rest)
        rwa [← shift_next] at this
      · rfl

theorem Leads.shift {passed : List Char} (h : c.Leads passed stop) :
    (c.shift characters lines).Leads passed (stop.shift characters lines) where
  rest := h.rest
  offset := by simp only [Cursor.shift, h.offset]; omega
  line := by simp only [Cursor.shift, h.line]; omega

end Cursor

namespace Expr

/-- At a place, and there with so many characters and lines more before it, the expression is refused, or it
reads the same but for the line numbers. -/
structure Shifts (numbers : Nat → Nat → Prop) (characters lines : Nat) (e : Expr) (c : Cursor) : Prop where
  refused : e.read c = none → e.read (c.shift characters lines) = none
  taken : ∀ {nodes stop}, e.read c = some (nodes, stop) →
    ∃ nodes', e.read (c.shift characters lines) = some (nodes', stop.shift characters lines) ∧
      List.Forall₂ (Node.Alike numbers) nodes nodes'

variable {numbers : Nat → Nat → Prop} {characters lines : Nat} {e first second body : Expr} {c : Cursor}

theorem shifts_char (accepts : Char → Bool) : (char accepts).Shifts numbers characters lines c where
  refused refused := by
    have other : ∀ x rest, c.rest = x :: rest → accepts x = false := read_char_eq_none_iff.1 refused
    exact read_char_eq_none_iff.2 other
  taken taken := by
    obtain ⟨x, rest, isRest, accepted, rfl, rfl⟩ := read_char_eq_some_iff.1 taken
    rw [← Cursor.shift_next]
    exact ⟨[], read_char_eq_some_iff.2 ⟨x, rest, isRest, accepted, rfl, rfl⟩, .nil⟩

theorem shifts_word (text : List Char) : (word text).Shifts numbers characters lines c where
  refused refused := by
    rw [read_word_eq_none_iff] at refused ⊢
    rw [Cursor.shift_after?, refused]
    rfl
  taken taken := by
    obtain ⟨after, rfl⟩ := read_word_eq_some_iff.1 taken
    refine ⟨[], read_word_eq_some_iff.2 ⟨?_, rfl⟩, .nil⟩
    rw [Cursor.shift_after?, after]
    rfl

theorem shifts_done : done.Shifts numbers characters lines c where
  refused refused := by
    have more : c.rest ≠ [] := read_done_eq_none_iff.1 refused
    exact read_done_eq_none_iff.2 more
  taken taken := by
    obtain ⟨empty, rfl, rfl⟩ := read_done_eq_some_iff.1 taken
    exact ⟨[], read_done_eq_some_iff.2 ⟨empty, rfl, rfl⟩, .nil⟩

theorem shifts_seq (h : first.Shifts numbers characters lines c)
    (h' : ∀ {before m}, first.read c = some (before, m) → second.Shifts numbers characters lines m) :
    (seq first second).Shifts numbers characters lines c where
  refused refused := by
    rcases read_seq_eq_none_iff.1 refused with refused | ⟨before, m, begun, refused⟩
    · exact read_seq_eq_none_iff.2 (.inl (h.refused refused))
    · obtain ⟨before', begun', _⟩ := h.taken begun
      exact read_seq_eq_none_iff.2 (.inr ⟨before', _, begun', (h' begun).refused refused⟩)
  taken taken := by
    obtain ⟨before, m, after, begun, later, rfl⟩ := read_seq_eq_some_iff.1 taken
    obtain ⟨before', begun', alike⟩ := h.taken begun
    obtain ⟨after', later', alike'⟩ := (h' begun).taken later
    exact ⟨before' ++ after', read_seq_eq_some_iff.2 ⟨before', _, after', begun', later', rfl⟩,
      List.rel_append alike alike'⟩

theorem shifts_alt (h : first.Shifts numbers characters lines c)
    (h' : second.Shifts numbers characters lines c) : (alt first second).Shifts numbers characters lines c where
  refused refused := by
    obtain ⟨refused, refused'⟩ := read_alt_eq_none_iff.1 refused
    exact read_alt_eq_none_iff.2 ⟨h.refused refused, h'.refused refused'⟩
  taken taken := by
    rcases read_alt_eq_some_iff.1 taken with taken | ⟨refused, taken⟩
    · obtain ⟨nodes', taken', alike⟩ := h.taken taken
      exact ⟨nodes', read_alt_eq_some_iff.2 (.inl taken'), alike⟩
    · obtain ⟨nodes', taken', alike⟩ := h'.taken taken
      exact ⟨nodes', read_alt_eq_some_iff.2 (.inr ⟨h.refused refused, taken'⟩), alike⟩

theorem counted_of_read {nodes : List Node} {stop : Cursor} (counted : 1 ≤ c.line)
    (taken : e.read c = some (nodes, stop)) : 1 ≤ stop.line := by
  obtain ⟨passed, led⟩ := leads_of_read taken
  rw [led.line]
  exact Nat.le_add_right_of_le counted

theorem iterate_shift (h : ∀ {c}, 1 ≤ c.line → body.Shifts numbers characters lines c) (left : List Char)
    (counted : 1 ≤ c.line) :
    ∃ nodes', iterate (body.read ·) left (c.shift characters lines)
        = (nodes', (iterate (body.read ·) left c).2.shift characters lines) ∧
      List.Forall₂ (Node.Alike numbers) (iterate (body.read ·) left c).1 nodes' := by
  induction left generalizing c with
  | nil =>
    rw [iterate, iterate]
    cases taken : body.read c with
    | none => exact ⟨[], by rw [(h counted).refused taken]; rfl, .nil⟩
    | some reading =>
      obtain ⟨nodes', taken', alike⟩ := (h counted).taken taken
      exact ⟨nodes', by rw [taken']; rfl, alike⟩
  | cons x left ih =>
    rw [iterate, iterate]
    cases taken : body.read c with
    | none => exact ⟨[], by rw [(h counted).refused taken], .nil⟩
    | some reading =>
      obtain ⟨nodes', taken', alike⟩ := (h counted).taken taken
      obtain ⟨more, later, alike'⟩ := ih (counted_of_read counted taken)
      exact ⟨nodes' ++ more, by simp only [taken', later], List.rel_append alike alike'⟩

theorem shifts_star (h : ∀ {c}, 1 ≤ c.line → body.Shifts numbers characters lines c)
    (counted : 1 ≤ c.line) : (star body).Shifts numbers characters lines c where
  refused := nofun
  taken taken := by
    obtain ⟨nodes', same, alike⟩ := iterate_shift h c.rest counted
    rw [read_star, readAll, Option.some.injEq] at taken
    rw [taken] at same alike
    exact ⟨nodes', congrArg some same, alike⟩

theorem shifts_opt (h : body.Shifts numbers characters lines c) :
    (opt body).Shifts numbers characters lines c where
  refused := nofun
  taken taken := by
    rcases read_opt_eq_some_iff.1 taken with taken | ⟨refused, same⟩
    · obtain ⟨nodes', taken', alike⟩ := h.taken taken
      exact ⟨nodes', read_opt_eq_some_iff.2 (.inl taken'), alike⟩
    · cases same
      exact ⟨[], read_opt_eq_some_iff.2 (.inr ⟨h.refused refused, rfl⟩), .nil⟩

theorem shifts_ahead (h : body.Shifts numbers characters lines c) :
    (ahead body).Shifts numbers characters lines c where
  refused refused := read_ahead_eq_none_iff.2 (h.refused (read_ahead_eq_none_iff.1 refused))
  taken taken := by
    obtain ⟨⟨r, found⟩, rfl, rfl⟩ := read_ahead_eq_some_iff.1 taken
    obtain ⟨nodes', found', _⟩ := h.taken found
    exact ⟨[], read_ahead_eq_some_iff.2 ⟨⟨_, found'⟩, rfl, rfl⟩, .nil⟩

theorem shifts_unless (h : body.Shifts numbers characters lines c) :
    («unless» body).Shifts numbers characters lines c where
  refused refused := by
    obtain ⟨r, found⟩ := read_unless_eq_none_iff.1 refused
    obtain ⟨nodes', found', _⟩ := h.taken found
    exact read_unless_eq_none_iff.2 ⟨_, found'⟩
  taken taken := by
    obtain ⟨refused, rfl, rfl⟩ := read_unless_eq_some_iff.1 taken
    exact ⟨[], read_unless_eq_some_iff.2 ⟨h.refused refused, rfl, rfl⟩, .nil⟩

theorem shifts_rule (h : body.Shifts numbers characters lines c) (place : numbers c.line (c.line + lines))
    (name : Rule) (kind : RuleKind) : (rule name kind body).Shifts numbers characters lines c where
  refused refused := read_rule_eq_none_iff.2 (h.refused (read_rule_eq_none_iff.1 refused))
  taken taken := by
    obtain ⟨inside, within, rfl⟩ := read_rule_eq_some_iff.1 taken
    obtain ⟨inside', taken', alike⟩ := h.taken within
    obtain ⟨passed, led⟩ := leads_of_read within
    refine ⟨_, read_rule_eq_some_iff.2 ⟨inside', taken', rfl⟩, ?_⟩
    rw [led.upTo, led.shift.upTo]
    refine .cons (.mk place ?_) .nil
    split
    · exact .nil
    · exact alike

/-- **A reading does not depend on its place**: after so many more characters and lines it is refused where
it was, or it reads the same with line numbers that are as much greater. -/
theorem shifts_of_counted (greater : ∀ n, 1 ≤ n → numbers n (n + lines)) (e : Expr) {c : Cursor}
    (counted : 1 ≤ c.line) : e.Shifts numbers characters lines c := by
  induction e generalizing c with
  | char accepts => exact shifts_char accepts
  | word text => exact shifts_word text
  | done => exact shifts_done
  | seq first second ih ih' => exact shifts_seq (ih counted) fun begun => ih' (counted_of_read counted begun)
  | alt first second ih ih' => exact shifts_alt (ih counted) (ih' counted)
  | star body ih => exact shifts_star ih counted
  | opt body ih => exact shifts_opt (ih counted)
  | ahead body ih => exact shifts_ahead (ih counted)
  | «unless» body ih => exact shifts_unless (ih counted)
  | rule name kind body ih => exact shifts_rule (ih counted) (greater c.line counted) name kind

theorem readAll_shift (greater : ∀ n, 1 ≤ n → numbers n (n + lines)) (body : Expr) {c : Cursor}
    (counted : 1 ≤ c.line) :
    ∃ nodes', body.readAll (c.shift characters lines)
        = (nodes', (body.readAll c).2.shift characters lines) ∧
      List.Forall₂ (Node.Alike numbers) (body.readAll c).1 nodes' := by
  obtain ⟨nodes', read, alike⟩ := ((star body).shifts_of_counted greater counted).taken (read_star body c)
  exact ⟨nodes', Option.some.inj read, alike⟩

end Expr

end Daybook.Grammar
