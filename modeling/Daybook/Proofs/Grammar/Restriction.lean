import Daybook.Proofs.Grammar.Blocks

/-!
# Texts that end earlier

What an expression reads of a text that goes on, up to a place before that, it mostly reads of the text alone:
what comes later has not been looked at (`LocalAt`). This may fail where an alternative that is refused in the
whole text is not in the shorter one, or where the expression looks at what comes next. Whether it can is
computed from the structure of an expression (`isLocal`), and it cannot for the blocks of a ledger
(`read_block_of_extend`).
-/

namespace Daybook.Grammar

open Cursor (Leads)

namespace Cursor

variable {c m stop : Cursor} {passed further more : List Char}

/-- A place on the way to a place of a text is one of the text, although the text goes on. -/
theorem Leads.exists_of_extend (led : (c.extend more).Leads passed m)
    (led' : m.Leads further (stop.extend more)) :
    ∃ m', m = m'.extend more ∧ c.Leads passed m' := by
  have before : m.rest = (further ++ stop.rest) ++ more := led'.rest.trans (List.append_assoc ..).symm
  have whole : c.rest ++ more = passed ++ m.rest := led.rest
  rw [before, ← List.append_assoc] at whole
  refine ⟨⟨m.offset, m.line, further ++ stop.rest⟩, ?_, List.append_cancel_right whole, led.offset, led.line⟩
  rw [Cursor.extend, ← before]

theorem extend_injective (more : List Char) : Function.Injective (extend more) := by
  rintro ⟨offset, line, rest⟩ ⟨offset', line', rest'⟩ same
  simp only [extend, mk.injEq, List.append_cancel_right_eq] at same
  rwa [mk.injEq]

theorem Leads.of_extend (led : (c.extend more).Leads passed (stop.extend more)) : c.Leads passed stop := by
  refine ⟨?_, led.offset, led.line⟩
  have whole : c.rest ++ more = passed ++ (stop.rest ++ more) := led.rest
  rw [← List.append_assoc] at whole
  exact List.append_cancel_right whole

end Cursor

namespace Expr

variable {e e' first second body : Expr} {c m stop : Cursor} {nodes : List Node}

/-! ### What is not refused later -/

/-- What is refused although the text goes on is refused without that. -/
def LastsAt (e : Expr) (c : Cursor) : Prop := ∀ more, e.read (c.extend more) = none → e.read c = none

/-- What the expression reads at open places is not refused if the text goes on, as is seen from its
structure. -/
def lasts : Expr → Bool
  | seq first second => first.traits.sure && (second.traits.total || first.traits.stays && second.lasts)
  | rule _ _ body => body.lasts
  | e => e.traits.sure

/-- What is read of a text that goes on, up to a place of the text, is read of the text alone. -/
def LocalAt (e : Expr) (c : Cursor) : Prop :=
  ∀ more nodes stop, e.read (c.extend more) = some (nodes, stop.extend more) → e.read c = some (nodes, stop)

theorem LocalAt.seq (h : first.LocalAt c) (h' : ∀ nodes m, first.read c = some (nodes, m) → second.LocalAt m) :
    (seq first second).LocalAt c := by
  intro more nodes stop taken
  obtain ⟨before, m, after, begun, later, rfl⟩ := read_seq_eq_some_iff.1 taken
  obtain ⟨_, led⟩ := leads_of_read begun
  obtain ⟨_, led'⟩ := leads_of_read later
  obtain ⟨m, rfl, _⟩ := led.exists_of_extend led'
  have begun := h more before m begun
  exact read_seq_eq_some_iff.2 ⟨before, m, after, begun, h' before m begun more after stop later, rfl⟩

theorem LocalAt.alt (h : first.LocalAt c) (h' : second.LocalAt c)
    (refused : ∀ r, second.read c = some r → first.LastsAt c) : (alt first second).LocalAt c := by
  intro more nodes stop taken
  rcases read_alt_eq_some_iff.1 taken with taken | ⟨refused', taken⟩
  · exact read_alt_eq_some_iff.2 (.inl (h more nodes stop taken))
  · have taken := h' more nodes stop taken
    exact read_alt_eq_some_iff.2 (.inr ⟨refused _ taken more refused', taken⟩)

theorem LocalAt.opt (h : body.LocalAt c) (lasts : body.LastsAt c) : (opt body).LocalAt c := by
  intro more nodes stop taken
  rcases read_opt_eq_some_iff.1 taken with taken | ⟨refused, same⟩
  · exact read_opt_eq_some_iff.2 (.inl (h more nodes stop taken))
  · rw [Prod.mk.injEq] at same
    obtain ⟨rfl, same⟩ := same
    rw [Cursor.extend_injective more same]
    exact read_opt_eq_some_iff.2 (.inr ⟨lasts more refused, rfl⟩)

theorem LocalAt.rule (h : body.LocalAt c) (name : Rule) (kind : RuleKind) : (rule name kind body).LocalAt c := by
  intro more nodes stop taken
  obtain ⟨inside, taken', rfl⟩ := read_rule_eq_some_iff.1 taken
  obtain ⟨passed, led⟩ := leads_of_read taken'
  have text : (c.extend more).upTo (stop.extend more) = c.upTo stop := led.upTo.trans led.of_extend.upTo.symm
  exact read_rule_eq_some_iff.2 ⟨inside, h more inside stop taken', by rw [text]; rfl⟩

/-- A repetition up to a place of a text is one of the text: each time the body is read up to such a place, and
where it is refused at last, it is so without what comes later. -/
theorem LocalAt.star (consumes : body.consumes = true)
    (h : ∀ passed m, c.Leads passed m → body.LocalAt m ∧ body.LastsAt m) : (star body).LocalAt c := by
  intro more nodes stop taken
  rw [read_star, Option.some.injEq] at taken ⊢
  generalize whole : c.extend more = d at taken
  induction d using readAll_induction consumes generalizing c nodes with
  | none d refused =>
    subst whole
    rw [readAll_of_none refused, Prod.mk.injEq] at taken
    obtain ⟨rfl, same⟩ := taken
    rw [← Cursor.extend_injective more same, readAll_of_none ((h [] c (.refl c)).2 more refused)]
  | some d own m taken' ih =>
    subst whole
    rw [readAll_of_some consumes taken', Prod.mk.injEq] at taken
    obtain ⟨rfl, last⟩ := taken
    obtain ⟨passed, led⟩ := leads_of_read taken'
    obtain ⟨_, led'⟩ := leads_readAll body m
    rw [last] at led'
    obtain ⟨m, rfl, here⟩ := led.exists_of_extend led'
    have later : body.readAll m = ((body.readAll (m.extend more)).1, stop) :=
      ih (fun further k led' => h (passed ++ further) k (here.trans led')) _ rfl (Prod.ext rfl last)
    rw [readAll_of_some consumes ((h [] c (.refl c)).1 more own m taken'), later]

end Expr

end Daybook.Grammar
