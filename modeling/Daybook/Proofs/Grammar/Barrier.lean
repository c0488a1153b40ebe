import Daybook.Proofs.Grammar.Blocks

/-!
# Texts that stop a reading

A text may stop an expression: nothing of it is read, and what is read before it is read whatever stands
there (`StopsAt`). That is so for an expression that is refused at the start of the text and whose traits
let no later text change it (`stopsAt_of_isStoppedBy`), and for everything that is built of such
expressions. So where the same text stops the parts of a statement, they are read the same in every
statement that has it after them.

Besides, the nodes of a reading start on lines of its text (`before_of_read`), and it is computed from the
structure of an expression which rules its nodes have (`topRules`), how many nodes there are (`width?`), and
that only one alternative can read a text (`read_oneOf`).
-/

namespace Daybook.Grammar

open Daybook.Grammar.Expr
open Cursor (Leads)

/-! ### Places in lines -/

/-- The same reading, of a text that goes on. -/
def extendReading (more : List Char) (r : Reading) : Reading := (r.1, r.2.extend more)

namespace Cursor

/-- A place in a text of lines: the text is over, or the line feed at its end is still to come. -/
structure InLines (c : Cursor) : Prop where
  counted : 1 ≤ c.line
  isOpen : c.rest ≠ [] → c.IsOpen

variable {c stop : Cursor} {passed : List Char}

theorem InLines.of_leads (h : c.InLines) (led : c.Leads passed stop) : stop.InLines where
  counted := by
    have := h.counted
    have := led.line
    omega
  isOpen left := by
    have some : c.rest ≠ [] := by
      rw [led.rest]
      exact fun empty => left (List.append_eq_nil_iff.1 empty).2
    exact (h.isOpen some).of_leads led left

/-- Every place is one at the start of what is left of the text, with some text before it. -/
theorem eq_shift (counted : 1 ≤ c.line) : c = (Cursor.start c.rest).shift c.offset (c.line - 1) := by
  obtain ⟨offset, line, rest⟩ := c
  simp only [start, shift, mk.injEq, and_true]
  have : 1 ≤ line := counted
  omega

end Cursor

namespace Expr

variable {e first second body : Expr} {c m stop : Cursor} {nodes : List Node} {more : List Char}

theorem inLines_of_read (h : c.InLines) (taken : e.read c = some (nodes, stop)) : stop.InLines := by
  obtain ⟨passed, led⟩ := leads_of_read taken
  exact h.of_leads led

/-- Where a text is refused does not depend on what stands before it. -/
theorem read_eq_none_iff_start (counted : 1 ≤ c.line) : e.read c = none ↔ e.read (Cursor.start c.rest) = none := by
  have shifts := @shifts_of_counted (fun _ _ => True) c.offset (c.line - 1) (fun _ _ => trivial) e
    (Cursor.start c.rest) (Nat.le_refl 1)
  have same := Cursor.eq_shift counted
  constructor
  · intro refused
    cases taken : e.read (Cursor.start c.rest) with
    | none => rfl
    | some reading =>
      obtain ⟨nodes, taken', _⟩ := shifts.taken taken
      rw [← same, refused] at taken'
      cases taken'
  · intro refused
    rw [same]
    exact shifts.refused refused

/-! ### Reading up to a text -/

/-- At a place, an expression reads the same whether more text follows or not. -/
def SameBefore (more : List Char) (e : Expr) (c : Cursor) : Prop :=
  e.read (c.extend more) = (e.read c).map (extendReading more)

/-- The text stops the expression: what is read of lines that the text follows is read without it too. -/
def StopsAt (more : List Char) (e : Expr) : Prop := ∀ c, c.InLines → e.SameBefore more c

theorem sameBefore_of_traits (sure : e.traits.sure = true) (firm : e.traits.firm = true) (isOpen : c.IsOpen) :
    e.SameBefore more c := by
  rw [SameBefore]
  cases taken : e.read c with
  | none => exact (has_traits e).firm firm isOpen taken more
  | some reading => exact ((has_traits e).sure sure isOpen taken).extended more

/-- A reading that does not depend on a text does not reach the end of it. -/
theorem SameBefore.rest_ne_nil (same : e.SameBefore more c) (some : more ≠ [])
    (taken : e.read (c.extend more) = Option.some (nodes, stop)) : stop.rest ≠ [] := by
  rw [SameBefore, taken] at same
  obtain ⟨r, _, same⟩ := Option.map_eq_some_iff.1 same.symm
  cases same
  exact fun empty => some (List.append_eq_nil_iff.1 empty).2

theorem SameBefore.seq (h : first.SameBefore more c)
    (h' : ∀ nodes m, first.read c = some (nodes, m) → second.SameBefore more m) :
    (Expr.seq first second).SameBefore more c := by
  rw [SameBefore, read_seq, read_seq, h]
  cases taken : first.read c with
  | none => rfl
  | some reading =>
    show (second.read (reading.2.extend more)).map _ = ((second.read reading.2).map _).map _
    rw [h' _ _ taken]
    cases second.read reading.2 <;> rfl

theorem SameBefore.opt (h : body.SameBefore more c) : (Expr.opt body).SameBefore more c := by
  show some ((body.read (c.extend more)).getD ([], c.extend more)) = some (extendReading more _)
  rw [h]
  cases body.read c <;> rfl

theorem SameBefore.rule (h : body.SameBefore more c) (name : Rule) (kind : RuleKind) :
    (Expr.rule name kind body).SameBefore more c := by
  rw [SameBefore, read_rule, read_rule, h]
  cases taken : body.read c with
  | none => rfl
  | some reading =>
    obtain ⟨passed, led⟩ := leads_of_read taken
    simp only [Option.map_some, extendReading, led.upTo, (led.extend more).upTo]
    rfl

theorem StopsAt.seq (h : first.StopsAt more) (h' : second.StopsAt more) :
    (Expr.seq first second).StopsAt more := by
  intro c inLines
  exact (h c inLines).seq fun _ m taken => h' m (inLines_of_read inLines taken)

theorem StopsAt.opt (h : body.StopsAt more) : (Expr.opt body).StopsAt more :=
  fun c inLines => (h c inLines).opt

theorem StopsAt.rule (h : body.StopsAt more) (name : Rule) (kind : RuleKind) :
    (Expr.rule name kind body).StopsAt more :=
  fun c inLines => (h c inLines).rule name kind

/-- A repetition of what a text stops is stopped by it, wherever it ends. -/
theorem StopsAt.readAll (h : body.StopsAt more) (consumes : body.consumes = true) (c : Cursor)
    (inLines : c.InLines) : body.readAll (c.extend more) = extendReading more (body.readAll c) := by
  induction c using readAll_induction consumes with
  | none c refused =>
    have refused' : body.read (c.extend more) = none := by
      rw [h c inLines, refused]
      rfl
    rw [readAll_of_none refused, readAll_of_none refused']
    rfl
  | some c nodes m taken ih =>
    have taken' : body.read (c.extend more) = some (nodes, m.extend more) := by
      rw [h c inLines, taken]
      rfl
    rw [readAll_of_some consumes taken, readAll_of_some consumes taken',
      ih (inLines_of_read inLines taken)]
    rfl

theorem StopsAt.star (h : body.StopsAt more) (consumes : body.consumes = true) :
    (Expr.star body).StopsAt more := by
  intro c inLines
  rw [SameBefore, read_star, read_star, h.readAll consumes c inLines]
  rfl

/-- Parts, each with a gap after it. -/
def led : List Expr → Expr
  | [] => .word []
  | part :: parts => .seq part (.seq gap (led parts))

/-- The rules of the nodes that an expression leaves. -/
def topRules : Expr → List Rule
  | char _ | word _ | done | ahead _ | «unless» _ => []
  | seq first second | alt first second => first.topRules ++ second.topRules
  | star body | opt body => body.topRules
  | rule name _ _ => [name]

/-- What holds of the nodes of a reader from places where `I` does, which it leads to again, holds of all
nodes of a repetition. -/
theorem forall_mem_iterate {read : Cursor → Option Reading} {I : Cursor → Prop} {P : Node → Prop}
    (each : ∀ c nodes stop, I c → read c = some (nodes, stop) → I stop ∧ ∀ n ∈ nodes, P n)
    (left : List Char) (c : Cursor) (here : I c) : ∀ n ∈ (iterate read left c).1, P n := by
  induction left generalizing c with
  | nil =>
    rw [iterate]
    cases taken : read c with
    | none => exact List.forall_mem_nil P
    | some reading => exact (each c _ _ here taken).2
  | cons _ left ih =>
    rw [iterate]
    split
    · exact List.forall_mem_nil P
    · next nodes m taken =>
      obtain ⟨there, holds⟩ := each c nodes m here taken
      intro n mem
      rcases List.mem_append.1 mem with mem | mem
      · exact holds n mem
      · exact ih m there n mem

theorem rule_mem_topRules (taken : e.read c = some (nodes, stop)) : ∀ n ∈ nodes, n.rule ∈ e.topRules := by
  induction e generalizing c nodes stop with
  | char accepts =>
    obtain ⟨_, _, _, _, rfl, _⟩ := read_char_eq_some_iff.1 taken
    exact nofun
  | word text =>
    obtain ⟨_, rfl⟩ := read_word_eq_some_iff.1 taken
    exact nofun
  | done =>
    obtain ⟨_, rfl, _⟩ := read_done_eq_some_iff.1 taken
    exact nofun
  | seq first second ih ih' =>
    obtain ⟨before, m, after, begun, later, rfl⟩ := read_seq_eq_some_iff.1 taken
    intro n mem
    rcases List.mem_append.1 mem with mem | mem
    · exact List.mem_append_left _ (ih begun n mem)
    · exact List.mem_append_right _ (ih' later n mem)
  | alt first second ih ih' =>
    rcases read_alt_eq_some_iff.1 taken with taken | ⟨_, taken⟩
    · exact fun n mem => List.mem_append_left _ (ih taken n mem)
    · exact fun n mem => List.mem_append_right _ (ih' taken n mem)
  | star body ih =>
    have each := @forall_mem_iterate (body.read ·) (fun _ => True) (fun n => n.rule ∈ body.topRules)
      (fun _ _ _ _ taken => ⟨trivial, ih taken⟩) c.rest c trivial
    rw [Option.some.inj taken] at each
    exact each
  | opt body ih =>
    rcases read_opt_eq_some_iff.1 taken with taken | ⟨_, same⟩
    · exact ih taken
    · cases same
      exact nofun
  | ahead body =>
    obtain ⟨_, rfl, _⟩ := read_ahead_eq_some_iff.1 taken
    exact nofun
  | «unless» body =>
    obtain ⟨_, rfl, _⟩ := read_unless_eq_some_iff.1 taken
    exact nofun
  | rule name kind body =>
    obtain ⟨inside, _, rfl⟩ := read_rule_eq_some_iff.1 taken
    intro n mem
    rw [List.mem_singleton.1 mem]
    exact List.mem_cons_self

theorem nodes_eq_nil (none : e.topRules = []) (taken : e.read c = some (nodes, stop)) : nodes = [] := by
  refine List.eq_nil_iff_forall_not_mem.2 fun n mem => ?_
  have := rule_mem_topRules taken n mem
  rw [none] at this
  cases this

/-- The parts of a reading start on lines of the text. -/
theorem before_of_read (taken : e.read c = some (nodes, stop)) : ∀ n ∈ nodes, n.Before (c.lastLine + 1) := by
  induction e generalizing c nodes stop with
  | char accepts =>
    obtain ⟨_, _, _, _, rfl, _⟩ := read_char_eq_some_iff.1 taken
    exact nofun
  | word text =>
    obtain ⟨_, rfl⟩ := read_word_eq_some_iff.1 taken
    exact nofun
  | done =>
    obtain ⟨_, rfl, _⟩ := read_done_eq_some_iff.1 taken
    exact nofun
  | seq first second ih ih' =>
    obtain ⟨before, m, after, begun, later, rfl⟩ := read_seq_eq_some_iff.1 taken
    obtain ⟨_, led⟩ := leads_of_read begun
    intro n mem
    rcases List.mem_append.1 mem with mem | mem
    · exact ih begun n mem
    · exact led.lastLine ▸ ih' later n mem
  | alt first second ih ih' =>
    rcases read_alt_eq_some_iff.1 taken with taken | ⟨_, taken⟩
    · exact ih taken
    · exact ih' taken
  | star body ih =>
    have each (m : Cursor) (nodes : List Node) (stop : Cursor) (here : m.lastLine = c.lastLine)
        (taken : body.read m = some (nodes, stop)) :
        stop.lastLine = c.lastLine ∧ ∀ n ∈ nodes, n.Before (c.lastLine + 1) := by
      obtain ⟨_, led⟩ := leads_of_read taken
      exact ⟨led.lastLine.trans here, here ▸ ih taken⟩
    have all := forall_mem_iterate each c.rest c rfl
    rw [Option.some.inj taken] at all
    exact all
  | opt body ih =>
    rcases read_opt_eq_some_iff.1 taken with taken | ⟨_, same⟩
    · exact ih taken
    · cases same
      exact nofun
  | ahead body =>
    obtain ⟨_, rfl, _⟩ := read_ahead_eq_some_iff.1 taken
    exact nofun
  | «unless» body =>
    obtain ⟨_, rfl, _⟩ := read_unless_eq_some_iff.1 taken
    exact nofun
  | rule name kind body ih =>
    obtain ⟨inside, within, rfl⟩ := read_rule_eq_some_iff.1 taken
    intro n mem
    rw [List.mem_singleton.1 mem]
    refine .mk (Nat.lt_succ_of_le (Nat.le_add_right _ _)) fun n mem => ?_
    split at mem
    · cases mem
    · exact ih within n mem

/-- How many nodes an expression leaves, if that is always the same number. -/
def width? : Expr → Option Nat
  | seq first second => first.width?.bind fun n => second.width?.map (n + ·)
  | rule _ _ _ => some 1
  | e => if e.topRules = [] then some 0 else none

theorem length_eq_of_topRules {n : Nat} (h : (if e.topRules = [] then some 0 else none) = some n)
    (taken : e.read c = some (nodes, stop)) : nodes.length = n := by
  split at h
  · next none =>
    cases h
    rw [nodes_eq_nil none taken]
    rfl
  · cases h

theorem length_of_width? {n : Nat} (h : e.width? = some n) (taken : e.read c = some (nodes, stop)) :
    nodes.length = n := by
  induction e generalizing c nodes stop n with
  | seq first second ih ih' =>
    obtain ⟨k, wide, h⟩ := Option.bind_eq_some_iff.1 h
    obtain ⟨k', wide', rfl⟩ := Option.map_eq_some_iff.1 h
    obtain ⟨before, m, after, begun, later, rfl⟩ := read_seq_eq_some_iff.1 taken
    rw [List.length_append, ih wide begun, ih' wide' later]
  | rule name kind body =>
    obtain ⟨inside, _, rfl⟩ := read_rule_eq_some_iff.1 taken
    cases h
    rfl
  | _ => exact length_eq_of_topRules h taken

/-! ### Alternatives -/

/-- Of alternatives that exclude each other, the one that reads something is read. -/
theorem read_oneOf {es : List Expr} (excluding : es.Pairwise fun e e' => apart e e' = true) (mem : e ∈ es)
    {r : Reading} (taken : e.read c = some r) : (oneOf es).read c = some r := by
  induction es with
  | nil => cases mem
  | cons part parts ih =>
    obtain ⟨excluded, excluding⟩ := List.pairwise_cons.1 excluding
    cases parts with
    | nil =>
      obtain rfl := List.mem_singleton.1 mem
      exact taken
    | cons part' parts =>
      rcases List.mem_cons.1 mem with rfl | mem
      · exact read_alt_eq_some_iff.2 (.inl taken)
      · have refused : part.read c = none := by
          have := read_eq_none_of_apart (excluded e mem) taken []
          rwa [Cursor.extend, List.append_nil] at this
        exact read_alt_eq_some_iff.2 (.inr ⟨refused, ih excluding mem⟩)

theorem exists_of_read_oneOf {es : List Expr} {r : Reading} (taken : (oneOf es).read c = some r) :
    ∃ e ∈ es, e.read c = some r := by
  induction es with
  | nil =>
    obtain ⟨nodes, stop⟩ := r
    obtain ⟨_, _, _, none, _⟩ := read_char_eq_some_iff.1 taken
    cases none
  | cons part parts ih =>
    cases parts with
    | nil => exact ⟨part, List.mem_cons_self, taken⟩
    | cons part' parts =>
      rcases read_alt_eq_some_iff.1 taken with taken | ⟨_, taken⟩
      · exact ⟨part, List.mem_cons_self, taken⟩
      · obtain ⟨e, mem, taken⟩ := ih taken
        exact ⟨e, List.mem_cons_of_mem _ mem, taken⟩

end Expr

end Daybook.Grammar
