import Daybook.Grammar.Ledger
import Daybook.Proofs.Grammar.Extension

/-!
# A ledger is read block by block

A block is a statement with the gap before it. A text is a ledger if repeating blocks reads all of it but a
gap, and the blocks are its parts (`read_ledger`). What is read as a block is so whatever text follows
(`sure_block`). So of two texts, the first of which is a ledger, one after the other, the blocks are those of
the first and then those of the second (`readAll_block_append`).
-/

namespace Daybook.Grammar

open Daybook.Grammar.Expr

/-! ### Gaps -/

namespace Cursor

/-- The place after the spaces and tabs at a place. -/
def afterGap (c : Cursor) : Cursor := ((Expr.char isGap).readAll c).2

/-- Nothing but a gap is left of the text. -/
def IsOver (c : Cursor) : Prop := c.afterGap.rest = []

instance (c : Cursor) : Decidable c.IsOver := inferInstanceAs (Decidable (_ = _))

end Cursor

variable {c : Cursor}

theorem read_gap (c : Cursor) : gap.read c = some ([], c.afterGap) := by
  have consumes : (char isGap).consumes = true := rfl
  have noNodes : ((char isGap).readAll c).1 = [] := by
    induction c using readAll_induction consumes with
    | none c refused => rw [readAll_of_none refused]
    | some c nodes m taken ih =>
      obtain ⟨_, _, _, _, rfl, _⟩ := read_char_eq_some_iff.1 taken
      rw [readAll_of_some consumes taken]
      exact ih
  rw [gap, read_star, ← noNodes, Cursor.afterGap]

theorem afterGap_afterGap (c : Cursor) : c.afterGap.afterGap = c.afterGap := by
  have refused : (char isGap).read c.afterGap = none := read_readAll rfl c
  rw [Cursor.afterGap, readAll_of_none refused]

/-- There is no line feed in a gap. -/
theorem isOpen_afterGap (h : c.IsOpen) : c.afterGap.IsOpen :=
  (has_traits gap).stays (by decide) h (read_gap c)

theorem afterGap_shift (characters lines : Nat) (counted : 1 ≤ c.line) :
    (c.shift characters lines).afterGap = c.afterGap.shift characters lines := by
  have shifts := @shifts_of_counted (fun _ _ => True) characters lines (fun _ _ => trivial) gap c counted
  obtain ⟨_, read, _⟩ := shifts.taken (read_gap c)
  rw [read_gap] at read
  exact congrArg Prod.snd (Option.some.inj read)

theorem isOver_shift (characters lines : Nat) (counted : 1 ≤ c.line) :
    (c.shift characters lines).IsOver ↔ c.IsOver := by
  rw [Cursor.IsOver, afterGap_shift characters lines counted]
  rfl

/-! ### Repetitions with gaps -/

theorem read_seq_gap (body : Expr) (c : Cursor) : (Expr.seq gap body).read c = body.read c.afterGap := by
  rw [read_seq, read_gap, Option.bind_some]
  exact congrFun Option.map_id _

/-- A repetition with gaps between repeats the body with the gap before it, but for the first gap and maybe
the last. -/
theorem read_many {body : Expr} (consumes : (Expr.seq gap body).consumes = true) (c : Cursor) :
    ∃ m, (many body).read c.afterGap = some (((Expr.seq gap body).readAll c).1, m) ∧
      m.afterGap = ((Expr.seq gap body).readAll c).2.afterGap := by
  rw [many]
  cases taken : body.read c.afterGap with
  | none =>
    rw [readAll_of_none ((read_seq_gap body c).trans taken)]
    refine ⟨c.afterGap, read_opt_eq_some_iff.2 (.inr ⟨?_, rfl⟩), afterGap_afterGap c⟩
    exact read_seq_eq_none_iff.2 (.inl taken)
  | some reading =>
    obtain ⟨nodes, k⟩ := reading
    rw [readAll_of_some consumes ((read_seq_gap body c).trans taken)]
    refine ⟨((Expr.seq gap body).readAll k).2, read_opt_eq_some_iff.2 (.inl ?_), rfl⟩
    exact read_seq_eq_some_iff.2 ⟨nodes, k, ((Expr.seq gap body).readAll k).1, taken, rfl, rfl⟩

/-! ### Blocks -/

/-- A statement with the gap before it. -/
def block : Expr := .seq gap statement

theorem consumes_block : block.consumes = true := rfl

/-- **What is read as a block is read as this block whatever text follows.** -/
theorem sure_block : block.traits.sure = true := by decide +kernel

theorem read_block (c : Cursor) : block.read c = statement.read c.afterGap := read_seq_gap statement c

/-- Statements with gaps between them are blocks, but for the first gap and maybe the last. -/
theorem read_many_statement (c : Cursor) :
    ∃ m, (many statement).read c.afterGap = some ((block.readAll c).1, m) ∧
      m.afterGap = (block.readAll c).2.afterGap :=
  read_many consumes_block c

/-- **A ledger is its blocks**, up to the end of the text. -/
theorem read_ledger (c : Cursor) :
    ledger.read c = (endOfInput.read (block.readAll c).2.afterGap).map fun last =>
      ([.mk .ledger c.line (String.ofList (c.upTo last.2)) ((block.readAll c).1 ++ last.1)], last.2) := by
  obtain ⟨m, statements, same⟩ := read_many_statement c
  have parts : (loose [.word [], many statement, endOfInput]).read c
      = (endOfInput.read m.afterGap).map fun last => ((block.readAll c).1 ++ last.1, last.2) := by
    have nothing : (Expr.word []).read c = some ([], c) := rfl
    simp only [loose, read_seq, nothing, read_gap, statements, Option.bind_some, Option.map_map]
    rfl
  rw [ledger, rule, read_rule, parts, Option.map_map, same]
  rfl

theorem read_ledger_of_isOver (isOver : (block.readAll c).2.IsOver) :
    ∃ line text last stop, last.rule = .endOfInput ∧
      ledger.read c = some ([.mk .ledger line text ((block.readAll c).1 ++ [last])], stop) := by
  have ended := read_done_eq_some_iff.2 ⟨isOver, rfl, rfl⟩
  rw [read_ledger, endOfInput, read_rule_eq_some_iff.2 ⟨[], ended, rfl⟩]
  exact ⟨_, _, _, _, rfl, rfl⟩

theorem read_ledger_eq_none (left : ¬ (block.readAll c).2.IsOver) : ledger.read c = none := by
  rw [read_ledger, endOfInput, read_rule_eq_none_iff.2 (read_done_eq_none_iff.2 left)]
  rfl

/-! ### One text after another -/

/-- A text that is read up to a last gap has no last gap if it ends with a line feed. -/
theorem rest_readAll_block (isOpen : c.rest ≠ [] → c.IsOpen) (isOver : (block.readAll c).2.IsOver) :
    (block.readAll c).2.rest = [] := by
  obtain ⟨passed, led⟩ := leads_readAll block c
  refine Decidable.byContradiction fun left => ?_
  have open' : c.IsOpen := isOpen fun empty => left (List.append_eq_nil_iff.1 (led.rest ▸ empty)).2
  exact (isOpen_afterGap (open'.of_leads led left)).rest_ne_nil isOver

/-- The end of a text is the start of what follows it. -/
theorem extend_eq_shift {text passed : List Char} {stop : Cursor} (led : (Cursor.start text).Leads passed stop)
    (ended : stop.rest = []) (more : List Char) :
    stop.extend more = (Cursor.start more).shift text.length (text.count '\n') := by
  obtain rfl : text = passed := by rw [← List.append_nil passed, ← ended]; exact led.rest
  obtain ⟨offset, line, rest⟩ := stop
  obtain rfl : rest = [] := ended
  obtain rfl : offset = 0 + text.length := led.offset
  obtain rfl : line = 1 + text.count '\n' := led.line
  rfl

/-- **The blocks of a ledger with more text after it** are those of the ledger, all on its lines, and then
those of the text, with line numbers that are as much greater. -/
theorem readAll_block_append {numbers : Nat → Nat → Prop} {text : List Char}
    (isOpen : text ≠ [] → (Cursor.start text).IsOpen)
    (isOver : (block.readAll (Cursor.start text)).2.IsOver)
    (greater : ∀ n, 1 ≤ n → numbers n (n + text.count '\n')) (more : List Char) :
    (∀ n ∈ (block.readAll (Cursor.start text)).1, n.Before (1 + text.count '\n')) ∧
      ∃ nodes, List.Forall₂ (Node.Alike numbers) (block.readAll (Cursor.start more)).1 nodes ∧
        block.readAll (Cursor.start (text ++ more))
          = ((block.readAll (Cursor.start text)).1 ++ nodes,
              (block.readAll (Cursor.start more)).2.shift text.length (text.count '\n')) := by
  have ended := rest_readAll_block isOpen isOver
  obtain ⟨passed, led⟩ := leads_readAll block (Cursor.start text)
  obtain ⟨extended, before⟩ := readAll_extend consumes_block sure_block (Cursor.start text) isOpen ended more
  obtain ⟨nodes, later, alike⟩ :=
    @readAll_shift numbers text.length _ greater block (Cursor.start more) (Nat.le_refl 1)
  rw [← extend_eq_shift led ended more] at later
  refine ⟨before, nodes, alike, ?_⟩
  show block.readAll ((Cursor.start text).extend more) = _
  rw [extended, later]

end Daybook.Grammar
