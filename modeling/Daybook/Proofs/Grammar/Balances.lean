import Daybook.Proofs.Grammar.EntryLines
import Daybook.Proofs.Grammar.Keywords

/-!
# Balances, cut between two lines

A balance is its first line, and then entries up to the end (`read_balanceStatement`). Wherever the lines of one
are cut, the first of them are the first line and some entries, and what follows is read as more entries, whatever
it is (`exists_isBegun`).
-/

namespace Daybook.Grammar

open Daybook.Grammar.Expr

variable {c m stop : Cursor} {text rest : List Char} {n time : Node} {nodes upper : List Node} {e : Expr}
  {r : Reading}

/-! ### Balances among statements -/

theorem balanceStatement_mem_alternatives : balanceStatement ∈ Form.alternatives := by simp [Form.alternatives]

/-- Other statements start with other words, and have other rules. -/
theorem eq_balanceStatement_or (mem : e ∈ Form.alternatives) :
    e = balanceStatement ∨ apart e (word "balance") = true ∧ .balanceStatement ∉ e.topRules := by
  simp only [Form.alternatives, List.mem_cons, List.not_mem_nil, or_false] at mem
  rcases mem with rfl | rfl | rfl | rfl | rfl | rfl | rfl | rfl | rfl | rfl | rfl
  all_goals first | exact .inl rfl | exact .inr (by decide)

theorem read_statement_of_balance (starts : (word "balance").read c = some r) :
    statement.read c = balanceStatement.read c := by
  cases taken : statement.read c with
  | none =>
    cases taken' : balanceStatement.read c with
    | none => rfl
    | some r =>
      rw [read_statement_eq_some_iff.2 ⟨_, balanceStatement_mem_alternatives, taken'⟩] at taken
      cases taken
  | some r' =>
    obtain ⟨e, mem, taken⟩ := read_statement_eq_some_iff.1 taken
    rcases eq_balanceStatement_or mem with rfl | ⟨isApart, _⟩
    · exact taken.symm
    · have refused := read_eq_none_of_apart isApart starts []
      rw [Cursor.extend, List.append_nil, taken] at refused
      cases refused

theorem read_balance_of_rule (taken : statement.read c = some ([n], stop)) (isBalance : n.rule = .balanceStatement) :
    balanceStatement.read c = some ([n], stop) := by
  obtain ⟨e, mem, taken⟩ := read_statement_eq_some_iff.1 taken
  rcases eq_balanceStatement_or mem with rfl | ⟨_, other⟩
  · exact taken
  · exact absurd (isBalance ▸ rule_mem_topRules taken n List.mem_cons_self) other

/-! ### The parts of a balance -/

/-- The first line of a balance. -/
def balanceHead : Expr := loose [word "balance", timestamp, newline]

/-- What follows the first line, or one of the entries: entries up to the end of the balance. -/
def balanceRest : Expr := .seq (.star entryItem) (.seq gap blockEnd)

theorem read_balanceRest (c : Cursor) :
    balanceRest.read c = (blockEnd.read (entryItem.readAll c).2.afterGap).map fun r =>
      ((entryItem.readAll c).1 ++ r.1, r.2) := by
  rw [balanceRest, read_seq, read_star, Option.bind_some, read_seq_gap]

theorem read_balanceRest_of_entry (taken : entryItem.read c = some (nodes, m)) :
    balanceRest.read c = (balanceRest.read m).map fun r => (nodes ++ r.1, r.2) := by
  rw [read_balanceRest, read_balanceRest, readAll_of_some consumes_entryItem taken, Option.map_map]
  simp only [List.append_assoc]
  rfl

/-- Where there is no entry, the balance has to end. -/
theorem read_balanceRest_of_none (refused : entryItem.read c = none) :
    balanceRest.read c = blockEnd.read c.afterGap := by
  rw [read_balanceRest, readAll_of_none refused]
  exact Option.map_id'

/-- **A balance is read line by line**: its first line, and then entries up to the end. -/
theorem read_balanceStatement (c : Cursor) :
    balanceStatement.read c = (balanceHead.read c).bind fun r => (balanceRest.read r.2).map fun r' =>
      ([.mk .balanceStatement c.line (String.ofList (c.upTo r'.2)) (r.1 ++ r'.1)], r'.2) := by
  have lines (k : Cursor) : ∃ m, (linesOf balanceEntry).read k.afterGap = some ((entryItem.readAll k).1, m) ∧
      m.afterGap = (entryItem.readAll k).2.afterGap := read_many consumes_entryItem k
  simp only [balanceStatement, Grammar.rule, read_rule, loose, read_seq, read_gap, Option.bind_some, balanceHead]
  cases (word "balance").read c with
  | none => rfl
  | some keyword =>
    simp only [Option.bind_some]
    cases timestamp.read keyword.2.afterGap with
    | none => rfl
    | some time =>
      simp only [Option.bind_some]
      cases newline.read time.2.afterGap with
      | none => rfl
      | some feed =>
        obtain ⟨m, read, same⟩ := lines feed.2
        simp only [Option.bind_some, Option.map_some, read, same, read_balanceRest]
        cases blockEnd.read (entryItem.readAll feed.2).2.afterGap with
        | none => rfl
        | some last => simp

/-! ### The first lines of a balance -/

/-- A text that a balance begins with: the first line, with the time, and some of the entries. -/
structure IsBegun (text : List Char) (time : Node) (upper : List Node) : Prop where
  goesOn : ∀ more, block.read (.start (text ++ more)) =
    (balanceRest.read ((Cursor.start more).shift text.length (text.count '\n'))).map fun r =>
      ([.mk .balanceStatement 1 (String.ofList ((Cursor.start (text ++ more)).afterGap.upTo r.2))
        (time :: (upper ++ r.1))], r.2)
  before : ∀ n ∈ upper, n.Before (1 + text.count '\n')

/-- If entries are read up to the end of the balance, over the end of the first of two texts, that is where an
entry ends. -/
theorem exists_upper (isOpen : c.rest ≠ [] → c.IsOpen) (more : rest ≠ [])
    (taken : balanceRest.read (c.extend rest) = some (nodes, stop)) (atEnd : stop.rest = []) :
    ∃ upper m, c.Leads c.rest m ∧ (∀ n ∈ upper, n.Before c.lastLine) ∧ ∀ rest, balanceRest.read (c.extend rest) =
      (balanceRest.read (m.extend rest)).map fun r => (upper ++ r.1, r.2) := by
  induction c using readAll_induction consumes_entryItem generalizing nodes with
  | none c refused =>
    have ended : c.rest = [] := by
      refine Classical.byContradiction fun left => ?_
      have refused' := (has_traits entryItem).firm firm_entryItem (isOpen left) refused rest
      rw [read_balanceRest_of_none refused', ← read_seq_gap] at taken
      have same : (Expr.seq gap blockEnd).SameBefore rest c :=
        sameBefore_of_traits (by decide +kernel) (by decide +kernel) (isOpen left)
      exact same.rest_ne_nil more taken atEnd
    refine ⟨[], c, ?_, List.forall_mem_nil _, fun rest => Option.map_id'.symm⟩
    rw [ended]
    exact .refl c
  | some c ns m taken' ih =>
    have keeps := (has_traits entryItem).sure sure_entryItem (isOpen (rest_ne_nil_of_consumes consumes_entryItem taken'))
      taken'
    obtain ⟨passed, led⟩ := leads_of_read taken'
    have isOpen' (left : m.rest ≠ []) : m.IsOpen :=
      (isOpen (rest_ne_nil_of_consumes consumes_entryItem taken')).of_leads led left
    rw [read_balanceRest_of_entry (keeps.extended rest)] at taken
    obtain ⟨r, later, same⟩ := Option.map_eq_some_iff.1 taken
    cases same
    obtain ⟨upper, k, led', before, goesOn⟩ := ih isOpen' later
    refine ⟨ns ++ upper, k, ?_, ?_, fun rest => ?_⟩
    · rw [led.rest]
      exact led.trans led'
    · rw [led.lastLine] at before
      exact List.forall_mem_append.2 ⟨keeps.before, before⟩
    · rw [read_balanceRest_of_entry (keeps.extended rest), goesOn rest, Option.map_map]
      simp only [List.append_assoc]
      rfl

theorem line_afterGap (c : Cursor) : c.afterGap.line = c.line := by
  obtain ⟨blanks, led, all, _⟩ := exists_leads_afterGap c
  rw [led.line, List.count_eq_zero.2 (feed_notMem_of_gap all)]
  rfl

/-- **Where a balance is cut between two lines**, the lines before are one that goes on. -/
theorem exists_isBegun (isOpen : (Cursor.start text).IsOpen) (more : rest ≠ [])
    (taken : statement.read (Cursor.start (text ++ rest)).afterGap = some ([n], stop)) (atEnd : stop.rest = [])
    (isBalance : n.rule = .balanceStatement) : ∃ time upper, IsBegun text time upper := by
  have isOpen' := isOpen_afterGap isOpen
  have here (more : List Char) : (Cursor.start (text ++ more)).afterGap = (Cursor.start text).afterGap.extend more :=
    afterGap_extend_of_sameBefore (sameBefore_of_traits (by decide) (by decide) isOpen)
  have whole := read_balance_of_rule taken isBalance
  rw [here, read_balanceStatement] at whole
  obtain ⟨⟨_, _⟩, onHead, onRest⟩ := Option.bind_eq_some_iff.1 whole
  obtain ⟨r, later, same⟩ := Option.map_eq_some_iff.1 onRest
  cases same
  -- The first line of the balance does not go over the end of the text.
  have sameHead (more : List Char) : balanceHead.SameBefore more (Cursor.start text).afterGap :=
    sameBefore_of_traits (by decide +kernel) (by decide +kernel) isOpen'
  rw [sameHead rest] at onHead
  obtain ⟨⟨head, d⟩, begun, same⟩ := Option.map_eq_some_iff.1 onHead
  cases same
  have wide : balanceHead.width? = some 1 := by decide
  obtain ⟨time, rfl⟩ := List.length_eq_one_iff.1 (length_of_width? wide begun)
  obtain ⟨_, ledHead⟩ := leads_of_read begun
  obtain ⟨_, ledGap, _⟩ := exists_leads_afterGap (.start text)
  obtain ⟨upper, k, led, before, goesOn⟩ :=
    exists_upper (fun left => isOpen'.of_leads ledHead left) more later atEnd
  have ended : k.rest = [] := List.self_eq_append_right.1 led.rest
  refine ⟨time, upper, fun more => ?_, ?_⟩
  · have begun := (sameHead more).trans (congrArg _ begun)
    obtain ⟨_, _, _, keyword, _⟩ := read_seq_eq_some_iff.1 begun
    rw [read_block, here, read_statement_of_balance keyword, read_balanceStatement, begun]
    show (balanceRest.read (d.extend more)).map _ = _
    rw [goesOn, extend_eq_shift ((ledGap.trans ledHead).trans led) ended, Option.map_map]
    have line : ((Cursor.start text).afterGap.extend more).line = 1 := line_afterGap (.start text)
    rw [line]
    rfl
  · rw [ledHead.lastLine, ledGap.lastLine] at before
    exact before

end Daybook.Grammar
