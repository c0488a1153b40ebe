import Daybook.Proofs.Grammar.Barrier
import Mathlib.Data.List.Pairwise

/-!
# Statements that may have tags

A statement that may have tags is read as its front, a part that starts with a line `with` if there is one,
and a line `end`. A line `with` or `end` stops the front, and a line `end` stops tags. So the front is read
alike whether tags follow or not (`Form.read_extend`), the tags are read alike whatever statement they
belong to (`read_withBlock`), and tag lines after tag lines are tag lines (`IsTags.append`).
-/

namespace Daybook.Grammar

open Daybook.Grammar.Expr
open Cursor (Leads)

variable {c m p q stop : Cursor} {nodes : List Node} {e : Expr} {text more tail head tags : List Char}

/-! ### Keyword lines -/

theorem afterGap_extend_of_sameBefore (same : gap.SameBefore more c) :
    (c.extend more).afterGap = c.afterGap.extend more := by
  rw [SameBefore, read_gap, read_gap] at same
  exact congrArg Prod.snd (Option.some.inj same)

/-- Parts that differ in their line numbers at most. -/
abbrev Node.Same : Node → Node → Prop := Node.Alike fun _ _ => True

/-- A line of tags with the gap before it. -/
def tagItem : Expr := .seq gap (loose [tagLine, newline])

theorem consumes_tagItem : tagItem.consumes = true := rfl

theorem sure_tagItem : tagItem.traits.sure = true := by decide +kernel

/-- The tags at the start of a text. -/
def tagNodes (text : List Char) : List Node := (tagItem.readAll (.start text)).1

/-- A text of lines, all of which are tags. -/
structure IsTags (text : List Char) : Prop where
  isOpen : text ≠ [] → (Cursor.start text).IsOpen
  atEnd : (tagItem.readAll (.start text)).2.rest = []

/-- **Tag lines after tag lines** are read as the tags of both. -/
theorem readAll_tagItem_append (isTags : IsTags text) (more : List Char) :
    List.Forall₂ Node.Same (tagNodes text ++ tagNodes more) (tagNodes (text ++ more)) ∧
      ((tagItem.readAll (.start more)).2.rest = [] → (tagItem.readAll (.start (text ++ more))).2.rest = []) := by
  obtain ⟨extended, before⟩ :=
    readAll_extend consumes_tagItem sure_tagItem (Cursor.start text) isTags.isOpen isTags.atEnd more
  obtain ⟨passed, led⟩ := leads_readAll tagItem (Cursor.start text)
  obtain ⟨nodes, later, alike⟩ := @readAll_shift (fun _ _ => True) text.length (text.count '\n')
    (fun _ _ => trivial) tagItem (Cursor.start more) (Nat.le_refl 1)
  rw [extend_eq_shift led isTags.atEnd, later] at extended
  have same : tagItem.readAll (.start (text ++ more)) = _ := extended
  rw [tagNodes, tagNodes, tagNodes, same]
  refine ⟨List.rel_append (List.forall₂_same.2 fun n mem => ?_) alike, fun atEnd => atEnd⟩
  exact (before n mem).alike fun _ _ => trivial

theorem IsTags.append (isTags : IsTags text) (isTags' : IsTags more) : IsTags (text ++ more) where
  isOpen left := by
    by_cases none : more = []
    · subst none
      rw [List.append_nil] at left ⊢
      exact isTags.isOpen left
    · have ends : more.getLast? = some '\n' := isTags'.isOpen none
      show (text ++ more).getLast? = some '\n'
      rw [List.getLast?_append, ends, Option.some_or]
  atEnd := (readAll_tagItem_append isTags more).2 isTags'.atEnd

/-! ### The end of a statement -/

/-- A kind of statement that may have tags: what its node is named, and the parts before its end. -/
structure Form where
  rule : Rule
  parts : List Expr

namespace Form

def expr (f : Form) : Expr := Grammar.rule f.rule (f.parts ++ taggedEnd)

/-- The parts before the end, with the gaps after them. -/
def front (f : Form) : Expr := led f.parts

/-- A block of legs under a keyword. -/
def ofLegs (name : Rule) (keyword : String) : Form := ⟨name, [word keyword, timestamp, newline, legs]⟩

def dividend : Form :=
  ⟨.dividendStatement, [word "dividend", timestamp, newline, Grammar.rule .dividendSource [owned, company],
    newline, ownedLeg, newline]⟩

/-- Tags for later transactions. -/
def pattern : Form :=
  ⟨.matchStatement, [word "match", txKeyword, newline, linesOf (labelLine .matchAccount)]⟩

/-- The transactions and the patterns. -/
def all : List Form :=
  [ofLegs .expenseStatement "ex", ofLegs .revenueStatement "rx", ofLegs .transferStatement "tx", dividend,
    pattern]

variable {f : Form} {n : Node} {fn : List Node}

/-- A text is read to its end as the front of a statement, with these nodes. -/
def Heads (f : Form) (head : List Char) (fn : List Node) : Prop :=
  ∃ m, f.front.read (Cursor.start head).afterGap = some (fn, m) ∧ m.rest = []

/-- The front is on the lines of the head, and at most starts on the one after it. -/
theorem Heads.before (heads : f.Heads head fn) :
    (Cursor.start head).afterGap.line < 2 + head.count '\n' ∧ ∀ n ∈ fn, n.Before (2 + head.count '\n') := by
  obtain ⟨m, begun, ended⟩ := heads
  obtain ⟨blanks, led⟩ := leads_of_read (read_gap (Cursor.start head))
  have lines : (Cursor.start head).afterGap.lastLine = 1 + head.count '\n' := led.lastLine
  refine ⟨?_, fun n mem => ?_⟩
  · have : (Cursor.start head).afterGap.line ≤ (Cursor.start head).afterGap.lastLine := Nat.le_add_right _ _
    omega
  · have before := before_of_read begun n mem
    rwa [lines, Nat.add_right_comm] at before

/-! ### Alternatives -/

/-- The statements of the language. -/
def alternatives : List Expr :=
  [setStatement, openStatement, closeStatement, ratesStatement, balanceStatement,
    (ofLegs .expenseStatement "ex").expr, (ofLegs .revenueStatement "rx").expr,
    (ofLegs .transferStatement "tx").expr, dividend.expr, groupStatement, pattern.expr]

theorem mem_alternatives (mem : f ∈ all) : f.expr ∈ alternatives := by
  simp only [all, List.mem_cons, List.not_mem_nil, or_false] at mem
  rcases mem with rfl | rfl | rfl | rfl | rfl <;> simp [alternatives]

/-- The rule of a node tells which statement has been read. -/
theorem read_of_read_statement (mem : f ∈ all) (taken : statement.read c = some ([n], stop))
    (isRule : n.rule = f.rule) : f.expr.read c = some ([n], stop) := by
  have different : alternatives.Pairwise fun e e' => ∀ r ∈ e.topRules, r ∉ e'.topRules := by
    decide +kernel
  have : Std.Symm fun e e' : Expr => ∀ r ∈ e.topRules, r ∉ e'.topRules :=
    ⟨fun _ _ h r mem mem' => h r mem' mem⟩
  obtain ⟨e, mem', taken⟩ := exists_of_read_oneOf taken
  have isTop := rule_mem_topRules taken n List.mem_cons_self
  have isTop' : n.rule ∈ f.expr.topRules := isRule ▸ List.mem_cons_self
  have same : e = f.expr := by
    refine Classical.byContradiction fun other => ?_
    exact different.forall mem' (mem_alternatives mem) other n.rule isTop isTop'
  rwa [← same]

end Form

end Daybook.Grammar
