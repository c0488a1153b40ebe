import Daybook.Proofs.Grammar.Blocks
import Daybook.Proofs.Grammar.Tagged
import Daybook.Proofs.Grammar.Tokens

/-!
# Keywords of statements

Every statement starts with one of eleven words, none of which is the beginning of another. A text that
starts with none of them is no statement (`read_statement_eq_none`). But nothing has to stand between the word
and what follows it: a text that starts with a keyword is read as the same text with a blank after the
keyword, or both are refused (`glued_read_statement`).
-/

namespace Daybook.Grammar

open Daybook.Grammar.Expr

/-- The words that statements start with. -/
def keywords : List (List Char) :=
  ["set", "open", "close", "currency_rates", "balance", "ex", "rx", "tx", "dividend", "group",
    "match"].map String.toList

variable {k v : List Char} {c m : Cursor} {e : Expr} {nodes : List Node} {stop : Cursor}

theorem openers_statement : statement.openers? = some keywords := by decide

/-- What starts with no keyword is no statement. -/
theorem read_statement_eq_none (unknown : ∀ k ∈ keywords, ¬ k <+: c.rest) : statement.read c = none := by
  cases taken : statement.read c with
  | none => rfl
  | some reading =>
    obtain ⟨k, mem, starts⟩ := exists_opener openers_statement taken
    exact absurd starts (unknown k mem)

/-- No text starts with two keywords. -/
theorem eq_of_keywords_prefix {k' text : List Char} (mem : k ∈ keywords) (mem' : k' ∈ keywords)
    (starts : k <+: text) (starts' : k' <+: text) : k = k' := by
  have apart : ∀ k ∈ keywords, ∀ k' ∈ keywords, k <+: k' → k = k' := by decide
  rcases List.prefix_or_prefix_of_prefix starts starts' with sub | sub
  · exact apart k mem k' mem' sub
  · exact (apart k' mem' k mem sub).symm

/-! ### Statements by their keyword -/

theorem read_statement_eq_some_iff {r : Reading} :
    statement.read c = some r ↔ ∃ e ∈ Form.alternatives, e.read c = some r := by
  constructor
  · exact exists_of_read_oneOf
  · rintro ⟨e, mem, taken⟩
    exact read_oneOf (by decide +kernel) mem taken

/-- Every kind of statement is a keyword and more, with gaps between. -/
theorem exists_keyword_of_mem (mem : e ∈ Form.alternatives) :
    ∃ name k part parts, k ∈ keywords ∧ e = rule name (.word k :: part :: parts) := by
  simp only [Form.alternatives, List.mem_cons, List.not_mem_nil, or_false] at mem
  rcases mem with rfl | rfl | rfl | rfl | rfl | rfl | rfl | rfl | rfl | rfl | rfl
  all_goals exact ⟨_, _, _, _, by decide, rfl⟩

/-- A text that starts with a keyword is read by the one kind of statement with that keyword, if at all. -/
theorem exists_of_read_statement (mem : k ∈ keywords) (starts : k <+: c.rest) {r : Reading}
    (taken : statement.read c = some r) :
    ∃ name part parts, rule name (.word k :: part :: parts) ∈ Form.alternatives ∧
      (rule name (.word k :: part :: parts)).read c = some r := by
  obtain ⟨e, isKind, taken⟩ := read_statement_eq_some_iff.1 taken
  obtain ⟨name, k', part, parts, mem', rfl⟩ := exists_keyword_of_mem isKind
  obtain ⟨k'', isOpener, starts'⟩ := exists_opener (e := rule name (.word k' :: part :: parts)) rfl taken
  obtain rfl := List.mem_singleton.1 isOpener
  obtain rfl := eq_of_keywords_prefix mem mem' starts starts'
  exact ⟨name, part, parts, isKind, taken⟩

theorem Cursor.after?_append (offset line : Nat) (text rest : List Char) :
    (Cursor.mk offset line (text ++ rest)).after? text
      = some ⟨offset + text.length, line + text.count '\n', rest⟩ := by
  induction text generalizing offset line with
  | nil => rfl
  | cons x xs ih =>
    rw [List.cons_append, after?]
    simp only [if_pos, next, ih, List.length_cons, List.count_cons]
    congr 2
    · omega
    · split <;> simp_all
      omega

/-- What is read after a keyword. -/
theorem read_keyword_rule {name : Rule} {part : Expr} {parts : List Expr} (after : c.after? k = some m) :
    (rule name (.word k :: part :: parts)).read c
      = ((loose (part :: parts)).read m.afterGap).map fun r =>
          ([.mk name c.line (String.ofList (c.upTo r.2)) r.1], r.2) := by
  have begun : (Expr.word k).read c = some ([], m) := read_word_eq_some_iff.2 ⟨after, rfl⟩
  have body : (loose (.word k :: part :: parts)).read c = (loose (part :: parts)).read m.afterGap := by
    show (Expr.seq (.word k) (.seq gap (loose (part :: parts)))).read c = _
    rw [read_seq, begun, Option.bind_some, read_seq_gap]
    exact congrFun Option.map_id _
  rw [rule, read_rule, body]
  rfl

/-! ### A blank after a keyword -/

/-- Parts with the same rule and of the same parts, on lines related by `numbers`; the characters may
differ. -/
structure Node.SameParts (numbers : Nat → Nat → Prop) (n n' : Node) : Prop where
  rule : n.rule = n'.rule
  line : numbers n.line n'.line
  children : List.Forall₂ (Node.Alike numbers) n.children n'.children

variable {numbers : Nat → Nat → Prop}

/-- After a blank the gap ends where it ends without the blank. -/
theorem afterGap_blank {offset line : Nat} (counted : 1 ≤ line) :
    (Cursor.mk offset line (' ' :: v)).afterGap = (Cursor.mk offset line v).afterGap.shift 1 0 := by
  have blank : (Expr.char isGap).read ⟨offset, line, ' ' :: v⟩
      = some ([], (Cursor.mk offset line v).shift 1 0) :=
    read_char_eq_some_iff.2 ⟨' ', v, rfl, rfl, rfl, rfl⟩
  rw [← afterGap_shift 1 0 counted, Cursor.afterGap, readAll_of_some rfl blank]
  rfl

theorem glued_read_keyword_rule (same : ∀ n, numbers n n) (name : Rule) (k v : List Char) (part : Expr)
    (parts : List Expr) :
    ((rule name (.word k :: part :: parts)).read (.start (k ++ v)) = none ∧
      (rule name (.word k :: part :: parts)).read (.start (k ++ ' ' :: v)) = none) ∨
    ∃ n n' stop, (rule name (.word k :: part :: parts)).read (.start (k ++ v)) = some ([n], stop) ∧
      (rule name (.word k :: part :: parts)).read (.start (k ++ ' ' :: v)) = some ([n'], stop.shift 1 0) ∧
      n.SameParts numbers n' := by
  have counted : 1 ≤ 1 + k.count '\n' := Nat.le_add_right _ _
  have counted' : 1 ≤ (Cursor.mk (0 + k.length) (1 + k.count '\n') v).afterGap.line :=
    counted_of_read counted (read_gap _)
  have after : (Cursor.start (k ++ v)).after? k = _ := Cursor.after?_append 0 1 k v
  have after' : (Cursor.start (k ++ ' ' :: v)).after? k = _ := Cursor.after?_append 0 1 k (' ' :: v)
  rw [read_keyword_rule after, read_keyword_rule after', afterGap_blank counted]
  -- What follows the keyword is read at the same place, with one more character before it.
  have shifts := @shifts_of_counted numbers 1 0 (fun n _ => same n) (loose (part :: parts)) _ counted'
  cases body : (loose (part :: parts)).read (Cursor.mk (0 + k.length) (1 + k.count '\n') v).afterGap with
  | none => exact .inl ⟨rfl, by rw [shifts.refused body]; rfl⟩
  | some reading =>
    obtain ⟨inside', body', alike⟩ := shifts.taken body
    rw [body']
    exact .inr ⟨_, _, reading.2, rfl, rfl, ⟨rfl, same 1, alike⟩⟩

/-- **A blank after the keyword makes no difference**: a statement is refused without it where it is with it,
and otherwise it has the same parts. -/
theorem glued_read_statement (same : ∀ n, numbers n n) (mem : k ∈ keywords) (v : List Char) :
    (statement.read (.start (k ++ v)) = none ∧ statement.read (.start (k ++ ' ' :: v)) = none) ∨
      ∃ n n' stop, statement.read (.start (k ++ v)) = some ([n], stop) ∧
        statement.read (.start (k ++ ' ' :: v)) = some ([n'], stop.shift 1 0) ∧
        n.SameParts numbers n' := by
  cases taken : statement.read (.start (k ++ v)) with
  | some reading =>
    obtain ⟨name, part, parts, isKind, read⟩ := exists_of_read_statement mem ⟨v, rfl⟩ taken
    rcases glued_read_keyword_rule same name k v part parts with
      ⟨refused, _⟩ | ⟨n, n', stop, glued, spaced, parts⟩
    · rw [read] at refused
      cases refused
    · rw [read] at glued
      exact .inr ⟨n, n', stop, glued, read_statement_eq_some_iff.2 ⟨_, isKind, spaced⟩, parts⟩
  | none =>
    refine .inl ⟨rfl, ?_⟩
    cases taken' : statement.read (.start (k ++ ' ' :: v)) with
    | none => rfl
    | some reading =>
      obtain ⟨name, part, parts, isKind, read⟩ := exists_of_read_statement mem ⟨' ' :: v, rfl⟩ taken'
      rcases glued_read_keyword_rule same name k v part parts with ⟨_, refused⟩ | ⟨n, n', stop, glued, _, _⟩
      · rw [read] at refused
        cases refused
      · rw [read_statement_eq_some_iff.2 ⟨_, isKind, glued⟩] at taken
        cases taken

/-! ### Blocks -/

/-- No gap is left out before what is no gap. -/
theorem afterGap_of_head {x : Char} {rest : List Char} (isRest : c.rest = x :: rest) (noGap : isGap x = false) :
    c.afterGap = c := by
  apply afterGap_of_endsAt
  rw [isRest]
  rintro _ ⟨⟩
  exact noGap

theorem afterGap_of_keyword (mem : k ∈ keywords) (starts : k <+: c.rest) : c.afterGap = c := by
  have heads : ∀ k ∈ keywords, k.head?.any (fun x => !isGap x) = true := by decide
  have head := heads k mem
  obtain ⟨rest, isRest⟩ := starts
  cases k with
  | nil => cases head
  | cons x xs => exact afterGap_of_head isRest.symm (by simpa using head)

theorem not_isOver_of_keyword (mem : k ∈ keywords) (starts : k <+: c.rest) : ¬ c.IsOver := by
  have some_word : ∀ k ∈ keywords, k ≠ [] := by decide
  rw [Cursor.IsOver, afterGap_of_keyword mem starts]
  intro none
  rw [none] at starts
  exact some_word k mem (List.prefix_nil.1 starts)

/-- The blocks of a text that starts with a keyword, without and with a blank after it: there are none, or the
first has the same parts, and the others are alike. -/
theorem glued_readAll_block (same : ∀ n, numbers n n) (mem : k ∈ keywords) (v : List Char) :
    (block.read (.start (k ++ v)) = none ∧ block.read (.start (k ++ ' ' :: v)) = none) ∨
      ∃ n n' ns ns' stop, 1 ≤ stop.line ∧ block.readAll (.start (k ++ v)) = (n :: ns, stop) ∧
        block.readAll (.start (k ++ ' ' :: v)) = (n' :: ns', stop.shift 1 0) ∧
        n.SameParts numbers n' ∧ List.Forall₂ (Node.Alike numbers) ns ns' := by
  have first : block.read (.start (k ++ v)) = statement.read (.start (k ++ v)) := by
    rw [read_block, afterGap_of_keyword mem ⟨v, rfl⟩]
  have first' : block.read (.start (k ++ ' ' :: v)) = statement.read (.start (k ++ ' ' :: v)) := by
    rw [read_block, afterGap_of_keyword mem ⟨' ' :: v, rfl⟩]
  rw [first, first']
  rcases glued_read_statement same mem v with refused | ⟨n, n', m, glued, spaced, parts⟩
  · exact .inl refused
  · right
    have counted : 1 ≤ m.line := counted_of_read (Nat.le_refl 1) glued
    obtain ⟨ns', later, alike⟩ := @readAll_shift numbers 1 0 (fun n _ => same n) block m counted
    obtain ⟨passed, led⟩ := leads_readAll block m
    refine ⟨n, n', (block.readAll m).1, ns', (block.readAll m).2, ?_, ?_, ?_, parts, alike⟩
    · rw [led.line]
      exact Nat.le_add_right_of_le counted
    · rw [readAll_of_some consumes_block (first.trans glued)]
      rfl
    · rw [readAll_of_some consumes_block (first'.trans spaced), later]
      rfl

end Daybook.Grammar
