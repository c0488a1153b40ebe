import Daybook.Proofs.Grammar.Keywords
import Daybook.Proofs.Journal.Cut

/-!
# The first word of a statement

After a ledger, a line has to start the next statement. If its first word does not even begin with a keyword,
all is refused, at some line and by the grammar. If the word is a keyword with something glued to it, it is
not the word that decides: the line means what it means with a blank after the keyword (`parse_firstWord`). So
a mistyped word may pass for a keyword and a part of its statement.
-/

namespace Daybook

open Grammar (Node Cursor block keywords isGap)

/-! ### First words -/

namespace Line

/-- The characters of a line up to its first space or tab. -/
def firstWord (l : Line) : List Char := l.text.toList.takeWhile fun c => !isGap c

/-- The line with a blank after so many characters. -/
def spacedAfter (n : Nat) (l : Line) : Line :=
  { l with text := String.ofList (l.text.toList.take n ++ ' ' :: l.text.toList.drop n) }

variable {l : Line} {k : List Char}

theorem firstWord_prefix (l : Line) : l.firstWord <+: l.text.toList := List.takeWhile_prefix _

theorem prefix_firstWord_iff (noGap : ∀ c ∈ k, isGap c = false) : k <+: l.firstWord ↔ k <+: l.text.toList := by
  constructor
  · intro sub
    exact sub.trans l.firstWord_prefix
  · rintro ⟨rest, text⟩
    rw [firstWord, ← text, List.takeWhile_append_of_pos]
    · exact List.prefix_append _ _
    · intro c mem
      rw [noGap c mem]
      rfl

theorem toList_spacedAfter {v : List Char} (text : l.text.toList = k ++ v) :
    (l.spacedAfter k.length).text.toList = k ++ ' ' :: v := by
  rw [spacedAfter, String.toList_ofList, text, List.take_left, List.drop_left]

/-- With a blank after it, a keyword is the first word. -/
theorem firstWord_spacedAfter (noGap : ∀ c ∈ k, isGap c = false) (starts : k <+: l.text.toList) :
    (l.spacedAfter k.length).firstWord = k := by
  obtain ⟨v, text⟩ := starts
  rw [firstWord, toList_spacedAfter text.symm, List.takeWhile_append_of_pos]
  · exact List.append_nil k
  · intro c mem
    rw [noGap c mem]
    rfl

end Line

theorem noGap_of_mem_keywords {k : List Char} (mem : k ∈ keywords) : ∀ c ∈ k, isGap c = false := by
  have all : ∀ k ∈ keywords, k.all (!isGap ·) = true := by decide
  intro c inside
  simpa using List.all_eq_true.1 (all k mem) c inside

theorem noFeed_of_mem_keywords {k : List Char} (mem : k ∈ keywords) : '\n' ∉ k := by
  have all : ∀ k ∈ keywords, '\n' ∉ k := by decide
  exact all k mem

/-- What is in one line starts a text only within its first line. -/
theorem prefix_of_append_feed {k text more : List Char} (noFeed : '\n' ∉ k) (starts : k <+: text ++ '\n' :: more) :
    k <+: text := by
  rcases List.prefix_or_prefix_of_prefix starts (List.prefix_append text _) with sub | ⟨further, same⟩
  · exact sub
  · cases further with
    | nil =>
      obtain rfl : text = k := (List.append_nil text).symm.trans same
      exact ⟨[], same⟩
    | cons x xs =>
      rw [← same, List.prefix_append_right_inj] at starts
      obtain ⟨rest, isFeed⟩ := starts
      cases isFeed
      exact absurd (same ▸ List.mem_append_right text List.mem_cons_self) noFeed

/-! ### Meanings -/

/-- What a statement means, after whatever patterns. -/
def Statement.meaning (lines : Array Line) (n : Node) (patterns : List Pattern) : Except Error Statement :=
  Statement.ofNode lines patterns n

variable {lines lines' : Array Line} {nodes nodes' : List Node} {before b : List Line} {e : Error}

/-- Statements that mean the same one by one make the same journal. -/
theorem ofStatements_eq_of_meanings
    (same : nodes.map (Statement.meaning lines) = nodes'.map (Statement.meaning lines'))
    (patterns : List Pattern) :
    Journal.ofStatements lines patterns nodes = Journal.ofStatements lines' patterns nodes' := by
  induction nodes generalizing nodes' patterns with
  | nil =>
    rw [List.map_nil] at same
    rw [List.map_eq_nil_iff.1 same.symm]
    rfl
  | cons n rest ih =>
    cases nodes' with
    | nil => cases same
    | cons n' rest' =>
      obtain ⟨first, later⟩ := List.cons.inj same
      have first : Statement.ofNode lines patterns n = Statement.ofNode lines' patterns n' :=
        congrFun first patterns
      rw [Journal.ofStatements, Journal.ofStatements, first]
      simp only [ih later]

theorem map_meaning_of_alike (alike : List.Forall₂ (AlikeIn lines lines') nodes nodes') :
    nodes.map (Statement.meaning lines) = nodes'.map (Statement.meaning lines') := by
  apply map_eq_of_alike alike
  intro n n' h
  funext patterns
  exact Statement.ofNode_eq_of_alike patterns h

/-- A statement means what its parts mean, whatever its own characters are. -/
theorem meaning_of_sameParts {n n' : Node} (h : n.SameParts (SamePlace lines lines') n') :
    Statement.meaning lines n = Statement.meaning lines' n' := by
  obtain ⟨rule, line, text, children⟩ := n
  obtain ⟨rule', line', text', children'⟩ := n'
  obtain rfl : rule = rule' := h.rule
  funext patterns
  calc Statement.ofNode lines patterns (.mk rule line text children)
      = Statement.ofNode lines' patterns (.mk rule line' text children') :=
        Statement.ofNode_eq_of_alike patterns (.mk h.line h.children)
    _ = Statement.ofNode lines' patterns (.mk rule line' text' children') := rfl

/-! ### Lines after a ledger -/

theorem refusal_of_statements (h : Journal.statements b = .error e) : e = Journal.refusal b := by
  by_cases isOver : (Journal.blocks b).2.IsOver
  · rw [statements_of_isOver isOver] at h
    cases h
  · rw [statements_of_not_isOver isOver] at h
    cases h
    rfl

theorem parse_of_statements_error (h : Journal.statements b = .error e) :
    Journal.parse b = .error (Journal.refusal b) := by
  rw [Journal.parse, h, refusal_of_statements h]
  rfl

theorem statements_nil : Journal.statements [] = .ok [] :=
  statements_eq_ok_iff.2 ⟨by decide, rfl⟩

/-- What the grammar refuses is refused after a ledger too. -/
theorem parse_append_of_refused (single : ∀ l ∈ before, l.IsSingle) (more : b ≠ [])
    (read : Journal.statements before = .ok nodes) (refused : Journal.statements b = .error e) :
    Journal.parse (before ++ b) = .error (Journal.refusal (before ++ b)) := by
  by_cases some : before = []
  · subst some
    exact parse_of_statements_error refused
  · obtain ⟨e', failed⟩ := (statements_append single some more read).2.2 e refused
    exact parse_of_statements_error failed

/-- The statements of a ledger with more lines after it mean what those of the ledger mean, and those of the
lines. -/
theorem exists_statements_append (single : ∀ l ∈ before, l.IsSingle) (more : b ≠ [])
    (read : Journal.statements before = .ok nodes) (read' : Journal.statements b = .ok nodes') :
    ∃ all, Journal.statements (before ++ b) = .ok all ∧
      all.map (Statement.meaning (before ++ b).toArray)
        = nodes.map (Statement.meaning before.toArray) ++ nodes'.map (Statement.meaning b.toArray) := by
  by_cases some : before = []
  · subst some
    rw [statements_nil] at read
    cases read
    exact ⟨nodes', read', rfl⟩
  · obtain ⟨alike, both, _⟩ := statements_append single some more read
    obtain ⟨later, alike', all⟩ := both nodes' read'
    refine ⟨nodes ++ later, all, ?_⟩
    rw [List.map_append, map_meaning_of_alike alike, map_meaning_of_alike alike']

/-! ### A blank after a keyword -/

/-- Lines of the same locations are at the same places. -/
theorem samePlace_of_locations {b' : List Line} (same : b.map Line.location = b'.map Line.location) (n : Nat) :
    SamePlace b.toArray b'.toArray n n := by
  have length : b.length = b'.length := by simpa using congrArg List.length same
  have place (i : Nat) : b[i]?.map Line.location = b'[i]?.map Line.location := by
    rw [← List.getElem?_map, ← List.getElem?_map, same]
  have lookup (ls : List Line) : locationOf ls.toArray n
      = (ls[min (n - 1) (ls.length - 1)]?.map Line.location).getD ⟨⟨"<empty>", 0⟩, []⟩ := by
    rw [locationOf, List.getElem?_toArray, List.size_toArray]
    cases ls[min (n - 1) (ls.length - 1)]? <;> rfl
  rw [SamePlace, lookup, lookup, length, place]

/-- Lines that start with a keyword are refused without a blank after it if they are with it, and otherwise
their statements mean the same. -/
theorem glued_statements {l l' : Line} {rest : List Line} {k v : List Char} (mem : k ∈ keywords)
    (text : l.text.toList = k ++ v) (text' : l'.text.toList = k ++ ' ' :: v) (place : l.location = l'.location) :
    (∃ e e', Journal.statements (l :: rest) = .error e ∧ Journal.statements (l' :: rest) = .error e') ∨
      ∃ nodes nodes', Journal.statements (l :: rest) = .ok nodes ∧
        Journal.statements (l' :: rest) = .ok nodes' ∧
        nodes.map (Statement.meaning (l :: rest).toArray)
          = nodes'.map (Statement.meaning (l' :: rest).toArray) := by
  have places : (l :: rest).map Line.location = (l' :: rest).map Line.location := by simp [place]
  have same := samePlace_of_locations places
  obtain ⟨more, joined, joined'⟩ : ∃ more, Journal.joined (l :: rest) = k ++ more ∧
      Journal.joined (l' :: rest) = k ++ ' ' :: more := by
    refine ⟨v ++ '\n' :: Journal.joined rest, ?_, ?_⟩
    · rw [joined_cons, text, List.append_assoc]
    · rw [joined_cons, text', List.append_assoc]
      rfl
  have blocks : Journal.blocks (l :: rest) = block.readAll (.start (k ++ more)) := by
    rw [Journal.blocks, joined]
  have blocks' : Journal.blocks (l' :: rest) = block.readAll (.start (k ++ ' ' :: more)) := by
    rw [Journal.blocks, joined']
  rcases Grammar.glued_readAll_block same mem more with
    ⟨refused, refused'⟩ | ⟨n, n', ns, ns', stop, counted, glued, spaced, parts, alike⟩
  · left
    refine ⟨_, _, statements_of_not_isOver ?_, statements_of_not_isOver ?_⟩
    · rw [blocks, Grammar.Expr.readAll_of_none refused]
      exact Grammar.not_isOver_of_keyword mem ⟨_, rfl⟩
    · rw [blocks', Grammar.Expr.readAll_of_none refused']
      exact Grammar.not_isOver_of_keyword mem ⟨_, rfl⟩
  rw [glued] at blocks
  rw [spaced] at blocks'
  have ends : (Journal.blocks (l' :: rest)).2.IsOver ↔ (Journal.blocks (l :: rest)).2.IsOver := by
    rw [blocks, blocks']
    exact Grammar.isOver_shift 1 0 counted
  by_cases isOver : (Journal.blocks (l :: rest)).2.IsOver
  · right
    refine ⟨_, _, statements_of_isOver isOver, statements_of_isOver (ends.2 isOver), ?_⟩
    rw [blocks, blocks', Journal.statementsIn, Journal.statementsIn, List.filter_cons, List.filter_cons,
      parts.rule]
    have later := map_meaning_of_alike (statementsIn_alike alike)
    split
    · rw [List.map_cons, List.map_cons, meaning_of_sameParts parts]
      exact congrArg _ later
    · exact later
  · left
    exact ⟨_, _, statements_of_not_isOver isOver, statements_of_not_isOver fun spaced => isOver (ends.1 spaced)⟩

/-- Lines that start with no keyword, and not with a gap, are refused. -/
theorem statements_of_unknown {l : Line} {rest : List Line} (begins : l.firstWord ≠ [])
    (unknown : ∀ k ∈ keywords, ¬ k <+: l.firstWord) :
    Journal.statements (l :: rest) = .error (Journal.refusal (l :: rest)) := by
  have unknown' : ∀ k ∈ keywords, ¬ k <+: Journal.joined (l :: rest) := by
    intro k mem starts
    apply unknown k mem
    rw [Line.prefix_firstWord_iff (noGap_of_mem_keywords mem)]
    exact prefix_of_append_feed (noFeed_of_mem_keywords mem) (joined_cons l rest ▸ starts)
  obtain ⟨x, tail, text, noGap⟩ : ∃ x tail, l.text.toList = x :: tail ∧ isGap x = false := by
    rw [Line.firstWord] at begins
    cases text : l.text.toList with
    | nil =>
      rw [text] at begins
      exact absurd rfl begins
    | cons x tail =>
      refine ⟨x, tail, rfl, ?_⟩
      by_contra gap
      rw [text, List.takeWhile_cons_of_neg (by simpa using gap)] at begins
      exact begins rfl
  have here : (Cursor.start (Journal.joined (l :: rest))).afterGap = Cursor.start (Journal.joined (l :: rest)) := by
    apply Grammar.afterGap_of_head _ noGap
    show Journal.joined (l :: rest) = _
    rw [joined_cons, text]
    rfl
  have refused : block.read (Cursor.start (Journal.joined (l :: rest))) = none := by
    rw [Grammar.read_block, here]
    exact Grammar.read_statement_eq_none unknown'
  apply statements_of_not_isOver
  rw [Journal.blocks, Grammar.Expr.readAll_of_none refused, Cursor.IsOver, here]
  intro none
  have none : Journal.joined (l :: rest) = [] := none
  exact absurd (joined_eq_nil_iff.1 none) (List.cons_ne_nil _ _)

/-! ### Whole journals -/

/-- **The first word of a statement.** After a ledger, the grammar refuses a line whose first word begins with
no keyword. A line whose first word begins with a keyword is as if there were a blank after the keyword,
which then is the first word: the journal, or what is wrong with it, is the same with the blank, unless the
grammar refuses both. -/
theorem parse_firstWord {line : Line} {rest : List Line} (single : ∀ l ∈ before, l.IsSingle)
    (read : Journal.statements before = .ok nodes) (begins : line.firstWord ≠ []) :
    ((∀ k ∈ keywords, ¬ k <+: line.firstWord) →
      Journal.parse (before ++ line :: rest) = .error (Journal.refusal (before ++ line :: rest))) ∧
    ∀ k ∈ keywords, k <+: line.firstWord → (line.spacedAfter k.length).firstWord = k ∧
      (Journal.parse (before ++ line :: rest) = Journal.parse (before ++ line.spacedAfter k.length :: rest) ∨
        Journal.parse (before ++ line :: rest) = .error (Journal.refusal (before ++ line :: rest)) ∧
          Journal.parse (before ++ line.spacedAfter k.length :: rest)
            = .error (Journal.refusal (before ++ line.spacedAfter k.length :: rest))) := by
  constructor
  · intro unknown
    exact parse_append_of_refused single (List.cons_ne_nil _ _) read (statements_of_unknown begins unknown)
  · intro k mem starts
    have noGap := noGap_of_mem_keywords mem
    obtain ⟨v, text⟩ := (Line.prefix_firstWord_iff noGap).1 starts
    refine ⟨Line.firstWord_spacedAfter noGap ⟨v, text⟩, ?_⟩
    have text' := Line.toList_spacedAfter text.symm
    rcases @glued_statements _ _ rest _ _ mem text.symm text' rfl with
      ⟨e, e', refused, refused'⟩ | ⟨glued, spaced, isLedger, isLedger', same⟩
    · right
      exact ⟨parse_append_of_refused single (List.cons_ne_nil _ _) read refused,
        parse_append_of_refused single (List.cons_ne_nil _ _) read refused'⟩
    · left
      obtain ⟨all, isAll, means⟩ := exists_statements_append single (List.cons_ne_nil _ _) read isLedger
      obtain ⟨all', isAll', means'⟩ := exists_statements_append single (List.cons_ne_nil _ _) read isLedger'
      rw [same, ← means'] at means
      rw [Journal.parse, Journal.parse, isAll, isAll']
      exact ofStatements_eq_of_meanings means []

/-- A setting of a budget, and one in which the blank after the keyword is missing. -/
def budgetLine : Line := ⟨"set budget 100 $", ⟨⟨"book", 1⟩, []⟩⟩

def gluedLine : Line := ⟨"setfoo bar", ⟨⟨"book", 2⟩, []⟩⟩

/-- A line that starts with no keyword. -/
def strangeLine : Line := ⟨"frobnicate 2021-01-01", ⟨⟨"book", 2⟩, []⟩⟩

theorem exists_statements_of_budgetLine : ∃ nodes, Journal.statements [budgetLine] = .ok nodes :=
  ⟨_, statements_of_isOver (by decide +kernel)⟩

/-- The setting without a blank is one of `foo`, and the strange line is refused. -/
theorem parse_firstWord_of_budgetLine :
    (∃ j, Journal.parse [budgetLine, gluedLine] = .ok j ∧
      Journal.parse [budgetLine, gluedLine.spacedAfter 3] = .ok j) ∧
      Journal.parse [budgetLine, strangeLine] = .error (Journal.refusal [budgetLine, strangeLine]) := by
  obtain ⟨nodes, read⟩ := exists_statements_of_budgetLine
  have single : ∀ l ∈ [budgetLine], l.IsSingle := by decide
  constructor
  · obtain ⟨_, same | ⟨refused, _⟩⟩ :=
      (@parse_firstWord _ _ gluedLine [] single read (by decide)).2 "set".toList (by decide) (by decide)
    · have items : (Journal.parse [budgetLine, gluedLine]).toOption.isSome := by decide +kernel
      obtain ⟨j, glued⟩ := Option.isSome_iff_exists.1 items
      have glued := toOption_eq_some_iff.1 glued
      exact ⟨j, glued, same.symm.trans glued⟩
    · have items : (Journal.parse [budgetLine, gluedLine]).toOption.isSome := by decide +kernel
      have refused : Journal.parse [budgetLine, gluedLine] = _ := refused
      rw [refused] at items
      cases items
  · exact (@parse_firstWord _ _ strangeLine [] single read (by decide)).1 (by decide)

/-- A first word that is no keyword may well start a statement. -/
theorem not_refused_of_gluedLine :
    ¬ ∀ (before : List Line) (line : Line) (rest : List Line), (∀ l ∈ before ++ line :: rest, l.IsPlain) →
      (∃ nodes, Journal.statements before = .ok nodes) → line.firstWord ≠ [] → line.firstWord ∉ keywords →
      ∃ location problem, Journal.parse (before ++ line :: rest) = .error (.writing location problem) := by
  intro whole
  have items : (Journal.parse [budgetLine, gluedLine]).toOption.isSome := by decide +kernel
  obtain ⟨location, problem, failed⟩ := whole [budgetLine] gluedLine [] (by decide +kernel)
    exists_statements_of_budgetLine (by decide) (by decide)
  have failed : Journal.parse [budgetLine, gluedLine] = _ := failed
  rw [failed] at items
  cases items

/-- It is a setting of `foo`. -/
example : (Journal.parse [gluedLine]).toOption.map Journal.items
    = some [.setting ⟨"foo", "bar", ⟨⟨"book", 2⟩, []⟩⟩] := by
  decide +kernel

end Daybook
