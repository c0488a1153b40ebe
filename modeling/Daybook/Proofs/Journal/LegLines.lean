import Daybook.Proofs.Journal.Cut
import Daybook.Proofs.Journal.Emitted
import Daybook.Proofs.Journal.Origins
import Daybook.Proofs.Statement.Legs

/-!
# The lines of a block of legs

The legs of a statement start after a line break, and each line of their block that has no carriage return is
one of them (`exists_leg_of_line`). What the leg is follows from the text of its line alone. If it is refused,
so is the statement, with the problem on that line, and the journal unless something before it is wrong
(`Journal.ReadsLegs`).
-/

namespace Daybook

open Grammar Grammar.Expr
open Cursor (Leads)

variable {lines : List Line} {nodes : List Node} {n block time : Node} {e : Expr} {c m k stop : Cursor}
  {l : Line} {patterns : List Pattern}

/-! ### Where legs are read -/

theorem exists_of_mem_readAll (consumes : e.consumes = true) (c : Cursor) (mem : n ∈ (e.readAll c).1) :
    ∃ passed m nodes stop, c.Leads passed m ∧ e.read m = some (nodes, stop) ∧ n ∈ nodes := by
  induction c using readAll_induction consumes with
  | none c refused =>
    rw [readAll_of_none refused] at mem
    cases mem
  | some c nodes m taken ih =>
    rw [readAll_of_some consumes taken] at mem
    rcases List.mem_append.1 mem with mem | mem
    · exact ⟨[], c, nodes, m, .refl c, taken, mem⟩
    · obtain ⟨first, led⟩ := leads_of_read taken
      obtain ⟨later, m', nodes', stop, led', taken', mem'⟩ := ih mem
      exact ⟨_, m', nodes', stop, led.trans led', taken', mem'⟩

theorem exists_read_of_mem_statements (read : Journal.statements lines = .ok nodes) (mem : n ∈ nodes) :
    ∃ passed m stop, (Cursor.start (Journal.joined lines)).Leads passed m ∧
      statement.read m = some ([n], stop) := by
  obtain ⟨_, rfl⟩ := statements_eq_ok_iff.1 read
  obtain ⟨first, m, nodes, stop, led, taken, mem⟩ := exists_of_mem_readAll consumes_block _ (List.mem_filter.1 mem).1
  rw [read_block] at taken
  obtain ⟨blanks, led', _⟩ := exists_leads_afterGap m
  obtain ⟨n', rfl, _⟩ := exists_node_of_statement taken
  obtain rfl := List.mem_singleton.1 mem
  exact ⟨_, _, stop, led.trans led', taken⟩

/-- A block of legs that is read at a place after a line break. -/
structure IsLegsAt (block : Node) (k : Cursor) : Prop where
  rule : block.rule = .legs
  line : block.line = k.line
  children : block.children = (legItem.readAll k).1
  ends : block.line + block.text.toList.count '\n' = (legItem.readAll k).2.line

theorem isLegsAt_of_read (taken : legs.read k.afterGap = some ([block], stop)) : IsLegsAt block k := by
  obtain ⟨inside, parts, same⟩ := read_rule_eq_some_iff.1 taken
  cases same
  obtain ⟨m, many, ended⟩ := read_many consumes_legItem k
  obtain rfl : inside = (legItem.readAll k).1 := by
    cases many.symm.trans parts
    rfl
  obtain rfl : m = stop := by
    cases many.symm.trans parts
    rfl
  have sameLine (c : Cursor) : c.afterGap.line = c.line := by
    obtain ⟨blanks, led, all, _⟩ := exists_leads_afterGap c
    rw [led.line, List.count_eq_zero.2 (feed_notMem_of_gap all), Nat.add_zero]
  obtain ⟨passed, led⟩ := leads_of_read parts
  refine ⟨rfl, sameLine k, rfl, ?_⟩
  have ends := congrArg Cursor.line ended
  rw [sameLine, sameLine] at ends
  show k.afterGap.line + (String.ofList (k.afterGap.upTo m)).toList.count '\n' = _
  rw [String.toList_ofList, led.upTo, ← led.line]
  exact ends

theorem exists_form_of_hasLegs {r : Rule} (hasLegs : r.hasLegs = true) :
    ∃ keyword, Form.ofLegs r keyword ∈ Form.all := by
  simp only [Rule.hasLegs, decide_eq_true_eq, List.mem_cons, List.not_mem_nil, or_false] at hasLegs
  rcases hasLegs with rfl | rfl | rfl
  · exact ⟨"ex", by simp [Form.all]⟩
  · exact ⟨"rx", by simp [Form.all]⟩
  · exact ⟨"tx", by simp [Form.all]⟩

theorem exists_last_of_read_newline (taken : newline.read c = some (nodes, stop)) :
    nodes = [] ∧ ∃ passed feed, c.Leads (passed ++ [feed]) stop ∧ isInLine feed = false := by
  obtain ⟨rfl, _, led, rfl | rfl | rfl⟩ := exists_of_read_newline taken
  · exact ⟨rfl, [], _, led, rfl⟩
  · exact ⟨rfl, ['\r'], _, led, rfl⟩
  · exact ⟨rfl, [], _, led, rfl⟩

/-- The legs of a statement are read after a line break. -/
theorem exists_legs_of_read (hasLegs : n.rule.hasLegs = true) (taken : statement.read c = some ([n], stop)) :
    ∃ time block rest passed feed k, n.children = time :: block :: rest ∧
      c.Leads (passed ++ [feed]) k ∧ isInLine feed = false ∧ IsLegsAt block k := by
  obtain ⟨keyword, mem⟩ := exists_form_of_hasLegs hasLegs
  have taken := Form.read_of_read_statement mem taken rfl
  obtain ⟨inside, parts, same⟩ := read_rule_eq_some_iff.1 taken
  obtain ⟨_, c₁, _, isKeyword, afterKeyword, rfl⟩ := read_seq_eq_some_iff.1 parts
  obtain ⟨_, c₂, _, isTime, afterTime, rfl⟩ := read_seq_eq_some_iff.1 ((read_seq_gap _ c₁).symm.trans afterKeyword)
  obtain ⟨_, c₃, _, feed, afterFeed, rfl⟩ := read_seq_eq_some_iff.1 ((read_seq_gap _ c₂).symm.trans afterTime)
  obtain ⟨_, c₄, rest, isLegs, _, rfl⟩ := read_seq_eq_some_iff.1 ((read_seq_gap _ c₃).symm.trans afterFeed)
  obtain ⟨_, rfl⟩ := read_word_eq_some_iff.1 isKeyword
  obtain ⟨time, rfl⟩ : ∃ time, _ = [time] := ⟨_, (read_rule_eq_some_iff.1 isTime).choose_spec.2⟩
  obtain ⟨rfl, passed, x, led, isBreak⟩ := exists_last_of_read_newline feed
  obtain ⟨block, rfl⟩ : ∃ block, _ = [block] := ⟨_, (read_rule_eq_some_iff.1 isLegs).choose_spec.2⟩
  obtain ⟨first, toKeyword⟩ := leads_of_read isKeyword
  obtain ⟨blanks, toTime, _⟩ := exists_leads_afterGap c₁
  obtain ⟨second, overTime⟩ := leads_of_read isTime
  obtain ⟨blanks', toFeed, _⟩ := exists_leads_afterGap c₂
  have led' := toKeyword.trans (toTime.trans (overTime.trans (toFeed.trans led)))
  simp only [← List.append_assoc] at led'
  have children := congrArg Node.children (List.singleton_inj.1 same)
  exact ⟨time, block, rest, _, x, c₃, children, led', isBreak, isLegsAt_of_read isLegs⟩

/-! ### Lines of legs -/

/-- Before a line, lines end with a line feed. -/
theorem upToLine_joined (ls : List Line) : UpToLine (Journal.joined ls) := by
  intro x last
  by_cases none : Journal.joined ls = []
  · rw [none] at last
    cases last
  · have isFeed : (Journal.joined ls).getLast? = some '\n' := isOpen_joined none
    rw [isFeed] at last
    exact (Option.some.inj last).symm

/-- A line break in a line and its line feed is the line feed. -/
theorem feed_mem_of_break {text more passed rest : List Char} {x : Char} (inLine : ∀ y ∈ text, isInLine y = true)
    (isBreak : isInLine x = false) (same : text ++ '\n' :: more = passed ++ x :: rest) :
    '\n' ∈ passed ++ [x] := by
  rcases List.append_eq_append_iff.1 same with ⟨left, isPassed, isRest⟩ | ⟨left, isText, isRest⟩
  · cases left with
    | nil =>
      cases isRest
      exact List.mem_append_right _ List.mem_cons_self
    | cons y left =>
      cases isRest
      rw [isPassed]
      exact List.mem_append_left _ (List.mem_append_right _ List.mem_cons_self)
  · cases left with
    | nil =>
      cases isRest
      exact List.mem_append_right _ List.mem_cons_self
    | cons y left =>
      cases isRest
      rw [inLine x (isText ▸ List.mem_append_right _ List.mem_cons_self)] at isBreak
      cases isBreak

/-- What stands after a line break does not stand inside of a line, if no line feed of that line is before it. -/
theorem exists_append_of_break {before text passed rest more : List Char} {x : Char}
    (inLine : ∀ y ∈ text, isInLine y = true) (isBreak : isInLine x = false)
    (same : before ++ (text ++ '\n' :: more) = (passed ++ [x]) ++ rest)
    (early : (passed ++ [x]).count '\n' ≤ before.count '\n') :
    ∃ left, before = (passed ++ [x]) ++ left ∧ rest = left ++ (text ++ '\n' :: more) := by
  rcases List.append_eq_append_iff.1 same with ⟨left, isPassed, isLine⟩ | ⟨left, isBefore, isRest⟩
  · rcases List.eq_nil_or_concat left with rfl | ⟨left, y, rfl⟩
    · exact ⟨[], by rw [isPassed, List.append_nil, List.append_nil], isLine.symm⟩
    · rw [List.concat_eq_append, ← List.append_assoc] at isPassed
      obtain ⟨rfl, last⟩ := List.append_inj' isPassed rfl
      obtain rfl := List.singleton_inj.1 last
      rw [List.concat_eq_append, List.append_assoc] at isLine
      have feed := List.count_pos_iff.2 (feed_mem_of_break inLine isBreak isLine)
      rw [List.append_assoc, List.count_append] at early
      omega
  · exact ⟨left, isBefore, isRest⟩

/-- **Each line of a block of legs is one of them**, unless it has a carriage return in it. -/
theorem exists_leg_of_line (single : ∀ l ∈ lines, l.IsSingle) {passed : List Char} {x : Char}
    (led : (Cursor.start (Journal.joined lines)).Leads (passed ++ [x]) k) (isBreak : isInLine x = false)
    {index : Nat} (isLine : lines[index]? = some l) (plain : l.IsPlain) (first : k.line ≤ index + 1)
    (last : index + 1 < (legItem.readAll k).2.line) :
    ∃ leg, (legItem.readAll k).1.filter (fun n => decide (n.line = index + 1)) = [leg] ∧
      IsLegOf l.text.toList leg := by
  obtain ⟨inside, rfl⟩ := List.getElem?_eq_some_iff.1 isLine
  have cut : lines = lines.take index ++ lines[index] :: lines.drop (index + 1) := by simp
  have feeds : (Journal.joined (lines.take index)).count '\n' = index := by
    rw [count_joined fun l mem => single l (List.mem_of_mem_take mem), List.length_take]
    omega
  have text : Journal.joined lines = Journal.joined (lines.take index) ++
      (lines[index].text.toList ++ '\n' :: Journal.joined (lines.drop (index + 1))) := by
    rw [← joined_cons, ← joined_append, ← cut]
  have started : k.line = 1 + (passed ++ [x]).count '\n' := led.line
  obtain ⟨left, before, isRest⟩ :=
    exists_append_of_break plain.inLine isBreak (text.symm.trans led.rest) (by omega)
  have upTo : UpToLine left := UpToLine.of_append (before ▸ upToLine_joined _)
  have number : index + 1 = k.line + left.count '\n' := by
    rw [before, List.count_append] at feeds
    omega
  rw [number]
  refine exists_leg_of_readAll ⟨plain.inLine, plain.starts, plain.ends⟩ isRest upTo ?_
  -- The block goes on after the line, so it ends in less text than starts with the line.
  obtain ⟨legs, toEnd⟩ := leads_readAll legItem k
  have ended := toEnd.line
  rcases List.append_eq_append_iff.1 (isRest.symm.trans toEnd.rest) with ⟨more, rfl, same⟩ | ⟨more, rfl, _⟩
  · rw [List.count_append] at ended
    have some : 0 < more.count '\n' := by omega
    have := List.length_pos_of_mem (List.count_pos_iff.1 some)
    rw [same, List.length_append]
    omega
  · rw [List.count_append] at number
    omega

/-! ### The legs of a statement -/

/-- The part goes over the line with a number, up to its line feed. -/
def Grammar.Node.Covers (n : Node) (number : Nat) : Prop :=
  n.line ≤ number ∧ number < n.line + n.text.toList.count '\n'

theorem mapM_eq_error {α β ε : Type} {f : α → Except ε β} {before after : List α} {x : α} {e : ε}
    (each : ∀ y ∈ before, ∃ z, f y = .ok z) (failed : f x = .error e) :
    (before ++ x :: after).mapM f = .error e := by
  induction before with
  | nil =>
    rw [List.nil_append, List.mapM_cons, failed]
    rfl
  | cons y before ih =>
    obtain ⟨⟨z, ok⟩, each⟩ := List.forall_mem_cons.1 each
    rw [List.cons_append, List.mapM_cons, ok, ih each]
    rfl

/-- A leg that is refused refuses its statement, if nothing before it does. -/
theorem ofNode_of_refused {all : Array Line} {before after rest : List Node} {leg : Node} {location : Location}
    {why : Problem} {t : Timestamp} (hasLegs : n.rule.hasLegs = true) (children : n.children = time :: block :: rest)
    (legs : block.children = before ++ leg :: after) (timed : Timestamp.ofNode time = .ok t)
    (each : ∀ m ∈ before, ∃ x, Statement.readLegAt all m = .ok x)
    (refused : Statement.readLegAt all leg = .error (.writing location why)) (patterns : List Pattern) :
    Statement.ofNode all patterns n = .error (.writing location why) := by
  have failed (keyword : Keyword) :
      Statement.readDraft all patterns keyword n = .error (.writing location why) := by
    have legsFail : block.children.mapM (Statement.readLegAt all) = .error (.writing location why) := by
      rw [legs]
      exact mapM_eq_error each refused
    rw [Statement.readDraft, children]
    simp only [timed]
    show (block.children.mapM (Statement.readLegAt all)).bind _ = _
    rw [legsFail]
    rfl
  simp only [Rule.hasLegs, decide_eq_true_eq, List.mem_cons, List.not_mem_nil, or_false] at hasLegs
  rcases hasLegs with rule | rule | rule <;>
    · rw [Statement.ofNode, rule]
      simp only [failed]
      rfl

theorem ofStatements_of_refused {all : Array Line} {earlier later : List Node} {e : Error} {j : Journal}
    (read : Journal.ofStatements all patterns earlier = .ok j)
    (refused : ∀ patterns, Statement.ofNode all patterns n = .error e) :
    Journal.ofStatements all patterns (earlier ++ n :: later) = .error e := by
  induction earlier generalizing patterns j with
  | nil =>
    rw [List.nil_append, Journal.ofStatements, refused]
    rfl
  | cons m earlier ih =>
    rw [Journal.ofStatements, bind_eq_ok_iff] at read
    obtain ⟨statement, means, read⟩ := read
    rw [List.cons_append, Journal.ofStatements, means]
    cases statement with
    | items is notices =>
      simp only [bind_eq_ok_iff] at read
      obtain ⟨j', read, _⟩ := read
      show (Journal.ofStatements all patterns (earlier ++ n :: later) >>= _) = _
      rw [ih read]
      rfl
    | pattern pattern =>
      simp only [bind_eq_ok_iff] at read
      obtain ⟨j', read, _⟩ := read
      show (Journal.ofStatements all (patterns ++ [pattern]) (earlier ++ n :: later) >>= _) = _
      rw [ih read]
      rfl

/-- A statement of a journal means something, and what it says is written. -/
theorem exists_written_of_mem {all : Array Line} {j : Journal}
    (read : Journal.ofStatements all patterns nodes = .ok j) (mem : n ∈ nodes) :
    ∃ patterns' s, Statement.ofNode all patterns' n = .ok s ∧
      ∀ w, Written.ofNode? all patterns' n = some w → w ∈ Written.ofNodes all patterns nodes := by
  induction nodes generalizing patterns j with
  | nil => cases mem
  | cons m nodes ih =>
    rw [Journal.ofStatements, bind_eq_ok_iff] at read
    obtain ⟨s, means, read⟩ := read
    rcases List.mem_cons.1 mem with rfl | mem
    · refine ⟨patterns, s, means, fun w isSaid => ?_⟩
      rw [Written.ofNodes, isSaid]
      exact List.mem_append_left _ List.mem_cons_self
    · have later {patterns' : List Pattern} {j' : Journal} (read : Journal.ofStatements all patterns' nodes = .ok j')
          (same : patterns' = patterns ++ (Written.pattern? all m).toList) :
          ∃ patterns' s, Statement.ofNode all patterns' n = .ok s ∧
            ∀ w, Written.ofNode? all patterns' n = some w → w ∈ Written.ofNodes all patterns (m :: nodes) := by
        subst same
        obtain ⟨patterns', s', means', written⟩ := ih read mem
        refine ⟨patterns', s', means', fun w isSaid => ?_⟩
        rw [Written.ofNodes]
        exact List.mem_append_right _ (written w isSaid)
      cases s with
      | items is notices =>
        simp only [bind_eq_ok_iff] at read
        obtain ⟨j', read, _⟩ := read
        exact later read (by simp [(written_of_items means).2])
      | pattern p =>
        simp only [bind_eq_ok_iff] at read
        obtain ⟨j', read, _⟩ := read
        exact later read (by simp [(pattern_of_pattern means).2])

/-- What a statement with legs says is a draft with its legs. -/
theorem exists_draft_of_ofNode {all : Array Line} {rest : List Node} {s : Statement} (hasLegs : n.rule.hasLegs = true)
    (children : n.children = time :: block :: rest) (means : Statement.ofNode all patterns n = .ok s) :
    ∃ w keyword d, Written.ofNode? all patterns n = some w ∧ w.draft? = some (keyword, d) ∧
      d.location = n.location all ∧
      List.Forall₂ (fun m leg => Statement.readLegAt all m = .ok leg) block.children d.legs := by
  have legs {keyword : Keyword} {d : Draft} (read : Statement.readDraft all patterns keyword n = .ok d) :
      d.location = n.location all ∧
        List.Forall₂ (fun m leg => Statement.readLegAt all m = .ok leg) block.children d.legs := by
    rw [Statement.readDraft, children] at read
    simp only [bind_eq_ok_iff, Except.ok.injEq] at read
    obtain ⟨_, _, legs, read, _, _, rfl⟩ := read
    exact ⟨rfl, forall₂_of_mapM read fun _ _ _ read => read⟩
  simp only [Rule.hasLegs, decide_eq_true_eq, List.mem_cons, List.not_mem_nil, or_false] at hasLegs
  rcases hasLegs with rule | rule | rule
  all_goals
    rw [Statement.ofNode, rule, locating_eq_ok_iff] at means
    simp only [except_bind_eq_ok_iff] at means
    obtain ⟨d, read, _⟩ := means
    rw [Written.ofNode?, rule]
    simp only [read, Except.toOption, Option.map_some]
    exact ⟨_, _, d, rfl, rfl, legs read⟩

/-! ### Lines of legs in a journal -/

/-- How the legs of a statement of a journal are read. `earlier` are the statements before it. -/
structure Journal.ReadsLegs (lines : List Line) (earlier : List Node) (n time block : Node) : Prop where
  /-- A line of the block is one leg, and its text tells what becomes of it. -/
  line : ∀ number l, block.Covers number → lines[number - 1]? = some l → '\r' ∉ l.text.toList →
    ∃ leg, block.children.filter (fun m => decide (m.line = number)) = [leg] ∧
      l.IsReadAs (Statement.readLegAt lines.toArray leg)
  /-- The legs are those of a transaction that is written. -/
  accepted : ∀ j, parse lines = .ok j → ∃ w ∈ written lines, ∃ keyword d, w.draft? = some (keyword, d) ∧
    d.location = n.location lines.toArray ∧
    List.Forall₂ (fun m leg => Statement.readLegAt lines.toArray m = .ok leg) block.children d.legs
  /-- A leg that is refused refuses the journal where the leg is, if nothing before it does. -/
  refused : ∀ j t before leg after location why, ofStatements lines.toArray [] earlier = .ok j →
    Timestamp.ofNode time = .ok t → block.children = before ++ leg :: after →
    (∀ m ∈ before, ∃ x, Statement.readLegAt lines.toArray m = .ok x) →
    Statement.readLegAt lines.toArray leg = .error (.writing location why) →
    parse lines = .error (.writing location why)
  clear : ∀ m ∈ block.children, ∀ leg, Statement.readLegAt lines.toArray m = .ok leg → leg.owner.IsClear

/-- **Lines of legs are told apart by their texts alone.** A line that spells an account with an amount is a leg on
that account, any other line that begins like an account is refused, and the others are labels. So the text of an
owner tells the owner, and patterns never take a label for an account. -/
theorem readsLegs_of_statements {earlier later : List Node} (single : ∀ l ∈ lines, l.IsSingle)
    (trimmed : ∀ l ∈ lines, l.IsTrimmed) (read : Journal.statements lines = .ok (earlier ++ n :: later))
    (hasLegs : n.rule.hasLegs = true) :
    (∃ time block rest, n.children = time :: block :: rest ∧ block.rule = .legs ∧
      Journal.ReadsLegs lines earlier n time block) ∧
    (∀ o o' : Owner, o.IsClear → o'.IsClear → o.text = o'.text → o = o') ∧
    ∀ (p : Pattern) keyword owners, (∀ o ∈ owners, o.IsClear) →
      (p.isFor keyword owners = true ↔ p.keyword = keyword ∧ ∃ o ∈ owners, ∃ text,
        p.accounts.contains text = true ∧ o.text = text ∧ (AccountRef.isOwned text = true ↔ ∃ a, o = .owned a)) := by
  refine ⟨?_, fun _ _ => Owner.eq_of_text_eq, fun _ _ _ => Pattern.isFor_eq_true_iff⟩
  obtain ⟨first, c, stop, led, taken⟩ := exists_read_of_mem_statements read (List.mem_append_right _ List.mem_cons_self)
  obtain ⟨time, block, rest, passed, x, k, children, led', isBreak, isLegs⟩ := exists_legs_of_read hasLegs taken
  have led := led.trans led'
  rw [← List.append_assoc] at led
  refine ⟨time, block, rest, children, isLegs.rule, ?_, ?_, ?_, ?_⟩
  · intro number l covers isLine noReturn
    have mem := List.mem_of_getElem? isLine
    have plain := Line.isPlain_of_isTrimmed (single l mem) (trimmed l mem) noReturn
    rw [Node.Covers, isLegs.ends, isLegs.line] at covers
    have started := led.line
    have counted : 1 ≤ k.line := by
      rw [started]
      exact Nat.le_add_right 1 _
    have number' : number - 1 + 1 = number := by omega
    obtain ⟨leg, only, isLeg⟩ :=
      exists_leg_of_line single led isBreak isLine plain (by omega) (by omega)
    rw [number'] at only
    have onLine : leg.line = number := by
      have mem : leg ∈ (legItem.readAll k).1.filter fun m => decide (m.line = number) := only ▸ List.mem_cons_self
      exact of_decide_eq_true (List.mem_filter.1 mem).2
    have place : leg.location lines.toArray = l.location := by
      rw [Node.location, onLine, ← number']
      exact locationOf_of_getElem? isLine
    rw [isLegs.children]
    exact ⟨leg, only, isReadAs_of_isLegOf (trimmed l mem) isLeg place⟩
  · intro j parsed
    rw [Journal.parse, read] at parsed
    obtain ⟨patterns, s, means, written⟩ :=
      exists_written_of_mem parsed (List.mem_append_right _ List.mem_cons_self)
    obtain ⟨w, keyword, d, isSaid, isDraft, place, legs⟩ := exists_draft_of_ofNode hasLegs children means
    rw [written_of_statements read]
    exact ⟨w, written w isSaid, keyword, d, isDraft, place, legs⟩
  · intro j t before leg after location why start timed legs each refused
    rw [Journal.parse, read]
    exact ofStatements_of_refused start (ofNode_of_refused hasLegs children legs timed each refused)
  · intro m _ leg readLeg
    exact isClear_of_readLeg (locating_eq_ok_iff.1 readLeg)

/-- A purchase from a purse, with a line that lacks an amount. -/
def slipBook : List Line :=
  [⟨"ex 2021-01-03", ⟨⟨"slip", 1⟩, []⟩⟩, ⟨"asset/purse -12.50EUR", ⟨⟨"slip", 2⟩, []⟩⟩,
    ⟨"asset/purse", ⟨⟨"slip", 3⟩, []⟩⟩, ⟨"corner shop", ⟨⟨"slip", 4⟩, []⟩⟩, ⟨"end", ⟨⟨"slip", 5⟩, []⟩⟩]

theorem spellsPosting_purse :
    SpellsPosting "asset/purse -12.50EUR" ⟨.asset, "purse"⟩ ⟨(Decimal.fit? true 1250 2).getD .zero, .eur⟩ := by
  refine ⟨"-12.50".toList, ⟨⟨[' '], [], by decide, List.forall_mem_singleton.2 rfl, List.forall_mem_nil _, ?_⟩,
    by decide, by decide, ?_, by decide⟩, by decide +kernel⟩
  · rintro _ ⟨⟩
    rfl
  · exact ⟨['-'], ['1', '2'], ".50".toList, rfl, .inr (.inl rfl), by decide,
      .inr ⟨['5', '0'], rfl, by decide⟩⟩

/-- The statement of the book, its block of legs, and the lines that they are on. -/
theorem exists_block_of_slipBook :
    ∃ n time block a b c, Journal.statements slipBook = .ok [n] ∧ n.rule = .expenseStatement ∧
      n.children = [time, block] ∧ (Timestamp.ofNode time).toOption.isSome ∧ block.line = 2 ∧
      block.text.toList.count '\n' = 3 ∧ block.children = [a, b, c] ∧ a.line = 2 ∧ b.line = 3 ∧ c.line = 4 := by
  have shape : (Journal.statements slipBook).toOption.map (fun nodes => (nodes.flatMap Node.children).map fun m =>
      ((Timestamp.ofNode m).toOption.isSome, m.line, m.text.toList.count '\n', m.children.map Node.line))
      = some [(true, 1, 0, []), (false, 2, 3, [2, 3, 4])] := by decide +kernel
  have rules : (Journal.statements slipBook).toOption.map (List.map Node.rule) = some [.expenseStatement] := by
    decide +kernel
  obtain ⟨nodes, read, shape⟩ := Option.map_eq_some_iff.1 shape
  rw [read, Option.map_some, Option.some.injEq] at rules
  obtain ⟨n, rfl, rule⟩ := List.map_eq_singleton_iff.1 rules
  rw [List.flatMap_singleton] at shape
  obtain ⟨time, block, children, isTime, isBlock⟩ := exists_pair_of_map shape
  simp only [Prod.mk.injEq] at isTime isBlock
  obtain ⟨_, line, count, lines⟩ := isBlock
  obtain ⟨a, _, legs, first, lines⟩ := List.map_eq_cons_iff.1 lines
  obtain ⟨b, c, rfl, second, third⟩ := exists_pair_of_map lines
  exact ⟨n, time, block, a, b, c, toOption_eq_some_iff.1 read, rule, children, isTime.1, line, count, legs, first,
    second, third⟩

/-- The first leg of the book is on the purse and the last one is a label. The one between is refused, and so is
the book, on its line. -/
theorem legs_of_slipBook :
    ∃ a b c why, Statement.readLegAt slipBook.toArray a = .ok (.onAccount ⟨.asset, "purse"⟩
        ⟨(Decimal.fit? true 1250 2).getD .zero, .eur⟩ ⟨⟨"slip", 2⟩, []⟩) ∧
      Statement.readLegAt slipBook.toArray b = .error (.writing ⟨⟨"slip", 3⟩, []⟩ why) ∧
      Statement.readLegAt slipBook.toArray c = .ok (.outside "corner shop" ⟨⟨"slip", 4⟩, []⟩) ∧
      Journal.parse slipBook = .error (.writing ⟨⟨"slip", 3⟩, []⟩ why) := by
  obtain ⟨n, time, block, a, b, c, read, rule, children, timed, line, count, legs, first, second, third⟩ :=
    exists_block_of_slipBook
  obtain ⟨t, timed⟩ := Option.isSome_iff_exists.1 timed
  have read' : Journal.statements slipBook = .ok ([] ++ n :: []) := read
  obtain ⟨⟨_, _, _, same, _, reads⟩, _⟩ :=
    readsLegs_of_statements (by decide) (by decide) read' (by rw [rule]; rfl)
  cases children.symm.trans same
  have covers {number : Nat} (from' : 2 ≤ number) (upTo : number < 5) : block.Covers number := by
    rw [Node.Covers, line, count]
    exact ⟨from', upTo⟩
  have only {number : Nat} {leg m : Node} (is : block.children.filter (fun m => decide (m.line = number)) = [leg])
      (mem : m ∈ block.children) (onLine : m.line = number) : leg = m := by
    have mem : m ∈ block.children.filter fun m => decide (m.line = number) :=
      List.mem_filter.2 ⟨mem, decide_eq_true onLine⟩
    rw [is] at mem
    exact (List.mem_singleton.1 mem).symm
  obtain ⟨a', isA, readsA⟩ := reads.line 2 _ (covers (by decide) (by decide)) rfl (by decide)
  obtain ⟨b', isB, readsB⟩ := reads.line 3 _ (covers (by decide) (by decide)) rfl (by decide)
  obtain ⟨c', isC, readsC⟩ := reads.line 4 _ (covers (by decide) (by decide)) rfl (by decide)
  obtain rfl := only isA (by simp [legs]) first
  obtain rfl := only isB (by simp [legs]) second
  obtain rfl := only isC (by simp [legs]) third
  have onPurse := (readsA.onAccount _ _).2 spellsPosting_purse
  have unspelled (a : AccountRef) (m : Money) : ¬ SpellsPosting "asset/purse" a m := by
    -- There is no code in the line.
    rintro ⟨_, spells, _⟩
    obtain ⟨_, _, text, _⟩ := spells.parts
    obtain ⟨x, head, upper⟩ := spells.code.head?
    have inText : x ∈ "asset/purse".toList := by
      rw [text]
      simp [List.mem_of_mem_head? head]
    have lower : "asset/purse".toList.all (!isUpper ·) = true := by decide
    have other := List.all_eq_true.1 lower x inText
    rw [upper] at other
    cases other
  obtain ⟨why, refused⟩ := readsB.refused (by decide) unspelled
  refine ⟨a', b', c', why, onPurse, refused, readsC.outside.2 (by decide), ?_⟩
  refine reads.refused ⟨[], []⟩ t [a'] b' [c'] _ why rfl (toOption_eq_some_iff.1 timed) legs ?_ refused
  intro m mem
  obtain rfl := List.mem_singleton.1 mem
  exact ⟨_, onPurse⟩

end Daybook
