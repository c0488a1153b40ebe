import Daybook.Proofs.Grammar.Balances
import Daybook.Proofs.Journal.Keywords
import Daybook.Proofs.Journal.Places
import Daybook.Proofs.Statement.Legs

/-!
# A line written into a balance

A balance can be cut between any two lines of it (`exists_balanceCut`). A line that is written there is one more
entry if it is an entry by itself (`Line.entry`), and the ledger then means what it meant, with that entry in
between (`parse_of_entry`). If the line is none, and not the end of the balance, the grammar refuses the ledger
(`parse_of_other`). A line with the price of a share is the entry that it says, unless the company begins like an
amount; then it is no entry (`parse_of_priceLine`).
-/

namespace Daybook

open Grammar Grammar.Expr
open Cursor (Leads)

variable {all all' : Array Line} {above below ls : List Line} {line l : Line} {n n' time : Node}
  {nodes nodes' : List Node} {c stop : Cursor} {more : List Char}

/-! ### Entries -/

/-- What an entry of a balance is read as, with its problem located at the entry. -/
def Statement.readEntryAt (all : Array Line) (n : Node) : Except Error BalanceEntry :=
  Statement.locating all n (Statement.readBalanceEntry all n)

namespace Line

/-- What the grammar reads of the line as an entry. -/
def entryReading? (l : Line) : Option Reading := entryItem.read (.start (l.text.toList ++ ['\n']))

def IsEntry (l : Line) : Prop := l.entryReading?.isSome = true

/-- The entry of a balance that a line is by itself. -/
def entry (l : Line) : Except Error BalanceEntry :=
  match l.entryReading? with
  | some ([n], _) => Statement.readEntryAt #[l] n
  | _ => .error (.plain (.missingPart "balance"))

theorem entry_of_reading (reading : l.entryReading? = some ([n], stop)) : l.entry = Statement.readEntryAt #[l] n := by
  unfold entry
  rw [reading]

theorem IsPlain.isPlainText (plain : l.IsPlain) : IsPlainText l.text.toList :=
  ⟨plain.inLine, plain.starts, plain.ends⟩

end Line

theorem locationOf_singleton (l : Line) (number : Nat) : locationOf #[l] number = l.location := by
  have first : min (number - 1) (#[l].size - 1) = 0 := Nat.min_eq_right (Nat.zero_le _)
  rw [locationOf, first]
  rfl

/-- An entry means what its parts and its location mean. -/
theorem readEntryAt_eq_of_same {all' : Array Line} (same : Node.Alike (fun _ _ => True) n n')
    (place : n.location all = n'.location all') :
    Statement.readEntryAt all n = Statement.readEntryAt all' n' := by
  have noLines : (fun _ _ => True) = SamePlace #[] #[] := by
    funext _ _
    exact (eq_true rfl).symm
  rw [noLines] at same
  have parts := same.children
  rw [Statement.readEntryAt, Statement.readEntryAt, Statement.locating, Statement.locating,
    Statement.readBalanceEntry, Statement.readBalanceEntry, place]
  generalize n.children = ns, n'.children = ns' at parts
  rcases parts with _ | ⟨account, _ | ⟨value, _ | _⟩⟩
  case cons.cons.nil =>
    simp only [AccountRef.ofNode_eq_of_alike account, Statement.readAssertion_eq_of_alike _ value]
  all_goals rfl

/-- **A line is the same entry wherever it stands.** -/
theorem read_entryItem_at (plain : l.IsPlain) (counted : 1 ≤ c.line)
    (isRest : c.rest = l.text.toList ++ '\n' :: more) (isEntry : l.IsEntry) :
    ∃ n stop, entryItem.read c = some ([n], stop) ∧ n.line = c.line ∧ c.Leads (l.text.toList ++ ['\n']) stop ∧
      ∀ all, locationOf all c.line = l.location → Statement.readEntryAt all n = l.entry := by
  obtain ⟨⟨nodes, stop⟩, alone⟩ := Option.isSome_iff_exists.1 isEntry
  obtain ⟨_, taken, alike⟩ := (sameLine_of_read sure_entryItem firm_entryItem counted isRest).2 nodes stop alone
  obtain ⟨n, rfl, line, led⟩ := exists_of_read_entryItem plain.isPlainText isRest taken
  obtain ⟨n', rfl, _, _⟩ := exists_of_read_entryItem plain.isPlainText rfl alone
  refine ⟨n, _, taken, line, led, fun all place => ?_⟩
  rw [Line.entry_of_reading alone]
  refine (readEntryAt_eq_of_same (List.forall₂_cons.1 alike).1 ?_).symm
  rw [Node.location, Node.location, locationOf_singleton, line, place]

theorem read_entryItem_eq_none (counted : 1 ≤ c.line) (isRest : c.rest = l.text.toList ++ '\n' :: more)
    (other : ¬ l.IsEntry) : entryItem.read c = none := by
  refine (sameLine_of_read sure_entryItem firm_entryItem counted isRest).1 ?_
  rw [Line.IsEntry, Bool.not_eq_true, Option.isSome_eq_false_iff, Option.isNone_iff_eq_none] at other
  exact other

/-- Only a line `end` ends a balance. -/
theorem eq_end_of_read_blockEnd (plain : l.IsPlain) (isRest : c.rest = l.text.toList ++ '\n' :: more)
    (taken : blockEnd.read c = some (nodes, stop)) : l.text.toList = "end".toList := by
  obtain ⟨_, m, _, keyword, ended, _⟩ := read_seq_eq_some_iff.1 taken
  have led := Cursor.leads_of_after? (read_word_eq_some_iff.1 keyword).1
  have ended := (read_seq_gap lineEnd m).symm.trans ended
  rcases read_alt_eq_some_iff.1 ended with feed | ⟨_, atEnd⟩
  · exact (plain.isPlainText.eq_of_read isRest led (List.all_eq_true.1 (by decide)) feed).1.symm
  · obtain ⟨⟨_, found⟩, _, _⟩ := read_ahead_eq_some_iff.1 atEnd
    obtain ⟨_, ended, _⟩ := read_rule_eq_some_iff.1 found
    obtain ⟨blanks, led', all, _⟩ := exists_leads_afterGap m
    have whole := isRest.symm.trans (led.trans led').rest
    rw [(read_done_eq_some_iff.1 ended).1, List.append_nil] at whole
    have feed : '\n' ∈ "end".toList ++ blanks := whole ▸ List.mem_append_right _ List.mem_cons_self
    exact absurd feed (List.mem_append.not.2 (not_or.2 ⟨by decide, feed_notMem_of_gap all⟩))

/-! ### What a balance means -/

/-- A balance of these entries, with what is wrong located there. -/
def balanceOf (location : Location) (time : Node) (entries : Except Error (List BalanceEntry)) : Except Error Statement :=
  (Statement.ofItem .balance do
    let timestamp ← plainly (Timestamp.ofNode time)
    let entries ← entries
    .ok { timestamp, entries, location }).mapError (Error.locatedAt location)

theorem ofNode_balanceStatement (patterns : List Pattern) (number : Nat) (text : String) (entries : List Node) :
    Statement.ofNode all patterns (.mk .balanceStatement number text (time :: entries))
      = balanceOf (locationOf all number) time (entries.mapM (Statement.readEntryAt all)) :=
  rfl

theorem balanceOf_eq_ok_iff {location : Location} {entries : Except Error (List BalanceEntry)} {s : Statement} :
    balanceOf location time entries = .ok s ↔ ∃ timestamp, plainly (Timestamp.ofNode time) = .ok timestamp ∧
      ∃ es, entries = .ok es ∧ s = .items [.balance ⟨timestamp, es, location⟩] [] := by
  simp only [balanceOf, mapError_eq_ok_iff, Statement.ofItem, map_eq_ok_iff, bind_eq_ok_iff, Except.ok.injEq]
  constructor
  · rintro ⟨_, ⟨timestamp, isTime, es, isEntries, rfl⟩, rfl⟩
    exact ⟨timestamp, isTime, es, isEntries, rfl⟩
  · rintro ⟨timestamp, isTime, es, isEntries, rfl⟩
    exact ⟨_, ⟨timestamp, isTime, es, isEntries, rfl⟩, rfl⟩

theorem readEntryAt_eq_of_alike (alike : AlikeIn all all' n n') :
    Statement.readEntryAt all n = Statement.readEntryAt all' n' := by
  rw [Statement.readEntryAt, Statement.readBalanceEntry_eq_of_alike alike]
  exact Statement.locating_eq_of_alike alike _

/-- Entries that are read of some lines mean the same, whatever lines follow. -/
theorem mapM_readEntryAt_before (some : above ≠ []) (before : ∀ n ∈ nodes, n.Before (1 + above.length))
    (below : List Line) : nodes.mapM (Statement.readEntryAt (above ++ below).toArray)
      = nodes.mapM (Statement.readEntryAt above.toArray) := by
  have alike : List.Forall₂ (AlikeIn above.toArray (above ++ below).toArray) nodes nodes :=
    List.forall₂_same.2 fun n mem => (before n mem).alike fun _ inside => samePlace_append_left some inside
  exact (mapM_eq_of_alike alike fun _ _ => readEntryAt_eq_of_alike).symm

/-- The last lines of a balance are read the same after other lines. -/
theorem exists_lower (more : below ≠ []) (characters : Nat) (above : List Line)
    (taken : balanceRest.read (.start (Journal.joined below)) = some (nodes, stop)) :
    ∃ nodes', balanceRest.read ((Cursor.start (Journal.joined below)).shift characters above.length)
        = some (nodes', stop.shift characters above.length) ∧
      nodes'.mapM (Statement.readEntryAt (above ++ below).toArray)
        = nodes.mapM (Statement.readEntryAt below.toArray) := by
  have shifts := @shifts_of_counted (SamePlace below.toArray (above ++ below).toArray) characters above.length
    (fun _ counted => samePlace_append_right more counted) balanceRest (.start (Journal.joined below)) (Nat.le_refl 1)
  obtain ⟨nodes', taken', alike⟩ := shifts.taken taken
  exact ⟨nodes', taken', (mapM_eq_of_alike alike fun _ _ => readEntryAt_eq_of_alike).symm⟩

/-! ### Written lines -/

theorem locationOf_one (some : above ≠ []) : locationOf above.toArray 1 = (above.head some).location :=
  locationOf_of_getElem? (by rw [← List.head?_eq_getElem?, List.head?_eq_some_head some])

/-- Lines that do not start with a statement are no ledger. -/
theorem statements_of_refused (some : ls ≠ []) (refused : block.read (.start (Journal.joined ls)) = none) :
    Journal.statements ls = .error (Journal.refusal ls) := by
  apply statements_of_not_isOver
  rw [Journal.blocks, readAll_of_none refused]
  exact (isOpen_afterGap (isOpen_joined (joined_eq_nil_iff.not.2 some))).rest_ne_nil

section

variable {upper lower : List Node} (begun : IsBegun (Journal.joined above) time upper)
  (single : ∀ l ∈ above, l.IsSingle) (some : above ≠ [])
include begun single some

/-- Entries up to the end, after the first lines of a balance, make it one. -/
theorem exists_balance_of_isBegun
    (taken : balanceRest.read ((Cursor.start (Journal.joined below)).shift (Journal.joined above).length above.length)
      = Option.some (lower, stop)) (atEnd : stop.rest = []) :
    ∃ n, Journal.statements (above ++ below) = .ok [n] ∧
      ∀ patterns, Statement.ofNode (above ++ below).toArray patterns n
        = balanceOf (above.head some).location time do
            return (← upper.mapM (Statement.readEntryAt above.toArray)) ++
              (← lower.mapM (Statement.readEntryAt (above ++ below).toArray)) := by
  have read := begun.goesOn (Journal.joined below)
  rw [count_joined single, taken, ← joined_append, read_block] at read
  refine ⟨_, statements_of_read read atEnd, fun patterns => ?_⟩
  have before := begun.before
  rw [count_joined single] at before
  have first : locationOf (above ++ below).toArray 1 = locationOf above.toArray 1 :=
    (samePlace_append_left some (Nat.lt_add_of_pos_right (List.length_pos_iff.2 some))).symm
  rw [locationOf_one some] at first
  rw [ofNode_balanceStatement, List.mapM_append, mapM_readEntryAt_before some before, first]

/-- The last lines of a balance, wherever they come from. -/
theorem exists_balance (more : below ≠ []) (alone : balanceRest.read (.start (Journal.joined below)) =
    Option.some (lower, stop)) (atEnd : stop.rest = []) :
    ∃ n, Journal.statements (above ++ below) = .ok [n] ∧
      ∀ patterns, Statement.ofNode (above ++ below).toArray patterns n
        = balanceOf (above.head some).location time do
            return (← upper.mapM (Statement.readEntryAt above.toArray)) ++
              (← lower.mapM (Statement.readEntryAt below.toArray)) := by
  obtain ⟨lower', taken, same⟩ := exists_lower more (Journal.joined above).length above alone
  rw [← same]
  exact exists_balance_of_isBegun begun single some taken atEnd

/-- A line that is an entry is one of the balance. -/
theorem exists_balance_of_entry (more : below ≠ []) (alone : balanceRest.read (.start (Journal.joined below)) =
    Option.some (lower, stop)) (atEnd : stop.rest = []) (plain : line.IsPlain) (isEntry : line.IsEntry) :
    ∃ n, Journal.statements (above ++ line :: below) = .ok [n] ∧
      ∀ patterns, Statement.ofNode (above ++ line :: below).toArray patterns n
        = balanceOf (above.head some).location time do
            return (← upper.mapM (Statement.readEntryAt above.toArray)) ++ (← line.entry) ::
              (← lower.mapM (Statement.readEntryAt below.toArray)) := by
  have isRest : ((Cursor.start (Journal.joined (line :: below))).shift (Journal.joined above).length
      above.length).rest = line.text.toList ++ '\n' :: Journal.joined below := joined_cons line below
  obtain ⟨n, m, taken, _, led, means⟩ := read_entryItem_at plain (Nat.le_add_right 1 above.length) isRest isEntry
  -- After the line, the last lines are read as they were.
  have next : m = (Cursor.start (Journal.joined below)).shift m.offset (above ++ [line]).length := by
    have left : m.rest = Journal.joined below := by
      have same := isRest.symm.trans led.rest
      rw [List.append_assoc, List.append_cancel_left_eq] at same
      exact (List.cons.inj same).2.symm
    have lines : m.line = 1 + (above ++ [line]).length := by
      rw [led.line, List.count_append, List.count_eq_zero.2 plain.isSingle, List.length_append]
      exact Nat.add_assoc 1 above.length 1
    rw [← left, Cursor.shift, Cursor.start, ← lines, Nat.zero_add]
  obtain ⟨lower', onLower, same⟩ := exists_lower more m.offset (above ++ [line]) alone
  rw [← next] at onLower
  have onRest := read_balanceRest_of_entry taken
  rw [onLower] at onRest
  have place : locationOf (above ++ line :: below).toArray (1 + above.length) = line.location := by
    rw [Nat.add_comm]
    exact locationOf_of_getElem? (by simp)
  have isBalance := exists_balance_of_isBegun begun single some onRest atEnd
  rw [List.append_assoc, List.singleton_append] at same
  rw [List.singleton_append, List.mapM_cons, means _ place, same] at isBalance
  simpa only [bind_assoc, pure_bind] using isBalance

/-- A line that is no entry, and not the end of the balance, is none of it. -/
theorem statements_of_other (plain : line.IsPlain) (other : ¬ line.IsEntry) (noEnd : line.text.toList ≠ "end".toList)
    (below : List Line) :
    Journal.statements (above ++ line :: below) = .error (Journal.refusal (above ++ line :: below)) := by
  have isRest : ((Cursor.start (Journal.joined (line :: below))).shift (Journal.joined above).length
      above.length).rest = line.text.toList ++ '\n' :: Journal.joined below := joined_cons line below
  have counted := Nat.le_add_right 1 above.length
  have refused : balanceRest.read ((Cursor.start (Journal.joined (line :: below))).shift (Journal.joined above).length
      above.length) = none := by
    rw [read_balanceRest_of_none (read_entryItem_eq_none counted isRest other), plain.isPlainText.afterGap_eq isRest]
    cases taken : blockEnd.read _ with
    | none => rfl
    | some r => exact absurd (eq_end_of_read_blockEnd plain isRest taken) noEnd
  have read := begun.goesOn (Journal.joined (line :: below))
  rw [count_joined single, refused, ← joined_append] at read
  exact statements_of_refused (List.append_ne_nil_of_left_ne_nil some _) read

end

/-- What a balance means where it is cut between two lines, and what a line written there makes of it. -/
structure BalanceCut (above below : List Line) (location : Location) (time : Node)
    (upper lower : Except Error (List BalanceEntry)) (n : Node) : Prop where
  /-- It means the entries of both parts. -/
  means : ∀ patterns, Statement.ofNode (above ++ below).toArray patterns n
    = balanceOf location time do return (← upper) ++ (← lower)
  /-- With an entry written in between, it is a balance with that entry. -/
  entry : ∀ line, line.IsPlain → line.IsEntry → ∃ n', Journal.statements (above ++ line :: below) = .ok [n'] ∧
    ∀ patterns, Statement.ofNode (above ++ line :: below).toArray patterns n'
      = balanceOf location time do return (← upper) ++ (← line.entry) :: (← lower)
  /-- With a line after the first part that is no entry, and not an end, it is none, whatever follows. -/
  other : ∀ line, line.IsPlain → ¬ line.IsEntry → line.text.toList ≠ "end".toList → ∀ rest,
    Journal.statements (above ++ line :: rest) = .error (Journal.refusal (above ++ line :: rest))

/-- **A balance can be cut between any two lines of it.** -/
theorem exists_balanceCut (single : ∀ l ∈ above, l.IsSingle) (some : above ≠ []) (more : below ≠ [])
    (read : Journal.statements (above ++ below) = .ok [n]) (isBalance : n.rule = .balanceStatement) :
    ∃ time upper lower, BalanceCut above below (above.head some).location time upper lower n := by
  obtain ⟨stop, taken, atEnd⟩ := read_of_statements read
  rw [joined_append] at taken
  obtain ⟨time, upper, begun⟩ := exists_isBegun (isOpen_joined (joined_eq_nil_iff.not.2 some))
    (joined_eq_nil_iff.not.2 more) taken atEnd isBalance
  have goesOn := begun.goesOn (Journal.joined below)
  rw [count_joined single, read_block, taken] at goesOn
  obtain ⟨⟨ns, last⟩, onRest, same⟩ := Option.map_eq_some_iff.1 goesOn.symm
  obtain rfl : last = stop := congrArg Prod.snd same
  obtain ⟨⟨lower, stop⟩, alone⟩ : ∃ r, balanceRest.read (.start (Journal.joined below)) = Option.some r := by
    refine Option.ne_none_iff_exists'.1 fun refused => ?_
    rw [(read_eq_none_iff_start (Nat.le_add_right 1 above.length)).2 refused] at onRest
    cases onRest
  have atEnd : stop.rest = [] := by
    obtain ⟨_, onRest', _⟩ := exists_lower more (Journal.joined above).length above alone
    cases onRest.symm.trans onRest'
    exact atEnd
  refine ⟨time, _, _, ?_, fun _ => exists_balance_of_entry begun single some more alone atEnd,
    fun _ plain other noEnd => statements_of_other begun single some plain other noEnd⟩
  obtain ⟨n', read', means⟩ := exists_balance begun single some more alone atEnd
  cases read.symm.trans read'
  exact means

/-! ### Whole journals -/

/-- A statement in place of another, when both are one item and tell nothing, changes that item only. -/
theorem exists_of_ofStatements {ms ms' : List (List Pattern → Except Error Statement)}
    {r r' : Except Error Statement} {changed : Item → Item → Prop} {patterns : List Pattern} {j : Journal}
    (changes : ∀ s, r = .ok s → ∃ i i', s = .items [i] [] ∧ r' = .ok (.items [i'] []) ∧ changed i i')
    (isOld : nodes.map (Statement.meaning all) = ms ++ (fun _ => r) :: ms')
    (isNew : nodes'.map (Statement.meaning all') = ms ++ (fun _ => r') :: ms')
    (read : Journal.ofStatements all patterns nodes = .ok j) :
    ∃ i i' pre post, changed i i' ∧ j.items = pre ++ i :: post ∧
      Journal.ofStatements all' patterns nodes' = .ok ⟨pre ++ i' :: post, j.notices⟩ := by
  induction ms generalizing nodes nodes' patterns j with
  | nil =>
    obtain ⟨n, rest, rfl, isFirst, later⟩ := List.map_eq_cons_iff.1 isOld
    obtain ⟨n', rest', rfl, isFirst', later'⟩ := List.map_eq_cons_iff.1 isNew
    have isStatement : Statement.ofNode all patterns n = r := congrFun isFirst patterns
    have isStatement' : Statement.ofNode all' patterns n' = r' := congrFun isFirst' patterns
    simp only [Journal.ofStatements, isStatement, bind_eq_ok_iff] at read
    obtain ⟨s, isOk, read⟩ := read
    obtain ⟨i, i', rfl, isOk', isChanged⟩ := changes s isOk
    simp only [bind_eq_ok_iff, Except.ok.injEq] at read
    obtain ⟨j', read, rfl⟩ := read
    rw [ofStatements_eq_of_meanings (later.trans later'.symm)] at read
    refine ⟨i, i', [], j'.items, isChanged, rfl, ?_⟩
    simp only [Journal.ofStatements, isStatement', isOk', bind_eq_ok_iff, Except.ok.injEq, exists_eq_left']
    exact ⟨j', read, rfl⟩
  | cons m ms ih =>
    obtain ⟨n, rest, rfl, isFirst, later⟩ := List.map_eq_cons_iff.1 isOld
    obtain ⟨n', rest', rfl, isFirst', later'⟩ := List.map_eq_cons_iff.1 isNew
    have same : Statement.ofNode all' patterns n' = Statement.ofNode all patterns n :=
      congrFun (isFirst'.trans isFirst.symm) patterns
    simp only [Journal.ofStatements, bind_eq_ok_iff] at read
    obtain ⟨s, isStatement, read⟩ := read
    simp only [Journal.ofStatements, same, isStatement, bind_eq_ok_iff, Except.ok.injEq, exists_eq_left']
    cases s with
    | items is notices =>
      simp only [bind_eq_ok_iff, Except.ok.injEq] at read
      obtain ⟨j', read, rfl⟩ := read
      obtain ⟨i, i', pre, post, isChanged, items, read'⟩ := ih later later' read
      refine ⟨i, i', is ++ pre, post, isChanged, ?_, bind_eq_ok_iff.2 ⟨_, read', ?_⟩⟩
      · rw [items, List.append_assoc]
      · rw [List.append_assoc]
    | pattern p =>
      simp only [bind_eq_ok_iff, Except.ok.injEq] at read
      obtain ⟨j', read, rfl⟩ := read
      obtain ⟨i, i', pre, post, isChanged, items, read'⟩ := ih later later' read
      exact ⟨i, i', pre, post, isChanged, items, bind_eq_ok_iff.2 ⟨_, read', rfl⟩⟩

/-- The statements of a ledger with more lines after it, if there are any, mean the same as those of both. -/
theorem exists_statements_append_of_ok {before b : List Line} (single : ∀ l ∈ before, l.IsSingle)
    (read : Journal.statements before = .ok nodes) (read' : Journal.statements b = .ok nodes') :
    ∃ all, Journal.statements (before ++ b) = .ok all ∧
      all.map (Statement.meaning (before ++ b).toArray)
        = nodes.map (Statement.meaning before.toArray) ++ nodes'.map (Statement.meaning b.toArray) := by
  by_cases more : b = []
  · subst more
    rw [statements_nil] at read'
    cases read'
    refine ⟨nodes, ?_, ?_⟩
    · rw [List.append_nil, read]
    · rw [List.append_nil, List.map_nil, List.append_nil]
  · exact exists_statements_append single more read read'

/-- The balance there, and what it is with one entry more. -/
def Item.IsWithEntry (location : Location) (e : BalanceEntry) (i i' : Item) : Prop :=
  ∃ (b : BalanceAssertion) (upper lower : List BalanceEntry), i = .balance b ∧ b.location = location ∧
    b.entries = upper ++ lower ∧ i' = .balance { b with entries := upper ++ e :: lower }

section

variable {location : Location} {upper lower : Except Error (List BalanceEntry)} {before after : List Line}
  (isCut : BalanceCut above below location time upper lower n) (single : ∀ l ∈ before ++ (above ++ below), l.IsSingle)
  (isBefore : Journal.statements before = .ok nodes) (plain : line.IsPlain)
include isCut single isBefore plain

/-- **A line that is an entry**, written into a balance of a ledger, is one entry more. -/
theorem parse_of_entry {e : BalanceEntry} {j : Journal} (isBlock : Journal.statements (above ++ below) = .ok [n])
    (isAfter : Journal.statements after = .ok nodes') (isEntry : line.IsEntry) (means : line.entry = .ok e)
    (read : Journal.parse (before ++ ((above ++ below) ++ after)) = .ok j) :
    ∃ i i' pre post, i.IsWithEntry location e i' ∧ j.items = pre ++ i :: post ∧
      Journal.parse (before ++ ((above ++ line :: below) ++ after)) = .ok ⟨pre ++ i' :: post, j.notices⟩ := by
  obtain ⟨singleBefore, singleBlock⟩ := List.forall_mem_append.1 single
  have singleBlock' : ∀ l ∈ above ++ line :: below, l.IsSingle := by
    obtain ⟨first, last⟩ := List.forall_mem_append.1 singleBlock
    exact List.forall_mem_append.2 ⟨first, List.forall_mem_cons.2 ⟨plain.isSingle, last⟩⟩
  obtain ⟨n', isBlock', means'⟩ := isCut.entry line plain isEntry
  obtain ⟨both, isBoth, same⟩ := exists_statements_append_of_ok singleBlock isBlock isAfter
  obtain ⟨both', isBoth', same'⟩ := exists_statements_append_of_ok singleBlock' isBlock' isAfter
  obtain ⟨all, isAll, allSame⟩ := exists_statements_append_of_ok singleBefore isBefore isBoth
  obtain ⟨all', isAll', allSame'⟩ := exists_statements_append_of_ok singleBefore isBefore isBoth'
  have first : Statement.meaning (above ++ below).toArray n = fun _ => balanceOf location time _ :=
    funext isCut.means
  have first' : Statement.meaning (above ++ line :: below).toArray n' = fun _ => balanceOf location time _ :=
    funext means'
  rw [same, List.map_singleton, first, List.singleton_append] at allSame
  rw [same', List.map_singleton, first', List.singleton_append] at allSame'
  rw [Journal.parse, isAll] at read
  rw [Journal.parse, isAll']
  refine exists_of_ofStatements (fun s isOk => ?_) allSame allSame' read
  obtain ⟨timestamp, isTime, es, isEntries, rfl⟩ := balanceOf_eq_ok_iff.1 isOk
  obtain ⟨first, isUpper, isEntries⟩ := bind_eq_ok_iff.1 isEntries
  obtain ⟨last, isLower, entries⟩ := bind_eq_ok_iff.1 isEntries
  obtain rfl : first ++ last = es := Except.ok.inj entries
  refine ⟨_, _, rfl, balanceOf_eq_ok_iff.2 ⟨timestamp, isTime, first ++ e :: last, ?_, rfl⟩,
    ⟨⟨timestamp, first ++ last, location⟩, first, last, rfl, rfl, rfl, rfl⟩⟩
  rw [isUpper, means, isLower]
  rfl

/-- **A line that is no entry**, and not the end, written into a balance of a ledger, makes it none. -/
theorem parse_of_other (other : ¬ line.IsEntry) (noEnd : line.text.toList ≠ "end".toList) :
    Journal.parse (before ++ ((above ++ line :: below) ++ after))
      = .error (Journal.refusal (before ++ ((above ++ line :: below) ++ after))) := by
  obtain ⟨singleBefore, _⟩ := List.forall_mem_append.1 single
  have refused := isCut.other line plain other noEnd (below ++ after)
  rw [List.append_assoc, List.cons_append]
  exact parse_append_of_refused singleBefore (by simp) isBefore refused

end

/-! ### Prices -/

variable {account company number : List Char} {currency : Currency} {d : Decimal}

theorem isUpper_code (currency : Currency) : IsRun isUpper currency.code.toList := by
  cases currency <;> decide

section

variable (isName : IsRun isNameChar account) (isCompany : IsRun isNameChar company) (isNumber : IsNumber number)
  (text : l.text.toList = priceText account company number currency.code.toList)
include isName isCompany isNumber text

theorem isPlain_of_priceLine : l.IsPlain := by
  have plain := isPlainText_priceText isName isCompany isNumber (isUpper_code currency)
  rw [← text] at plain
  exact ⟨plain.inLine, plain.starts, plain.ends⟩

theorem not_isEntry_of_priceLine (begins : BeginsLikeAmount company) : ¬ l.IsEntry := by
  have isRest : (Cursor.start (l.text.toList ++ ['\n'])).rest
      = priceText account company number currency.code.toList ++ '\n' :: [] := by rw [← text]; rfl
  rw [Line.IsEntry, Line.entryReading?,
    read_priceLine_eq_none isName isCompany isNumber (isUpper_code currency) begins isRest]
  exact Bool.false_ne_true

/-- **A line with the price of a share is that entry**, if the company does not begin like an amount. -/
theorem entry_of_priceLine (other : ¬ BeginsLikeAmount company) (fits : Decimal.ofNumber number = .ok d) :
    l.IsEntry ∧ l.entry = .ok
      ⟨⟨.equity, String.ofList account⟩, .sharePrice (String.ofList company) ⟨d, currency⟩, l.location⟩ := by
  have isRest : (Cursor.start (l.text.toList ++ ['\n'])).rest
      = priceText account company number currency.code.toList ++ '\n' :: [] := by rw [← text]; rfl
  obtain ⟨n, stop, taken, isPrice⟩ := read_priceLine isName isCompany isNumber (isUpper_code currency) other isRest
  have reading : l.entryReading? = some ([n], stop) := taken
  obtain ⟨owner, value, children, isOwner, rule, c, price, children', isAmount⟩ := isPrice.children
  have onAccount : AccountRef.ofNode owner = .ok ⟨.equity, String.ofList account⟩ := ofNode_of_isOwned isOwner
  have money : Money.ofNode price = .ok ⟨d, currency⟩ :=
    (ofNode_of_isAmount isAmount).trans (ofParts_eq_ok_iff.2 ⟨fits, rfl⟩)
  have place : n.location #[l] = l.location := locationOf_singleton l n.line
  have assertion : Statement.readAssertion ⟨.equity, String.ofList account⟩ value
      = .ok (.sharePrice (String.ofList company) ⟨d, currency⟩) := by
    rw [Statement.readAssertion, rule, children']
    exact map_eq_ok_iff.2 ⟨_, money, rfl⟩
  refine ⟨by rw [Line.IsEntry, reading]; rfl, ?_⟩
  rw [Line.entry_of_reading reading, Statement.readEntryAt, Statement.locating, Statement.readBalanceEntry, children, place, mapError_eq_ok_iff]
  exact bind_eq_ok_iff.2
    ⟨_, congrArg plainly onAccount, bind_eq_ok_iff.2 ⟨_, congrArg plainly assertion, rfl⟩⟩

end

/-- **The price of a share, in a balance of a ledger.** A line `equity/<account> <company> <number> <code>` between
two lines of a balance is one entry more, for that account, company and price, and changes nothing else, unless
the company begins like an amount. Then the grammar takes the company for one, and refuses the ledger. -/
theorem parse_of_priceLine {before after : List Line} {j : Journal}
    (single : ∀ l ∈ before ++ (above ++ below), l.IsSingle) (isBefore : Journal.statements before = .ok nodes)
    (isBlock : Journal.statements (above ++ below) = .ok [n]) (isBalance : n.rule = .balanceStatement)
    (some : above ≠ []) (more : below ≠ []) (isAfter : Journal.statements after = .ok nodes')
    (read : Journal.parse (before ++ ((above ++ below) ++ after)) = .ok j)
    (isName : accountName.Accepts account) (isCompany : Grammar.company.Accepts company)
    (isNumber : Grammar.number.Accepts number) (fits : Decimal.ofNumber number = .ok d)
    (text : line.text.toList = priceText account company number currency.code.toList) :
    (¬ BeginsLikeAmount company → ∃ i i' pre post,
      i.IsWithEntry (above.head some).location ⟨⟨.equity, String.ofList account⟩,
        .sharePrice (String.ofList company) ⟨d, currency⟩, line.location⟩ i' ∧ j.items = pre ++ i :: post ∧
      Journal.parse (before ++ ((above ++ line :: below) ++ after)) = .ok ⟨pre ++ i' :: post, j.notices⟩) ∧
    (BeginsLikeAmount company → Journal.parse (before ++ ((above ++ line :: below) ++ after))
      = .error (Journal.refusal (before ++ ((above ++ line :: below) ++ after)))) := by
  have isName := accepts_runToken_iff.1 isName
  have isCompany := accepts_runToken_iff.1 isCompany
  have isNumber := accepts_number_iff.1 isNumber
  have singleBlock := (List.forall_mem_append.1 single).2
  obtain ⟨time, upper, lower, isCut⟩ :=
    exists_balanceCut (List.forall_mem_append.1 singleBlock).1 some more isBlock isBalance
  have plain := isPlain_of_priceLine isName isCompany isNumber text
  constructor
  · intro other
    obtain ⟨isEntry, means⟩ := entry_of_priceLine isName isCompany isNumber text other fits
    exact parse_of_entry isCut single isBefore plain isBlock isAfter isEntry means read
  · intro begins
    have other := not_isEntry_of_priceLine isName isCompany isNumber text begins
    refine parse_of_other isCut single isBefore plain other ?_
    rw [text]
    rintro ⟨⟩

/-- The first lines of a balance, and its last one. -/
def checkLines : List Line :=
  [⟨"balance 2021-01-01", ⟨⟨"check", 1⟩, []⟩⟩, ⟨"asset/bank 5000 USD", ⟨⟨"check", 2⟩, []⟩⟩]

def checkEnd : List Line := [⟨"end", ⟨⟨"check", 4⟩, []⟩⟩]

/-- A line with the price of a share. -/
def priceLine (company : String) : Line := ⟨"equity/broker " ++ company ++ " 12.50 EUR", ⟨⟨"check", 3⟩, []⟩⟩

theorem exists_check :
    ∃ n, Journal.statements (checkLines ++ checkEnd) = .ok [n] ∧ n.rule = .balanceStatement := by
  have rules : (Journal.statements (checkLines ++ checkEnd)).toOption.map (·.map Node.rule)
      = some [.balanceStatement] := by decide +kernel
  obtain ⟨nodes, read, rules⟩ := Option.map_eq_some_iff.1 rules
  obtain ⟨n, rest, rfl, rule, none⟩ := List.map_eq_cons_iff.1 rules
  obtain rfl := List.map_eq_nil_iff.1 none
  exact ⟨n, toOption_eq_some_iff.1 read, rule⟩

/-- Between an opening and an expense, the price of a share of `ACME` is one entry more, and one of `3M` is
refused. -/
theorem parse_of_acmeLine :
    (∃ j i i' pre post d, j.items = pre ++ i :: post ∧
      i.IsWithEntry ⟨⟨"check", 1⟩, []⟩ ⟨⟨.equity, "broker"⟩, .sharePrice "ACME" ⟨d, .eur⟩, ⟨⟨"check", 3⟩, []⟩⟩ i' ∧
      Journal.parse (openingLines ++ ((checkLines ++ checkEnd) ++ groceryLines)) = .ok j ∧
      Journal.parse (openingLines ++ ((checkLines ++ priceLine "ACME" :: checkEnd) ++ groceryLines))
        = .ok ⟨pre ++ i' :: post, j.notices⟩) ∧
      Journal.parse (openingLines ++ ((checkLines ++ priceLine "3M" :: checkEnd) ++ groceryLines))
        = .error (Journal.refusal (openingLines ++ ((checkLines ++ priceLine "3M" :: checkEnd) ++ groceryLines))) := by
  have single : ∀ l ∈ openingLines ++ (checkLines ++ checkEnd), l.IsSingle := by decide +kernel
  obtain ⟨n, isBlock, isBalance⟩ := exists_check
  have isBefore : Journal.statements openingLines = .ok _ := statements_of_isOver (by decide +kernel)
  have isAfter : Journal.statements groceryLines = .ok _ := statements_of_isOver (by decide +kernel)
  have whole : (Journal.parse (openingLines ++ ((checkLines ++ checkEnd) ++ groceryLines))).toOption.isSome := by
    decide +kernel
  obtain ⟨j, read⟩ := Option.isSome_iff_exists.1 whole
  have read := toOption_eq_some_iff.1 read
  have number : (Decimal.ofNumber "12.50".toList).toOption.isSome := by decide +kernel
  obtain ⟨d, fits⟩ := Option.isSome_iff_exists.1 number
  have fits := toOption_eq_some_iff.1 fits
  constructor
  · have isPriced := @parse_of_priceLine checkLines checkEnd (priceLine "ACME") n _ _ "broker".toList "ACME".toList
      "12.50".toList .eur d openingLines groceryLines j single isBefore isBlock isBalance (by decide) (by decide)
      isAfter read (by decide +kernel) (by decide +kernel) (by decide +kernel) fits (by decide +kernel)
    have other : ¬ BeginsLikeAmount "ACME".toList := (beginsLikeAmount_iff (by decide)).not.2 (by decide +kernel)
    obtain ⟨i, i', pre, post, isWith, items, read'⟩ := isPriced.1 other
    exact ⟨j, i, i', pre, post, d, items, isWith, read, read'⟩
  · have isRefused := @parse_of_priceLine checkLines checkEnd (priceLine "3M") n _ _ "broker".toList "3M".toList
      "12.50".toList .eur d openingLines groceryLines j single isBefore isBlock isBalance (by decide) (by decide)
      isAfter read (by decide +kernel) (by decide +kernel) (by decide +kernel) fits (by decide +kernel)
    exact isRefused.2 ((beginsLikeAmount_iff (by decide)).2 (by decide +kernel))

/-- There are companies that a balance cannot price. -/
theorem not_priced_of_threeM :
    ¬ ∀ (above below : List Line) (line : Line) (n : Node) (account company number : List Char)
        (currency : Currency) (d : Decimal), (∀ l ∈ above ++ line :: below, l.IsPlain) → above ≠ [] → below ≠ [] →
      Journal.statements (above ++ below) = .ok [n] → n.rule = .balanceStatement →
      accountName.Accepts account → Grammar.company.Accepts company → Grammar.number.Accepts number →
      Decimal.ofNumber number = .ok d →
      line.text.toList = priceText account company number currency.code.toList →
      ∃ j b, Journal.parse (above ++ line :: below) = .ok j ∧ .balance b ∈ j.items ∧
        ⟨⟨.equity, String.ofList account⟩, .sharePrice (String.ofList company) ⟨d, currency⟩, line.location⟩
          ∈ b.entries := by
  intro whole
  obtain ⟨n, isBlock, isBalance⟩ := exists_check
  have number : (Decimal.ofNumber "12.50".toList).toOption.isSome := by decide +kernel
  obtain ⟨d, fits⟩ := Option.isSome_iff_exists.1 number
  obtain ⟨j, _, read, _⟩ := whole checkLines checkEnd (priceLine "3M") n "broker".toList "3M".toList "12.50".toList .eur d
    (by decide +kernel) (by decide) (by decide) isBlock isBalance (by decide +kernel) (by decide +kernel)
    (by decide +kernel) (toOption_eq_some_iff.1 fits) (by decide +kernel)
  have refused : (Journal.parse (checkLines ++ priceLine "3M" :: checkEnd)).toOption.isSome = false := by decide +kernel
  rw [read] at refused
  cases refused

end Daybook
