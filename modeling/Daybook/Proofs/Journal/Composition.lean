import Daybook.Proofs.Grammar.Blocks
import Daybook.Proofs.Journal.Written
import Daybook.Proofs.Source.Lines
import Daybook.Proofs.Statement.Alike

/-!
# Journals one after another

The lines of a ledger that has no pattern in it, with more lines after them, are read as the ledger and then
as those lines are read alone (`parse_append`). Three things come together. The blocks of the text are those
of both texts, with other line numbers in the second (`statements_append`). The numbers stand for the same
lines as before, so each statement means the same. And without a pattern no statement has a part in what
later ones mean (`ofStatements_append`).
-/

namespace Daybook

open Grammar (Cursor Node block)

variable {a b lines : List Line}

/-! ### Lines -/

theorem joined_cons (l : Line) (ls : List Line) :
    Journal.joined (l :: ls) = l.text.toList ++ '\n' :: Journal.joined ls := by
  rw [Journal.joined, List.flatMap_cons, List.append_assoc]
  rfl

theorem joined_append (a b : List Line) : Journal.joined (a ++ b) = Journal.joined a ++ Journal.joined b :=
  List.flatMap_append

theorem isOpen_joined (h : Journal.joined lines ≠ []) : (Cursor.start (Journal.joined lines)).IsOpen := by
  rcases List.eq_nil_or_concat lines with rfl | ⟨before, last, rfl⟩
  · exact absurd rfl h
  · show (Journal.joined (before.concat last)).getLast? = some '\n'
    rw [List.concat_eq_append, joined_append, Journal.joined, Journal.joined, List.flatMap_singleton,
      ← List.append_assoc, List.getLast?_concat]

/-- Single lines are as many as the text has line feeds. -/
theorem count_joined (single : ∀ l ∈ lines, l.IsSingle) :
    (Journal.joined lines).count '\n' = lines.length := by
  induction lines with
  | nil => rfl
  | cons l rest ih =>
    have inLine : l.text.toList.count '\n' = 0 := List.count_eq_zero.2 (single l List.mem_cons_self)
    have later := ih fun l mem => single l (List.mem_cons_of_mem _ mem)
    rw [Journal.joined] at later ⊢
    rw [List.flatMap_cons, List.count_append, List.count_append, inLine, later, List.length_cons]
    simp [Nat.add_comm]

/-- The lines of the first text keep their numbers. -/
theorem samePlace_append_left (some : a ≠ []) {n : Nat} (h : n < 1 + a.length) :
    SamePlace a.toArray (a ++ b).toArray n n := by
  have := List.length_pos_iff.2 some
  have isFirst : min (n - 1) (a.length - 1) = n - 1 := by omega
  have isFirst' : min (n - 1) ((a ++ b).length - 1) = n - 1 := by
    rw [List.length_append]
    omega
  have same : (a ++ b)[n - 1]? = a[n - 1]? := List.getElem?_append_left (by omega)
  simp only [SamePlace, locationOf, List.getElem?_toArray, List.size_toArray, isFirst, isFirst', same]

/-- The numbers of the lines of the second text are greater by the number of lines before it. -/
theorem samePlace_append_right (some : b ≠ []) {n : Nat} (counted : 1 ≤ n) :
    SamePlace b.toArray (a ++ b).toArray n (n + a.length) := by
  have := List.length_pos_iff.2 some
  have later : min (n + a.length - 1) ((a ++ b).length - 1)
      = a.length + min (n - 1) (b.length - 1) := by
    rw [List.length_append]
    omega
  have same : (a ++ b)[a.length + min (n - 1) (b.length - 1)]? = b[min (n - 1) (b.length - 1)]? := by
    rw [List.getElem?_append_right (Nat.le_add_right _ _), Nat.add_sub_cancel_left]
  simp only [SamePlace, locationOf, List.getElem?_toArray, List.size_toArray, later, same]

/-! ### Statements -/

/-- The blocks that lines are read as, and the place after them. -/
def Journal.blocks (lines : List Line) : Grammar.Reading := block.readAll (Cursor.start (joined lines))

/-- The parts of a ledger that are statements. -/
def Journal.statementsIn (nodes : List Node) : List Node :=
  nodes.filter fun n => decide (n.rule ≠ .endOfInput)

theorem statementsIn_alike {all all' : Array Line} {nodes nodes' : List Node}
    (alike : List.Forall₂ (AlikeIn all all') nodes nodes') :
    List.Forall₂ (AlikeIn all all') (Journal.statementsIn nodes) (Journal.statementsIn nodes') :=
  filter_alike (fun r => decide (r ≠ .endOfInput)) alike

/-- Lines are a ledger if their blocks are all there is. -/
theorem statements_of_isOver (isOver : (Journal.blocks lines).2.IsOver) :
    Journal.statements lines = .ok (Journal.statementsIn (Journal.blocks lines).1) := by
  obtain ⟨line, text, last, stop, isLast, read⟩ := Grammar.read_ledger_of_isOver isOver
  unfold Journal.statements
  simp [read, isLast, Node.children, Journal.statementsIn, Journal.blocks]

theorem statements_of_not_isOver (left : ¬ (Journal.blocks lines).2.IsOver) :
    Journal.statements lines = .error (Journal.refusal lines) := by
  unfold Journal.statements
  rw [Grammar.read_ledger_eq_none left]

theorem statements_eq_ok_iff {nodes : List Node} :
    Journal.statements lines = .ok nodes ↔
      (Journal.blocks lines).2.IsOver ∧ Journal.statementsIn (Journal.blocks lines).1 = nodes := by
  by_cases isOver : (Journal.blocks lines).2.IsOver
  · simp [statements_of_isOver isOver, isOver]
  · simp [statements_of_not_isOver isOver, isOver]

/-- The blocks of a ledger with more lines after it are those of the ledger and those of the lines, and each
is on a line with the same location as before. -/
theorem blocks_append (single : ∀ l ∈ a, l.IsSingle) (some : a ≠ []) (more : b ≠ [])
    (isOver : (Journal.blocks a).2.IsOver) :
    List.Forall₂ (AlikeIn a.toArray (a ++ b).toArray) (Journal.blocks a).1 (Journal.blocks a).1 ∧
      ∃ nodes, List.Forall₂ (AlikeIn b.toArray (a ++ b).toArray) (Journal.blocks b).1 nodes ∧
        (Journal.blocks (a ++ b)).1 = (Journal.blocks a).1 ++ nodes ∧
        ((Journal.blocks (a ++ b)).2.IsOver ↔ (Journal.blocks b).2.IsOver) := by
  have later (n : Nat) (counted : 1 ≤ n) :
      SamePlace b.toArray (a ++ b).toArray n (n + (Journal.joined a).count '\n') := by
    rw [count_joined single]
    exact samePlace_append_right more counted
  obtain ⟨before, nodes, alike, extended⟩ :=
    Grammar.readAll_block_append isOpen_joined isOver later (Journal.joined b)
  rw [count_joined single] at before extended
  rw [← joined_append] at extended
  have same : Journal.blocks (a ++ b) = _ := extended
  refine ⟨List.forall₂_same.2 fun n mem => ?_, nodes, alike, by rw [same]; rfl, ?_⟩
  · exact (before n mem).alike fun _ lt => samePlace_append_left some lt
  · obtain ⟨passed, led⟩ := Grammar.Expr.leads_readAll block (Cursor.start (Journal.joined b))
    rw [same]
    exact Grammar.isOver_shift _ _ (led.line ▸ Nat.le_add_right 1 _)

/-- **The statements of a ledger with more lines after it** are those of the ledger and those of the lines. -/
theorem statements_append (single : ∀ l ∈ a, l.IsSingle) (some : a ≠ []) (more : b ≠ []) {nodes : List Node}
    (read : Journal.statements a = .ok nodes) :
    List.Forall₂ (AlikeIn a.toArray (a ++ b).toArray) nodes nodes ∧
      (∀ nodes', Journal.statements b = .ok nodes' →
        ∃ nodes'', List.Forall₂ (AlikeIn b.toArray (a ++ b).toArray) nodes' nodes'' ∧
          Journal.statements (a ++ b) = .ok (nodes ++ nodes'')) ∧
      ∀ e, Journal.statements b = .error e → ∃ e', Journal.statements (a ++ b) = .error e' := by
  obtain ⟨isOver, rfl⟩ := statements_eq_ok_iff.1 read
  obtain ⟨alike, nodes', alike', same, isOver_iff⟩ := blocks_append single some more isOver
  refine ⟨statementsIn_alike alike, fun later read => ?_, fun e failed => ?_⟩
  · obtain ⟨isOver', rfl⟩ := statements_eq_ok_iff.1 read
    refine ⟨Journal.statementsIn nodes', statementsIn_alike alike', ?_⟩
    rw [statements_of_isOver (isOver_iff.2 isOver'), same, Journal.statementsIn, List.filter_append]
    rfl
  · have left : ¬ (Journal.blocks b).2.IsOver := fun isOver' => by
      rw [statements_of_isOver isOver'] at failed
      cases failed
    exact ⟨_, statements_of_not_isOver fun isOver' => left (isOver_iff.1 isOver')⟩

/-! ### What they mean -/

/-- No statement of the ledger gives tags to later ones. -/
def Journal.HasNoPattern (lines : List Line) : Prop :=
  ∀ nodes, statements lines = .ok nodes → ∀ n ∈ nodes, n.rule ≠ .matchStatement

instance (lines : List Line) : Decidable (Journal.HasNoPattern lines) :=
  match h : Journal.statements lines with
  | .ok nodes =>
    decidable_of_iff (∀ n ∈ nodes, n.rule ≠ .matchStatement) (by simp [Journal.HasNoPattern, h])
  | .error _ => isTrue (by simp [Journal.HasNoPattern, h])

/-- One journal after another. -/
def Journal.followedBy (j later : Journal) : Journal := ⟨j.items ++ later.items, j.notices ++ later.notices⟩

theorem followedBy_followedBy (j j' later : Journal) :
    (j.followedBy j').followedBy later = j.followedBy (j'.followedBy later) := by
  simp only [Journal.followedBy, List.append_assoc]

/-- The patterns that statements give to later ones. -/
def Journal.patternsOf (all : Array Line) (nodes : List Node) : List Pattern :=
  nodes.filterMap (Written.pattern? all)

/-- What statements mean after others depends on these by their patterns only. -/
theorem ofStatements_append_of_ok {all : Array Line} {patterns : List Pattern} {nodes : List Node} {j : Journal}
    (read : Journal.ofStatements all patterns nodes = .ok j) (more : List Node) :
    Journal.ofStatements all patterns (nodes ++ more)
      = (Journal.ofStatements all (patterns ++ Journal.patternsOf all nodes) more).map j.followedBy := by
  induction nodes generalizing patterns j with
  | nil =>
    cases read
    rw [Journal.patternsOf, List.filterMap_nil, List.append_nil]
    exact (congrFun Except.map_id _).symm
  | cons n rest ih =>
    rw [Journal.ofStatements, bind_eq_ok_iff] at read
    obtain ⟨statement, isStatement, read⟩ := read
    rw [List.cons_append, Journal.ofStatements, isStatement]
    cases statement with
    | items is notices =>
      simp only [bind_eq_ok_iff, Except.ok.injEq] at read
      obtain ⟨later, read, rfl⟩ := read
      have none : Journal.patternsOf all (n :: rest) = Journal.patternsOf all rest :=
        List.filterMap_cons_none (written_of_items isStatement).2
      show ((Journal.ofStatements all patterns (rest ++ more)).bind fun later =>
        .ok (Journal.followedBy ⟨is, notices⟩ later)) = _
      rw [ih read, none]
      cases Journal.ofStatements all (patterns ++ Journal.patternsOf all rest) more with
      | error e => rfl
      | ok j' => exact congrArg Except.ok (followedBy_followedBy ⟨is, notices⟩ later j').symm
    | pattern p =>
      simp only [bind_eq_ok_iff, Except.ok.injEq] at read
      obtain ⟨later, read, rfl⟩ := read
      have one : Journal.patternsOf all (n :: rest) = p :: Journal.patternsOf all rest :=
        List.filterMap_cons_some (pattern_of_pattern isStatement).2
      show ((Journal.ofStatements all (patterns ++ [p]) (rest ++ more)).bind fun later =>
        .ok (Journal.followedBy ⟨[], [.patternRegistered p.keyword p.accounts.toList]⟩ later)) = _
      rw [ih read, one, List.append_assoc, List.singleton_append]
      cases Journal.ofStatements all (patterns ++ p :: Journal.patternsOf all rest) more with
      | error e => rfl
      | ok j' =>
        exact congrArg Except.ok
          (followedBy_followedBy ⟨[], [.patternRegistered p.keyword p.accounts.toList]⟩ later j').symm

/-- Without a pattern, what statements mean does not depend on those before them. -/
theorem ofStatements_append {all : Array Line} {patterns : List Pattern} {nodes : List Node} {j : Journal}
    (noPattern : ∀ n ∈ nodes, n.rule ≠ .matchStatement)
    (read : Journal.ofStatements all patterns nodes = .ok j) (more : List Node) :
    Journal.ofStatements all patterns (nodes ++ more)
      = (Journal.ofStatements all patterns more).map j.followedBy := by
  have none : Journal.patternsOf all nodes = [] :=
    List.filterMap_eq_nil_iff.2 fun n mem => if_neg (noPattern n mem)
  rw [ofStatements_append_of_ok read, none, List.append_nil]

theorem parse_nil : Journal.parse [] = .ok ⟨[], []⟩ := by decide +kernel

/-- What the lines after a ledger without patterns are read as, or why they are not, does not depend on it. -/
theorem parse_append_eq_map {j : Journal} {nodes : List Node} (single : ∀ l ∈ a, l.IsSingle) (some : a ≠ [])
    (more : b ≠ []) (read : Journal.parse a = .ok j) (noPattern : Journal.HasNoPattern a)
    (isLedger : Journal.statements b = .ok nodes) :
    Journal.parse (a ++ b) = (Journal.parse b).map j.followedBy := by
  rw [Journal.parse, except_bind_eq_ok_iff] at read
  obtain ⟨own, isLedger', read⟩ := read
  obtain ⟨alike, both, _⟩ := statements_append single some more isLedger'
  obtain ⟨nodes', alike', same⟩ := both nodes isLedger
  rw [Journal.ofStatements_eq_of_alike alike] at read
  have after := ofStatements_append (noPattern own isLedger') read nodes'
  rw [← Journal.ofStatements_eq_of_alike alike'] at after
  rw [Journal.parse, Journal.parse, same, isLedger]
  exact after

/-- **Journals one after another.** The lines of a ledger without patterns, with more lines after them, are
read as the items of the ledger and then those of the lines, with the same locations; and they are not read
if the lines alone are not. The lines that a source expands to are single (`isSingle_of_ofFile`). -/
theorem parse_append {j : Journal} (single : ∀ l ∈ a, l.IsSingle) (read : Journal.parse a = .ok j)
    (noPattern : Journal.HasNoPattern a) :
    (∀ j', Journal.parse b = .ok j' →
      Journal.parse (a ++ b) = .ok ⟨j.items ++ j'.items, j.notices ++ j'.notices⟩) ∧
      ∀ e, Journal.parse b = .error e → ∃ e', Journal.parse (a ++ b) = .error e' := by
  by_cases some : a = []
  · subst some
    obtain rfl : Journal.mk [] [] = j := Except.ok.inj (parse_nil.symm.trans read)
    exact ⟨fun j' read' => read', fun e failed => ⟨e, failed⟩⟩
  by_cases more : b = []
  · subst more
    rw [List.append_nil, parse_nil]
    refine ⟨fun j' read' => ?_, fun e failed => by cases failed⟩
    obtain rfl : Journal.mk [] [] = j' := Except.ok.inj read'
    simpa using read
  cases isLedger : Journal.statements b with
  | ok nodes =>
    rw [parse_append_eq_map single some more read noPattern isLedger]
    refine ⟨fun j' read' => ?_, fun e failed => ?_⟩
    · rw [read']
      rfl
    · exact ⟨e, by rw [failed]; rfl⟩
  | error e =>
    rw [Journal.parse, Journal.parse, isLedger]
    refine ⟨fun j' read' => (by cases read'), fun _ _ => ?_⟩
    obtain ⟨own, isLedger', _⟩ := except_bind_eq_ok_iff.1 read
    obtain ⟨e', failed⟩ := (statements_append single some more isLedger').2.2 e isLedger
    exact ⟨e', by rw [failed]; rfl⟩

/-- The lines of a ledger that opens an account. -/
def openingLines : List Line :=
  ["open account 2021-01-01 asset bank", "balance: 5000 USD", "end"].zipIdx.map fun (text, i) =>
    ⟨text, ⟨⟨"opening", i + 1⟩, []⟩⟩

/-- The lines of a ledger with an expense from that account. -/
def groceryLines : List Line :=
  ["ex 2021-01-02", "asset/bank -5 USD", "grocer", "end"].zipIdx.map fun (text, i) =>
    ⟨text, ⟨⟨"grocery", i + 1⟩, []⟩⟩

theorem parse_openingLines_append :
    ∃ j j', Journal.parse openingLines = .ok j ∧ Journal.parse groceryLines = .ok j' ∧
      j.items.map Item.location = [⟨⟨"opening", 1⟩, []⟩] ∧
      j'.items.map Item.location = [⟨⟨"grocery", 1⟩, []⟩] ∧
      Journal.parse (openingLines ++ groceryLines)
        = .ok ⟨j.items ++ j'.items, j.notices ++ j'.notices⟩ := by
  have first : (Journal.parse openingLines).toOption.map (fun j => j.items.map Item.location)
      = some [⟨⟨"opening", 1⟩, []⟩] := by decide +kernel
  have second : (Journal.parse groceryLines).toOption.map (fun j => j.items.map Item.location)
      = some [⟨⟨"grocery", 1⟩, []⟩] := by decide +kernel
  obtain ⟨j, read, places⟩ := Option.map_eq_some_iff.1 first
  obtain ⟨j', read', places'⟩ := Option.map_eq_some_iff.1 second
  have read := toOption_eq_some_iff.1 read
  have read' := toOption_eq_some_iff.1 read'
  have single : ∀ l ∈ openingLines, l.IsSingle := by decide
  have noPattern : Journal.HasNoPattern openingLines := by decide +kernel
  exact ⟨j, j', read, read', places, places', (parse_append single read noPattern).1 j' read'⟩

end Daybook
