import Daybook.Journal
import Daybook.Proofs.Checked

/-!
# What is written, and what it is booked as

Reading a journal mixes two things: a statement is read, with the tags that earlier patterns give it, and
then it is booked by the rules of its keyword. Here they are apart. `Journal.written` is what the lines of
a journal say, statement by statement and without patterns; `Written.items` books one statement, looking
at nothing else. The items of a journal are what its statements are booked as, one after the other
(`allItems_written`).
-/

namespace Daybook

open Grammar (Node)

/-- What a statement says: an item, or a transaction that is still to be booked. The tags of a transaction
include those that patterns give it. -/
inductive Written where
  | item (item : Item)
  | expense (draft : Draft)
  | revenue (draft : Draft)
  | transfer (draft : Draft)
  | dividend (draft : DividendDraft)

namespace Written

/-! ### Booking -/

/-- The items that a statement is booked as. -/
def items : Written → Except Error (List Item)
  | item i => .ok [i]
  | expense d => d.expense.map fun b => b.transactions.map .transaction
  | revenue d => d.revenue.map fun b => b.transactions.map .transaction
  | transfer d => d.transfer.map fun b => b.transactions.map .transaction
  | dividend d => d.money.map fun money => (d.book money).transactions.map .transaction

/-- The items that statements are booked as, one after the other. -/
def allItems : List Written → Except Error (List Item)
  | [] => .ok []
  | w :: rest => do
    let block ← w.items
    let more ← allItems rest
    .ok (block ++ more)

/-- Every item comes from one of the statements, with whatever that is booked as. -/
theorem exists_of_mem_allItems {ws : List Written} {is : List Item} (h : allItems ws = .ok is) {i : Item}
    (mem : i ∈ is) : ∃ w ∈ ws, ∃ block, w.items = .ok block ∧ i ∈ block ∧ ∀ i' ∈ block, i' ∈ is := by
  induction ws generalizing is with
  | nil =>
    cases h
    cases mem
  | cons w rest ih =>
    simp only [allItems, bind_eq_ok_iff, Except.ok.injEq] at h
    obtain ⟨block, booked, more, later, rfl⟩ := h
    rcases List.mem_append.1 mem with mem | mem
    · exact ⟨w, List.mem_cons_self, block, booked, mem, fun i' mem' => List.mem_append_left _ mem'⟩
    · obtain ⟨w', mem', block', booked', inBlock, all⟩ := ih later mem
      refine ⟨w', List.mem_cons_of_mem _ mem', block', booked', inBlock, fun i' mem' => ?_⟩
      exact List.mem_append_right _ (all i' mem')

/-! ### Reading -/

/-- A dividend with the tags that patterns give it. -/
def tagged (patterns : List Pattern) (d : DividendDraft) (money : Money) : DividendDraft :=
  let owners := [(d.source money).owner, d.cash.owner]
  { d with tags := d.tags ++ Pattern.tagsFor patterns .dividend owners }

/-- What a statement says, after some patterns; a pattern says nothing by itself. -/
def ofNode? (lines : Array Line) (patterns : List Pattern) (n : Node) : Option Written :=
  match n.rule with
  | .setStatement => (Statement.readSetting lines n).toOption.map fun s => item (.setting s)
  | .openStatement => (Statement.readOpening lines n).toOption.map fun o => item (.opening o)
  | .closeStatement => (Statement.readClosing lines n).toOption.map fun c => item (.closing c)
  | .ratesStatement => (Statement.readRates lines n).toOption.map fun r => item (.rates r)
  | .balanceStatement => (Statement.readBalance lines n).toOption.map fun b => item (.balance b)
  | .groupStatement => (Statement.readGroup lines n).toOption.map fun g => item (.group g)
  | .expenseStatement => (Statement.readDraft lines patterns .expense n).toOption.map expense
  | .revenueStatement => (Statement.readDraft lines patterns .revenue n).toOption.map revenue
  | .transferStatement => (Statement.readDraft lines patterns .transfer n).toOption.map transfer
  | .dividendStatement => do
    let d ← (Statement.readDividendDraft lines n).toOption
    let money ← d.money.toOption
    some (dividend (tagged patterns d money))
  | _ => none

def pattern? (lines : Array Line) (n : Node) : Option Pattern :=
  if n.rule = .matchStatement then (Statement.readPattern lines n).toOption else none

/-- What statements say, each after the patterns before it. -/
def ofNodes (lines : Array Line) : List Pattern → List Node → List Written
  | _, [] => []
  | patterns, n :: rest =>
    (ofNode? lines patterns n).toList ++ ofNodes lines (patterns ++ (pattern? lines n).toList) rest

end Written

/-- What the lines of a journal say, statement by statement. -/
def Journal.written (lines : List Line) : List Written :=
  match statements lines with
  | .ok nodes => Written.ofNodes lines.toArray [] nodes
  | .error _ => []

/-! ### Reading and booking is reading a journal -/

section

variable {lines : Array Line} {patterns : List Pattern} {n : Node}

@[simp]
theorem locating_eq_ok_iff {α : Type} {result : Except Error α} {a : α} :
    Statement.locating lines n result = .ok a ↔ result = .ok a := mapError_eq_ok_iff

theorem toOption_of_ofItem {α : Type} {wrap : α → Item} {result : Except Error α} {is : List Item}
    {notices : List Notice} (h : Statement.ofItem wrap result = .ok (.items is notices)) :
    ∃ value, result.toOption = some value ∧ is = [wrap value] := by
  simp only [Statement.ofItem, map_eq_ok_iff, Statement.items.injEq] at h
  obtain ⟨value, read, rfl, _⟩ := h
  exact ⟨value, toOption_eq_some_iff.2 read, rfl⟩

theorem toOption_of_ofBooked {α : Type} {book : α → Except Error Booked} {result : Except Error α}
    {is : List Item} {notices : List Notice}
    (h : (result.bind fun d => (book d).map Statement.ofBooked) = .ok (.items is notices)) :
    ∃ d, result.toOption = some d ∧
      ((book d).map fun b => b.transactions.map Item.transaction) = .ok is := by
  simp only [except_bind_eq_ok_iff, map_eq_ok_iff, Statement.ofBooked, Statement.items.injEq] at h
  obtain ⟨d, read, b, booked, rfl, _⟩ := h
  exact ⟨d, toOption_eq_some_iff.2 read, map_eq_ok_iff.2 ⟨b, booked, rfl⟩⟩

theorem written_of_readDividend {b : Booked} (h : Statement.readDividend lines patterns n = .ok b) :
    ∃ d money, (Statement.readDividendDraft lines n).toOption = some d ∧ d.money = .ok money ∧
      b = (Written.tagged patterns d money).book money := by
  simp only [Statement.readDividend, bind_eq_ok_iff, Except.ok.injEq] at h
  obtain ⟨d, read, money, amount, rfl⟩ := h
  exact ⟨d, money, toOption_eq_some_iff.2 read, amount, rfl⟩

/-- A statement that is read as items says something that is booked as these items. -/
theorem written_of_items {is : List Item} {notices : List Notice}
    (h : Statement.ofNode lines patterns n = .ok (.items is notices)) :
    (∃ w, Written.ofNode? lines patterns n = some w ∧ w.items = .ok is) ∧
      Written.pattern? lines n = none := by
  rw [Statement.ofNode, locating_eq_ok_iff] at h
  unfold Written.ofNode? Written.pattern?
  split at h
  -- Patterns, and rules that are no statements, are not read as items.
  case h_7 => simp at h
  case h_12 => simp at h
  -- Dividends: the draft is tagged after its amount has been checked.
  case h_11 rule =>
    simp only [map_eq_ok_iff, Statement.ofBooked, Statement.items.injEq] at h
    obtain ⟨b, read, rfl, _⟩ := h
    obtain ⟨d, money, draft, amount, rfl⟩ := written_of_readDividend read
    have amount' : (Written.tagged patterns d money).money = .ok money := amount
    refine ⟨⟨.dividend (Written.tagged patterns d money), ?_, ?_⟩, by simp [rule]⟩
    · simp [rule, draft, toOption_eq_some_iff.2 amount]
    · simp [Written.items, amount']
  -- Expenses, revenues and transfers are tagged when they are read.
  case h_8 rule | h_9 rule | h_10 rule =>
    obtain ⟨d, read, booked⟩ := toOption_of_ofBooked h
    simp only [rule, read, Option.map_some]
    exact ⟨⟨_, rfl, booked⟩, rfl⟩
  all_goals
    rename_i rule
    obtain ⟨value, read, rfl⟩ := toOption_of_ofItem h
    simp only [rule, read, Option.map_some]
    exact ⟨⟨_, rfl, rfl⟩, rfl⟩

theorem pattern_of_pattern {p : Pattern} (h : Statement.ofNode lines patterns n = .ok (.pattern p)) :
    Written.ofNode? lines patterns n = none ∧ Written.pattern? lines n = some p := by
  rw [Statement.ofNode, locating_eq_ok_iff] at h
  unfold Written.ofNode? Written.pattern?
  split at h
  case h_7 rule =>
    simp only [map_eq_ok_iff, Statement.pattern.injEq] at h
    obtain ⟨p, read, rfl⟩ := h
    simp [rule, toOption_eq_some_iff.2 read]
  all_goals simp [Statement.ofItem, Statement.ofBooked] at h

/-- Statements that are read as a journal say what is booked as its items. -/
theorem allItems_ofNodes {nodes : List Node} {j : Journal}
    (h : Journal.ofStatements lines patterns nodes = .ok j) :
    Written.allItems (Written.ofNodes lines patterns nodes) = .ok j.items := by
  induction nodes generalizing patterns j with
  | nil =>
    cases h
    rfl
  | cons n rest ih =>
    simp only [Journal.ofStatements, bind_eq_ok_iff] at h
    obtain ⟨statement, read, h⟩ := h
    cases statement with
    | items is notices =>
      simp only [bind_eq_ok_iff, Except.ok.injEq] at h
      obtain ⟨later, h, rfl⟩ := h
      obtain ⟨⟨w, said, booked⟩, noPattern⟩ := written_of_items read
      simp [Written.ofNodes, said, noPattern, Written.allItems, booked, ih h]
    | pattern p =>
      simp only [bind_eq_ok_iff, Except.ok.injEq] at h
      obtain ⟨later, h, rfl⟩ := h
      obtain ⟨nothing, isPattern⟩ := pattern_of_pattern read
      simp [Written.ofNodes, nothing, isPattern, ih h]

end

theorem written_of_statements {lines : List Line} {nodes : List Node}
    (h : Journal.statements lines = .ok nodes) :
    Journal.written lines = Written.ofNodes lines.toArray [] nodes := by
  unfold Journal.written
  rw [h]

/-- **Reading a journal is reading its statements, and booking each.** -/
theorem allItems_written {lines : List Line} {j : Journal} (h : Journal.parse lines = .ok j) :
    Written.allItems (Journal.written lines) = .ok j.items := by
  rw [Journal.parse, except_bind_eq_ok_iff] at h
  obtain ⟨nodes, read, h⟩ := h
  rw [written_of_statements read]
  exact allItems_ofNodes h

end Daybook
