import Daybook.Proofs.Journal.Booked
import Daybook.Proofs.Journal.Composition
import Daybook.Proofs.Statement.Tagging

/-!
# Whether a transfer is accepted

A transfer stands in a ledger, after statements that have been read. `TransferIn.IsAccepted` says that the ledger
is read up to and with it, and `TransferIn.Emits` which items it adds. A ledger is read exactly if each of its
transfers is accepted and what comes after it is read too (`TransferIn.exists_parse_iff`). Whether a transfer is
accepted is up to its draft, with the tags that earlier patterns give it (`TransferIn.isAccepted_iff`).
-/

namespace Daybook

open Grammar (Node)

/-- A transfer with its own tags and then those that patterns give it. -/
def Draft.taggedBy (d : Draft) (patterns : List Pattern) : Draft :=
  { d with tags := d.tags ++ Pattern.tagsFor patterns .transfer (d.legs.map Leg.owner) }

namespace Journal

theorem followedBy_inj {j a b : Journal} : j.followedBy a = j.followedBy b ↔ a = b := by
  obtain ⟨items, notices⟩ := a
  obtain ⟨items', notices'⟩ := b
  simp only [followedBy, mk.injEq, List.append_cancel_left_eq]

/-- Where statements are read, those in front are. -/
theorem exists_of_ofStatements_append {all : Array Line} {patterns : List Pattern} {nodes more : List Node}
    {j : Journal} (read : ofStatements all patterns (nodes ++ more) = .ok j) :
    ∃ earlier, ofStatements all patterns nodes = .ok earlier := by
  induction nodes generalizing patterns j with
  | nil => exact ⟨_, rfl⟩
  | cons n rest ih =>
    rw [List.cons_append, ofStatements, bind_eq_ok_iff] at read
    obtain ⟨statement, isStatement, read⟩ := read
    rw [ofStatements]
    cases statement with
    | items is notices =>
      obtain ⟨later, read, -⟩ := bind_eq_ok_iff.1 read
      obtain ⟨earlier, read⟩ := ih read
      exact ⟨_, bind_eq_ok_iff.2 ⟨_, isStatement, bind_eq_ok_iff.2 ⟨earlier, read, rfl⟩⟩⟩
    | pattern p =>
      obtain ⟨later, read, -⟩ := bind_eq_ok_iff.1 read
      obtain ⟨earlier, read⟩ := ih read
      exact ⟨_, bind_eq_ok_iff.2 ⟨_, isStatement, bind_eq_ok_iff.2 ⟨earlier, read, rfl⟩⟩⟩

/-- A transfer in a ledger, whose parts can be read, after statements that have been read. -/
structure TransferIn (lines : List Line) where
  before : List Node
  node : Node
  after : List Node
  /-- What the statements before it mean. -/
  earlier : Journal
  /-- The transfer as it is written, with its own tags only. -/
  own : Draft
  isStatement : statements lines = .ok (before ++ node :: after)
  isTransfer : node.rule = .transferStatement
  read_before : ofStatements lines.toArray [] before = .ok earlier
  read_own : Statement.readDraft lines.toArray [] .transfer node = .ok own

namespace TransferIn

variable {lines : List Line} (t : TransferIn lines) {is : List Item}

/-- The patterns before the transfer. -/
def patterns : List Pattern := patternsOf lines.toArray t.before

/-- The transfer with its own tags and then those that patterns give it. -/
def draft : Draft := t.own.taggedBy t.patterns

/-- The ledger is read up to the transfer and with it, and the transfer adds these items. -/
def Emits (is : List Item) : Prop :=
  ∃ notices, ofStatements lines.toArray [] (t.before ++ [t.node]) = .ok (t.earlier.followedBy ⟨is, notices⟩)

def IsAccepted : Prop := ∃ is, t.Emits is

theorem readDraft_eq : Statement.readDraft lines.toArray t.patterns .transfer t.node = .ok t.draft := by
  rw [readDraft_eq_map, t.read_own]
  rfl

theorem complete : ∀ leg ∈ t.draft.legs, leg.Complete := complete_of_readDraft t.readDraft_eq

/-- What comes after the earlier statements is read with their patterns. -/
theorem ofStatements_eq (nodes : List Node) : ofStatements lines.toArray [] (t.before ++ nodes)
    = (ofStatements lines.toArray t.patterns nodes).map t.earlier.followedBy :=
  ofStatements_append_of_ok t.read_before nodes

/-- The transfer is booked, and what comes after it is read. -/
theorem ofStatements_node (nodes : List Node) : ofStatements lines.toArray t.patterns (t.node :: nodes)
    = (Statement.locating lines.toArray t.node t.draft.transfer).bind fun b =>
        (ofStatements lines.toArray t.patterns nodes).map
          (followedBy ⟨b.transactions.map .transaction, b.notices⟩) := by
  have read : Statement.ofNode lines.toArray t.patterns t.node
      = Statement.locating lines.toArray t.node (t.draft.transfer.map Statement.ofBooked) := by
    rw [Statement.ofNode, t.isTransfer]
    dsimp only
    rw [t.readDraft_eq]
    rfl
  rw [ofStatements, read]
  cases t.draft.transfer with
  | error e => rfl
  | ok b =>
    show ((ofStatements lines.toArray t.patterns nodes).bind fun later =>
      .ok (followedBy ⟨b.transactions.map .transaction, b.notices⟩ later)) = _
    cases ofStatements lines.toArray t.patterns nodes <;> rfl

/-- The items of a transfer are the transactions that its draft is booked as. -/
theorem emits_iff : t.Emits is ↔ ∃ b, t.draft.transfer = .ok b ∧ b.transactions.map .transaction = is := by
  rw [Emits, t.ofStatements_eq, t.ofStatements_node]
  simp only [ofStatements, map_eq_ok_iff, except_bind_eq_ok_iff, locating_eq_ok_iff, Except.ok.injEq]
  constructor
  · rintro ⟨notices, j, ⟨b, booked, _, rfl, rfl⟩, same⟩
    have same := (Journal.mk.inj (followedBy_inj.1 same)).1
    rw [List.append_nil] at same
    exact ⟨b, booked, same⟩
  · rintro ⟨b, booked, rfl⟩
    refine ⟨b.notices, _, ⟨b, booked, _, rfl, rfl⟩, followedBy_inj.2 ?_⟩
    simp only [followedBy, List.append_nil]

/-- **A transfer is accepted if its draft is booked.** -/
theorem isAccepted_iff : t.IsAccepted ↔ ∃ b, t.draft.transfer = .ok b := by
  simp only [IsAccepted, t.emits_iff]
  constructor
  · rintro ⟨_, b, booked, -⟩
    exact ⟨b, booked⟩
  · rintro ⟨b, booked⟩
    exact ⟨_, b, booked, rfl⟩

/-- **A ledger is read if its transfer is accepted and what comes after it is read.** -/
theorem exists_parse_iff : (∃ j, parse lines = .ok j) ↔
    t.IsAccepted ∧ ∃ later, ofStatements lines.toArray t.patterns t.after = .ok later := by
  rw [t.isAccepted_iff, parse, t.isStatement]
  show (∃ j, ofStatements lines.toArray [] (t.before ++ t.node :: t.after) = .ok j) ↔ _
  rw [t.ofStatements_eq, t.ofStatements_node]
  simp only [map_eq_ok_iff, except_bind_eq_ok_iff, locating_eq_ok_iff]
  constructor
  · rintro ⟨_, _, ⟨b, booked, later, read, -⟩, -⟩
    exact ⟨⟨b, booked⟩, later, read⟩
  · rintro ⟨⟨b, booked⟩, later, read⟩
    exact ⟨_, _, ⟨b, booked, later, read, rfl⟩, rfl⟩

end TransferIn

/-- Every transfer of a ledger that is read is accepted. -/
theorem exists_transferIn {lines : List Line} {j : Journal} {nodes : List Node} {n : Node}
    (read : parse lines = .ok j) (isLedger : statements lines = .ok nodes) (mem : n ∈ nodes)
    (isTransfer : n.rule = .transferStatement) : ∃ t : TransferIn lines, t.node = n ∧ t.IsAccepted := by
  obtain ⟨before, after, rfl⟩ := List.append_of_mem mem
  -- What is read as a whole is read up to the transfer, and so is the transfer itself.
  have all := read
  rw [parse, isLedger] at all
  change ofStatements lines.toArray [] (before ++ n :: after) = .ok j at all
  obtain ⟨earlier, read_before⟩ := exists_of_ofStatements_append all
  rw [ofStatements_append_of_ok read_before, map_eq_ok_iff] at all
  obtain ⟨_, all, -⟩ := all
  rw [ofStatements, bind_eq_ok_iff] at all
  obtain ⟨_, isStatement, -⟩ := all
  rw [Statement.ofNode, isTransfer, locating_eq_ok_iff] at isStatement
  obtain ⟨d, draft, -⟩ := except_bind_eq_ok_iff.1 isStatement
  rw [readDraft_eq_map, map_eq_ok_iff] at draft
  obtain ⟨own, read_own, -⟩ := draft
  let t : TransferIn lines := ⟨before, n, after, earlier, own, isLedger, isTransfer, read_before, read_own⟩
  exact ⟨t, rfl, (t.exists_parse_iff.1 ⟨j, read⟩).1⟩

/-- The patterns before a statement and the transfer that it is, with its own tags only. -/
def transferAt? (lines : List Line) (i : Nat) : Option (List Pattern × Draft) := do
  let nodes ← (statements lines).toOption
  let n ← nodes[i]?
  let _ ← (ofStatements lines.toArray [] (nodes.take i)).toOption
  if n.rule = .transferStatement then
    let own ← (Statement.readDraft lines.toArray [] .transfer n).toOption
    some (patternsOf lines.toArray (nodes.take i), own)
  else
    none

/-- A statement that is found to be a transfer is one in the ledger. -/
theorem exists_of_transferAt? {lines : List Line} {i : Nat} {patterns : List Pattern} {own : Draft}
    (h : transferAt? lines i = some (patterns, own)) :
    ∃ t : TransferIn lines, t.patterns = patterns ∧ t.own = own := by
  simp only [transferAt?, Option.bind_eq_bind, Option.bind_eq_some_iff, toOption_eq_some_iff] at h
  obtain ⟨nodes, isLedger, n, found, earlier, read_before, h⟩ := h
  split at h
  · next isTransfer =>
    simp only [Option.bind_eq_some_iff, toOption_eq_some_iff, Option.some.injEq, Prod.mk.injEq] at h
    obtain ⟨own, read_own, rfl, rfl⟩ := h
    obtain ⟨inside, rfl⟩ := List.getElem?_eq_some_iff.1 found
    have split : nodes = nodes.take i ++ nodes[i] :: nodes.drop (i + 1) := by
      rw [List.getElem_cons_drop, List.take_append_drop]
    exact ⟨⟨_, _, _, earlier, own, isLedger.trans (congrArg _ split), isTransfer, read_before, read_own⟩, rfl, rfl⟩
  · cases h

end Journal

end Daybook
