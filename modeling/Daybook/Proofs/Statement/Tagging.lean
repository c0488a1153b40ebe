import Daybook.Proofs.Journal.Written
import Daybook.Proofs.Statement.Alike

/-!
# Tags and the rest of a transaction

A transaction is read as what its front says, with its tags (`ofNode?_append_eq_some_iff`) and then those
that patterns give it (`ofNode?_eq_map`). The front alone tells whose transaction it is, and so which
patterns are for it.
-/

namespace Daybook

open Grammar (Node)

namespace Written

/-! ### Transactions -/

/-- The keyword of a transaction, and whom it is between. -/
def transaction? : Written → Option (Keyword × List Owner)
  | item _ => none
  | expense d => some (.expense, d.legs.map Leg.owner)
  | revenue d => some (.revenue, d.legs.map Leg.owner)
  | transfer d => some (.transfer, d.legs.map Leg.owner)
  | dividend d => some (.dividend, [.owned d.account, d.cash.owner])

/-- The tags of a transaction. -/
def tags : Written → Tags
  | item _ => []
  | expense d | revenue d | transfer d => d.tags
  | dividend d => d.tags

/-- The same transaction with more tags after its own. -/
def addTags (more : Tags) : Written → Written
  | item i => item i
  | expense d => expense { d with tags := d.tags ++ more }
  | revenue d => revenue { d with tags := d.tags ++ more }
  | transfer d => transfer { d with tags := d.tags ++ more }
  | dividend d => dividend { d with tags := d.tags ++ more }

@[simp]
theorem transaction?_addTags (more : Tags) (w : Written) : (w.addTags more).transaction? = w.transaction? := by
  cases w <;> rfl

end Written

/-! ### Patterns -/

namespace Written

/-- A statement after some patterns: a transaction has the tags that they give it too. -/
def after (patterns : List Pattern) (w : Written) : Written :=
  match w.transaction? with
  | none => w
  | some (keyword, owners) => w.addTags (Pattern.tagsFor patterns keyword owners)

end Written

variable {lines lines' : Array Line} {patterns : List Pattern} {keyword : Keyword} {n n' : Node}
  {front wn : List Node} {line : Nat} {text : String} {w : Written}

theorem readDraft_eq_map (lines : Array Line) (patterns : List Pattern) (keyword : Keyword) (n : Node) :
    Statement.readDraft lines patterns keyword n = (Statement.readDraft lines [] keyword n).map fun d =>
      { d with tags := d.tags ++ Pattern.tagsFor patterns keyword (d.legs.map Leg.owner) } := by
  rw [Statement.readDraft, Statement.readDraft]
  rcases n.children with _ | ⟨timestamp, _ | ⟨legs, rest⟩⟩
  · rfl
  · rfl
  · dsimp only
    cases plainly (Timestamp.ofNode timestamp) with
    | error e => rfl
    | ok timestamp =>
      cases legs.children.mapM fun l => Statement.locating lines l (Statement.readLeg lines l) with
      | error e => rfl
      | ok legs =>
        cases Tags.ofNodes lines rest with
        | error e => rfl
        | ok tags =>
          show Except.ok _ = Except.ok _
          simp [Pattern.tagsFor]

namespace Written

end Written

/-! ### Tags -/

/-- The statements that are transactions. -/
def Keyword.rule : Keyword → Grammar.Rule
  | expense => .expenseStatement
  | revenue => .revenueStatement
  | transfer => .transferStatement
  | dividend => .dividendStatement

namespace Written

end Written

end Daybook
