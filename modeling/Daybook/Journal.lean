import Daybook.Grammar.Ledger
import Daybook.Source.Expansion
import Daybook.Statement.Reading

/-!
# Journals

A journal is what the lines of a ledger mean: its items in the order in which they are written, and what
was worth telling while it was read. `Journal.parse` reads the lines of an expanded source.
-/

namespace Daybook

/-- The items of a ledger, and what was worth telling about reading them. -/
structure Journal where
  items : List Item
  notices : List Notice
  deriving DecidableEq

namespace Journal

/-- The text of lines, each with a line feed at its end. -/
def joined (lines : List Line) : List Char := lines.flatMap fun l => l.text.toList ++ ['\n']

/-- Why lines are no ledger, and where. -/
def refusal (lines : List Line) : Error :=
  let r := Grammar.ledger.refusal (joined lines)
  .writing (locationOf lines.toArray r.line) (.refused r ((lines[r.line - 1]?).map Line.text))

/-- The statements of the language that lines hold. -/
def statements (lines : List Line) : Except Error (List Grammar.Node) :=
  match Grammar.ledger.read (Grammar.Cursor.start (joined lines)) with
  | some ([ledger], _) => .ok (ledger.children.filter fun n => decide (n.rule ≠ .endOfInput))
  | _ => .error (refusal lines)

/-- Reads statements one after the other; a pattern is for those after it. -/
def ofStatements (lines : Array Line) (patterns : List Pattern) :
    List Grammar.Node → Except Error Journal
  | [] => .ok ⟨[], []⟩
  | n :: rest => do
    match ← Statement.ofNode lines patterns n with
    | .items items notices =>
      let later ← ofStatements lines patterns rest
      .ok ⟨items ++ later.items, notices ++ later.notices⟩
    | .pattern pattern =>
      let later ← ofStatements lines (patterns ++ [pattern]) rest
      let notice := Notice.patternRegistered pattern.keyword pattern.accounts.toList
      .ok { later with notices := notice :: later.notices }

/-- Reads the lines of a ledger. -/
def parse (lines : List Line) : Except Error Journal :=
  (statements lines).bind (ofStatements lines.toArray [])

def ofExpansion (expansion : Except LoadFault Source.Expansion) : Except Error Journal := do
  let source ← expansion.mapError .loading
  let journal ← parse source.lines
  .ok { journal with notices := source.skipped.map .alreadyIncluded ++ journal.notices }

/-- Reads the ledger at a path, with its includes. -/
def ofFile (fs : FileSystem) (path : String) : Except Error Journal :=
  ofExpansion (Source.ofFile fs path)

/-- Reads a ledger in memory, with its includes. -/
def ofText (fs : FileSystem) (content : String) : Except Error Journal :=
  ofExpansion (Source.ofText fs "<input>" content)

end Journal

end Daybook
