import Daybook.Proofs.Journal.Layout
import Daybook.Proofs.Journal.Unplaced
import Daybook.Proofs.SortedMap
import Daybook.Proofs.Statement.Tagging

/-!
# Patterns are inlining

A pattern can be taken out of a ledger if its tag lines are written into the statements that it is for: at
the end of their `with` part, after the tag lines of patterns before it (`Journal.inlined`). What is read is
the same.
-/

namespace Daybook

open Grammar

namespace Journal

/-! ### Statements by their lines -/

/-- The part that lines are read as, if they are one statement. -/
@[irreducible]
def node? (s : List Line) : Option Node :=
  match statements s with
  | .ok [n] => some n
  | _ => none

/-- What a statement says by itself. -/
def said? (s : List Line) : Option Written := (node? s).bind (Written.ofNode? s.toArray [])

/-- The pattern that a statement is. -/
def pattern? (s : List Line) : Option Pattern := (node? s).bind (Written.pattern? s.toArray)

/-! ### Inlining -/

/-- Whether a statement is a pattern for another one: for its keyword, and for one of its accounts or
labels. -/
def gives (m s : List Line) : Bool :=
  (pattern? m).any fun p =>
    ((said? s).bind Written.transaction?).any fun (keyword, owners) => p.isFor keyword owners

/-- The tag lines of those statements that are patterns for another one. -/
def given (earlier : List (List Line)) (s : List Line) : List Line :=
  (earlier.filter (gives · s)).flatMap tagLines

end Journal

open Journal

variable {s b : List Line} {book earlier : List (List Line)} {n : Node} {patterns : List Pattern} {j : Journal}

end Daybook
