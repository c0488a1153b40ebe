import Daybook.Transaction

/-!
# Patterns

A pattern gives its tags to every later transaction of its keyword that touches one of its accounts or
labels.
-/

namespace Daybook

/-- Tags for the transactions of a keyword with one of these owners. -/
structure Pattern where
  keyword : Keyword
  /-- Accounts and labels, as they are written. -/
  accounts : SortedSet String
  tags : Tags
  deriving DecidableEq

namespace Pattern

/-- Whether a transaction of a keyword with these owners gets the tags. -/
def isFor (p : Pattern) (keyword : Keyword) (owners : List Owner) : Bool :=
  decide (p.keyword = keyword) && owners.any fun owner => p.accounts.contains owner.text

/-- The tags that a transaction gets from patterns, earlier ones first. -/
def tagsFor (patterns : List Pattern) (keyword : Keyword) (owners : List Owner) : Tags :=
  (patterns.filter (·.isFor keyword owners)).flatMap Pattern.tags

end Pattern

end Daybook
