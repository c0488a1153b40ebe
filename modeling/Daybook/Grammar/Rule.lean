/-!
# Grammar rules

The rules of the ledger language that leave a node in the tree of a reading, in the order in which they
are listed when a text is refused, and their names in such a list.
-/

namespace Daybook.Grammar

/-- A named part of the ledger language. -/
inductive Rule where
  | endOfInput
  | date
  | timestamp
  | number
  | units
  | currency
  | amount
  | accountKind
  | accountName
  | owned
  | company
  | label
  | text
  | feeTag
  | sharesTag
  | intermediaryTag
  | rateTag
  | effectiveDateTag
  | calculateAsTag
  | tagName
  | tagsTag
  | flagTag
  | withBlock
  | ownedLeg
  | externalLeg
  | legs
  | setStatement
  | configKey
  | configValue
  | openStatement
  | closeStatement
  | rateLine
  | ratesStatement
  | priceEntry
  | balanceEntry
  | balanceStatement
  | expenseStatement
  | revenueStatement
  | transferStatement
  | dividendSource
  | dividendStatement
  | groupName
  | groupMember
  | groupStatement
  | txKeyword
  | matchAccount
  | matchStatement
  | ledger
  deriving DecidableEq, Repr

/-- The name under which a refusal lists a rule. -/
def Rule.name : Rule → String
  | .endOfInput => "EOI"
  | .date => "date"
  | .timestamp => "timestamp"
  | .number => "number"
  | .units => "units"
  | .currency => "currency"
  | .amount => "amount"
  | .accountKind => "account_kind"
  | .accountName => "account_name"
  | .owned => "owned"
  | .company => "company"
  | .label => "label"
  | .text => "text"
  | .feeTag => "fee_tag"
  | .sharesTag => "shares_tag"
  | .intermediaryTag => "intermediary_tag"
  | .rateTag => "rate_tag"
  | .effectiveDateTag => "effective_date_tag"
  | .calculateAsTag => "calculate_as_tag"
  | .tagName => "tag_name"
  | .tagsTag => "tags_tag"
  | .flagTag => "flag_tag"
  | .withBlock => "with_block"
  | .ownedLeg => "owned_leg"
  | .externalLeg => "external_leg"
  | .legs => "legs"
  | .setStatement => "set_statement"
  | .configKey => "config_key"
  | .configValue => "config_value"
  | .openStatement => "open_statement"
  | .closeStatement => "close_statement"
  | .rateLine => "rate_line"
  | .ratesStatement => "rates_statement"
  | .priceEntry => "price_entry"
  | .balanceEntry => "balance_entry"
  | .balanceStatement => "balance_statement"
  | .expenseStatement => "expense_statement"
  | .revenueStatement => "revenue_statement"
  | .transferStatement => "transfer_statement"
  | .dividendSource => "dividend_source"
  | .dividendStatement => "dividend_statement"
  | .groupName => "group_name"
  | .groupMember => "group_member"
  | .groupStatement => "group_statement"
  | .txKeyword => "tx_keyword"
  | .matchAccount => "match_account"
  | .matchStatement => "match_statement"
  | .ledger => "ledger"

/-- The place of a rule in the order of the rules. -/
def Rule.rank (r : Rule) : Nat := r.ctorIdx

end Daybook.Grammar
