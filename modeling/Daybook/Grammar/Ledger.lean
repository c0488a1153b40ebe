import Daybook.Grammar.Peg

/-!
# The ledger language

A ledger is a sequence of statements. Most are blocks: a line that starts with a keyword, lines that
belong to it, an optional `with` part for tags, and a line `end`. Spaces and tabs may stand between the
parts of a line.

`ledger` is the whole language; `amount` is also used on its own.
-/

namespace Daybook.Grammar

/-! ### Building blocks -/

def isGap (c : Char) : Bool := c == ' ' || c == '\t'

def gap : Expr := .star (.char isGap)

/-- The characters of a text. -/
def word (text : String) : Expr := .word text.toList

/-- One part after the other, with nothing between. -/
def tight : List Expr → Expr
  | [] => .word []
  | [part] => part
  | part :: parts => .seq part (tight parts)

/-- One part after the other, with gaps between. -/
def loose : List Expr → Expr
  | [] => .word []
  | [part] => part
  | part :: parts => .seq part (.seq gap (loose parts))

/-- The first of the parts that reads something. -/
def oneOf : List Expr → Expr
  | [] => .char fun _ => false
  | [part] => part
  | part :: parts => .alt part (oneOf parts)

/-- Any number of times, with gaps between. -/
def many (body : Expr) : Expr := .opt (.seq body (.star (.seq gap body)))

/-- At least one character of a class. -/
def oneOrMore (accepts : Char → Bool) : Expr := .seq (.char accepts) (.star (.char accepts))

/-- So many characters of a class. -/
def times (n : Nat) (accepts : Char → Bool) : Expr := tight (List.replicate n (.char accepts))

/-- A rule without gaps or nodes inside. -/
def token (name : Rule) (body : Expr) : Expr := .rule name .token body

/-- A rule of parts with gaps between. -/
def rule (name : Rule) (parts : List Expr) : Expr := .rule name .loose (loose parts)

/-! ### Lines -/

/-- The end of a line: a line feed, with or without a carriage return, or a carriage return alone. -/
def newline : Expr := oneOf [word "\n", word "\r\n", word "\r"]

def endOfInput : Expr := .rule .endOfInput .loose .done

def lineEnd : Expr := .alt newline (.ahead endOfInput)

def blockEnd : Expr := loose [word "end", lineEnd]

/-- A line that ends a block or starts its tags. -/
def keywordLine : Expr := loose [oneOf [word "with", word "end"], lineEnd]

def isInLine (c : Char) : Bool := c != '\n' && c != '\r'

def restOfLine (name : Rule) : Expr := token name (oneOrMore isInLine)

/-- A line that is no keyword line. -/
def labelLine (name : Rule) : Expr := rule name [.unless keywordLine, restOfLine .label]

def linesOf (line : Expr) : Expr := many (loose [line, newline])

/-! ### Scalars -/

def isDigit (c : Char) : Bool := decide ('0' ≤ c) && decide (c ≤ '9')

def isUpper (c : Char) : Bool := decide ('A' ≤ c) && decide (c ≤ 'Z')

def isLower (c : Char) : Bool := decide ('a' ≤ c) && decide (c ≤ 'z')

/-- The characters of account and company names. -/
def isNameChar (c : Char) : Bool :=
  isDigit c || isUpper c || isLower c || c == '_' || c == '-' || c == '.' || c == ':'

def isKeyChar (c : Char) : Bool := isDigit c || isUpper c || isLower c || c == '_'

def date : Expr :=
  token .date (tight [times 4 isDigit, word "-", times 2 isDigit, word "-", times 2 isDigit])

def timestamp : Expr :=
  token .timestamp
    (.seq date (.opt (tight [word "T", times 2 isDigit, word ":", times 2 isDigit])))

def number : Expr :=
  token .number (tight
    [.opt (oneOf [word "-", word "+"]), oneOrMore isDigit, .opt (.seq (word ".") (oneOrMore isDigit))])

def units : Expr := token .units (oneOrMore isDigit)

def currency : Expr := token .currency (oneOrMore isUpper)

def amount : Expr := rule .amount [number, currency]

def accountKind : Expr :=
  token .accountKind (oneOf [word "asset", word "liability", word "equity"])

def accountName : Expr := token .accountName (oneOrMore isNameChar)

def owned : Expr := .rule .owned .tight (tight [accountKind, word "/", accountName])

def company : Expr := token .company (oneOrMore isNameChar)

/-- Two currencies and what one is worth in the other. -/
def exchangeRate : List Expr := [currency, word "/", currency, number, .opt units]

/-! ### Tags -/

def tagName : Expr := token .tagName (oneOrMore fun c => c != ',' && isInLine c)

/-- The tag lines that start with a known key. -/
def keyedTag : Expr :=
  oneOf
    [rule .feeTag [word "fee:", amount],
      rule .sharesTag [word "shares:", company, number],
      rule .intermediaryTag [word "intermediary:", restOfLine .text],
      rule .rateTag (word "rate:" :: exchangeRate),
      rule .effectiveDateTag [word "effective_date:", timestamp],
      rule .calculateAsTag [word "calculate_as:", amount],
      rule .tagsTag
        [word "tags:", tagName, many (loose [word ",", tagName]), .opt (word ",")]]

def tagLine : Expr :=
  .alt (loose [keyedTag, .ahead newline])
    (rule .flagTag [.unless keywordLine, restOfLine .text])

def withBlock : Expr := rule .withBlock [word "with", newline, linesOf tagLine]

/-- The end of a block that may have tags. -/
def taggedEnd : List Expr := [.opt withBlock, blockEnd]

/-! ### Legs -/

def ownedLeg : Expr := rule .ownedLeg [owned, amount]

/-- An account with an amount, or else a label. -/
def leg : Expr := .alt (loose [ownedLeg, .ahead newline]) (labelLine .externalLeg)

def legs : Expr := rule .legs [linesOf leg]

/-! ### Statements -/

def setStatement : Expr :=
  rule .setStatement
    [word "set", token .configKey (oneOrMore isKeyChar), restOfLine .configValue, lineEnd]

def openStatement : Expr :=
  rule .openStatement
    ([word "open", word "account", timestamp, accountKind, accountName, newline,
      word "balance:", amount, newline] ++ taggedEnd)

def closeStatement : Expr :=
  rule .closeStatement
    [word "close", word "account", timestamp, accountKind, accountName, newline, blockEnd]

def ratesStatement : Expr :=
  rule .ratesStatement
    [word "currency_rates", timestamp, newline, linesOf (rule .rateLine exchangeRate), blockEnd]

/-- An account with its balance, or with the price of a share it holds. -/
def balanceEntry : Expr :=
  rule .balanceEntry [owned, .alt amount (rule .priceEntry [company, amount])]

def balanceStatement : Expr :=
  rule .balanceStatement [word "balance", timestamp, newline, linesOf balanceEntry, blockEnd]

/-- A block of legs under a keyword. -/
def legsStatement (name : Rule) (keyword : String) : Expr :=
  rule name ([word keyword, timestamp, newline, legs] ++ taggedEnd)

def dividendStatement : Expr :=
  rule .dividendStatement
    ([word "dividend", timestamp, newline, rule .dividendSource [owned, company], newline,
      ownedLeg, newline] ++ taggedEnd)

def groupStatement : Expr :=
  rule .groupStatement
    [word "group", restOfLine .groupName, newline, linesOf (labelLine .groupMember), blockEnd]

def txKeyword : Expr :=
  token .txKeyword (oneOf [word "dividend", word "ex", word "rx", word "tx"])

/-- Tags for later transactions. -/
def matchStatement : Expr :=
  rule .matchStatement
    ([word "match", txKeyword, newline, linesOf (labelLine .matchAccount)] ++ taggedEnd)

def statement : Expr :=
  oneOf
    [setStatement, openStatement, closeStatement, ratesStatement, balanceStatement,
      legsStatement .expenseStatement "ex", legsStatement .revenueStatement "rx",
      legsStatement .transferStatement "tx", dividendStatement, groupStatement, matchStatement]

def ledger : Expr := rule .ledger [.word [], many statement, endOfInput]

end Daybook.Grammar
