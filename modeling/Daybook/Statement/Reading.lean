import Daybook.Statement.Booking
import Daybook.Statement.Parts
import Daybook.Statement.Pattern

/-!
# Reading statements

What each statement that the grammar has read means. Parts are read in the order in which they are
written, and the first problem is the one that is told; a problem is located at its own line where a
statement has several, and else at the line the statement starts on.
-/

namespace Daybook

open Grammar (Node)

/-- What a statement adds to a ledger: items, or a pattern for later statements. -/
inductive Statement where
  | items (items : List Item) (notices : List Notice := [])
  | pattern (pattern : Pattern)
  deriving DecidableEq

namespace Statement

/-- A result, with its problem located at the part `n` unless it is located already. -/
def locating {α : Type} (lines : Array Line) (n : Node) (result : Except Error α) : Except Error α :=
  result.mapError (Error.locatedAt (n.location lines))

/-! ### Accounts and settings -/

def readSetting (lines : Array Line) (n : Node) : Except Error Setting :=
  match n.children with
  | key :: value :: _ => .ok ⟨key.text, Text.trimmed value.text, n.location lines⟩
  | _ => .error (.plain (.missingPart "config key"))

def readOpening (lines : Array Line) (n : Node) : Except Error Opening :=
  match n.children with
  | timestamp :: kind :: name :: money :: rest => do
    let timestamp ← plainly (Timestamp.ofNode timestamp)
    let account ← plainly (AccountRef.ofNodes kind name)
    let balance ← plainly (Money.ofNode money)
    let tags ← Tags.ofNodes lines rest
    .ok { timestamp, account, balance, tags := tags.labels, location := n.location lines }
  | _ => .error (.plain (.missingPart "timestamp"))

def readClosing (lines : Array Line) (n : Node) : Except Error Closing :=
  match n.children with
  | timestamp :: kind :: name :: _ => do
    let timestamp ← plainly (Timestamp.ofNode timestamp)
    let account ← plainly (AccountRef.ofNodes kind name)
    .ok { timestamp, account, location := n.location lines }
  | _ => .error (.plain (.missingPart "timestamp"))

def readGroup (lines : Array Line) (n : Node) : Except Error Group :=
  match n.children with
  | name :: members =>
    .ok ⟨Text.trimmed name.text, members.map fun m => Text.trimmed m.text, n.location lines⟩
  | _ => .error (.plain (.missingPart "group name"))

/-! ### Rates and balances -/

/-- Exchange rates. A line that cannot be read is told whole. -/
def readRates (lines : Array Line) (n : Node) : Except Error RateSet :=
  match n.children with
  | timestamp :: rates => do
    let timestamp ← plainly (Timestamp.ofNode timestamp)
    let rates ← rates.mapM fun rate =>
      (ExchangeRate.ofNodes rate.children).mapError fun why =>
        Error.writing (rate.location lines) (.inPart rate.text why)
    .ok { timestamp, rates, location := n.location lines }
  | _ => .error (.plain (.missingPart "timestamp"))

/-- What an entry of a balance says: the price of a share for an equity account, and an amount for any
other. -/
def readAssertion (account : AccountRef) (value : Node) : Except Problem Assertion :=
  match account.kind, value.rule, value.children with
  | .equity, .priceEntry, [company, price] => (Money.ofNode price).map (.sharePrice company.text)
  | .equity, _, _ => .error (.entryWithoutPrice account)
  | _, .amount, _ => (Money.ofNode value).map .cash
  | _, _, _ => .error (.entryWithPrice account)

def readBalanceEntry (lines : Array Line) (n : Node) : Except Error BalanceEntry :=
  match n.children with
  | [account, value] => do
    let account ← plainly (AccountRef.ofNode account)
    let assertion ← plainly (readAssertion account value)
    .ok { account, assertion, location := n.location lines }
  | _ => .error (.plain (.missingPart "balance"))

def readBalance (lines : Array Line) (n : Node) : Except Error BalanceAssertion :=
  match n.children with
  | timestamp :: entries => do
    let timestamp ← plainly (Timestamp.ofNode timestamp)
    let entries ← entries.mapM fun entry => locating lines entry (readBalanceEntry lines entry)
    .ok { timestamp, entries, location := n.location lines }
  | _ => .error (.plain (.missingPart "timestamp"))

/-! ### Transactions -/

/-- A leg: an account with an amount, or a label that does not look like an account. -/
def readLeg (lines : Array Line) (n : Node) : Except Error Leg :=
  match n.rule, n.children with
  | .ownedLeg, [account, money] => do
    let account ← plainly (AccountRef.ofNode account)
    let money ← plainly (Money.ofNode money)
    .ok (.onAccount account money (n.location lines))
  | .externalLeg, _ =>
    let label := Text.trimmed n.text
    if AccountRef.isOwned label then
      .error (.writing (n.location lines) (.legWithoutAmount label))
    else
      .ok (.outside label (n.location lines))
  | _, _ => .error (.plain (.missingPart "leg"))

/-- An expense, revenue or transfer as it is written, with the tags that patterns give it. -/
def readDraft (lines : Array Line) (patterns : List Pattern) (keyword : Keyword) (n : Node) :
    Except Error Draft :=
  match n.children with
  | timestamp :: legs :: rest => do
    let timestamp ← plainly (Timestamp.ofNode timestamp)
    let legs ← legs.children.mapM fun l => locating lines l (readLeg lines l)
    let tags ← Tags.ofNodes lines rest
    let given := Pattern.tagsFor patterns keyword (legs.map Leg.owner)
    .ok { timestamp, legs, tags := tags ++ given, location := n.location lines }
  | _ => .error (.plain (.missingPart "timestamp"))

/-- A dividend as it is written, without the tags that patterns give it. -/
def readDividendDraft (lines : Array Line) (n : Node) : Except Error DividendDraft :=
  match n.children with
  | timestamp :: source :: cash :: rest => do
    let timestamp ← plainly (Timestamp.ofNode timestamp)
    let (account, company) ← match source.children with
      | [account, company] => do
        let account ← plainly (AccountRef.ofNode account)
        .ok (account, company.text)
      | _ => .error (.plain (.missingPart "company"))
    let cash ← locating lines cash (readLeg lines cash)
    let tags ← Tags.ofNodes lines rest
    .ok
      { timestamp, account, company, sourceLocation := source.location lines, cash, tags
        location := n.location lines }
  | _ => .error (.plain (.missingPart "timestamp"))

/-- A dividend, with the tags that patterns give it. -/
def readDividend (lines : Array Line) (patterns : List Pattern) (n : Node) : Except Error Booked := do
  let d ← readDividendDraft lines n
  let money ← d.money
  let owners := [(d.source money).owner, d.cash.owner]
  let d := { d with tags := d.tags ++ Pattern.tagsFor patterns .dividend owners }
  .ok (d.book money)

/-- The items of a booked statement. -/
def ofBooked (b : Booked) : Statement := .items (b.transactions.map .transaction) b.notices

/-! ### Patterns -/

/-- A pattern for later transactions. -/
def readPattern (lines : Array Line) (n : Node) : Except Error Pattern :=
  match n.children with
  | keyword :: rest => do
    let keyword ← plainly (Keyword.ofText keyword.text)
    let accounts := rest.filter fun n => decide (n.rule = .matchAccount)
    let tags ← Tags.ofNodes lines (rest.filter fun n => decide (n.rule = .withBlock))
    .ok { keyword, accounts := .ofList (accounts.map fun n => Text.trimmed n.text), tags }
  | _ => .error (.plain (.missingPart "transaction keyword"))

/-! ### Statements -/

def ofItem {α : Type} (wrap : α → Item) (result : Except Error α) : Except Error Statement :=
  result.map fun value => .items [wrap value]

/-- The meaning of a statement, after some patterns. -/
def ofNode (lines : Array Line) (patterns : List Pattern) (n : Node) : Except Error Statement :=
  locating lines n <|
    match n.rule with
    | .setStatement => ofItem .setting (readSetting lines n)
    | .openStatement => ofItem .opening (readOpening lines n)
    | .closeStatement => ofItem .closing (readClosing lines n)
    | .ratesStatement => ofItem .rates (readRates lines n)
    | .balanceStatement => ofItem .balance (readBalance lines n)
    | .groupStatement => ofItem .group (readGroup lines n)
    | .matchStatement => (readPattern lines n).map .pattern
    | .expenseStatement =>
      (readDraft lines patterns .expense n).bind fun d => d.expense.map ofBooked
    | .revenueStatement =>
      (readDraft lines patterns .revenue n).bind fun d => d.revenue.map ofBooked
    | .transferStatement =>
      (readDraft lines patterns .transfer n).bind fun d => d.transfer.map ofBooked
    | .dividendStatement => (readDividend lines patterns n).map ofBooked
    | _ => .error (.plain (.missingPart "statement"))

end Statement

end Daybook
