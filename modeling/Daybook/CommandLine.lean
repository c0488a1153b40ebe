import Daybook.Report
import Daybook.Scalar

/-!
# The command line

A run reads the ledger at a path and prints its report. Options say as of when, in which currency,
whether rates from later count, and how the cost basis of a sold out position goes on.

`Arguments.parse` takes the arguments from left to right and stops at the first that is wrong.
`Run.ofArguments` is a whole run, given what there is to read.
-/

namespace Daybook

/-! ### Arguments -/

/-- What a run is asked for. -/
structure Arguments where
  book : Option String := none
  now : Option Timestamp := none
  currency : Option Currency := none
  gatedRates : Bool := false
  resetCostBasis : Bool := false
  deriving DecidableEq, Repr

inductive Request where
  /-- The report of a book. -/
  | report (book : String) (arguments : Arguments)
  | help
  /-- Nothing: the arguments are wrong. -/
  | usageError
  deriving DecidableEq, Repr

namespace Arguments

/-- The options that a computation gets, as of a time. -/
def options (a : Arguments) (now : Timestamp) : Options where
  now := now
  defaultCurrency := a.currency
  ratePolicy := if a.gatedRates then .gated else .unconditional
  costBasis := if a.resetCostBasis then .resetWhenFlat else .cumulative

def withBook (a : Arguments) (path : String) : Option Arguments :=
  if a.book.isSome || path.isEmpty then none else some { a with book := some path }

/-- The value of an option, by the name of the option. Each may be given once. -/
def withValue (a : Arguments) (name value : String) : Option Arguments :=
  if name = "--now" then
    match a.now, Timestamp.ofText value with
    | none, .ok now => some { a with now := some now }
    | _, _ => none
  else if name = "--currency" then
    match a.currency, Currency.ofCode? value with
    | none, some currency => some { a with currency := some currency }
    | _, _ => none
  else
    none

/-- An option without value. Each may be given once. -/
def withSwitch (a : Arguments) (name : String) : Option Arguments :=
  if name = "--gated-rates" ∧ !a.gatedRates then some { a with gatedRates := true }
  else if name = "--reset-cost-basis" ∧ !a.resetCostBasis then some { a with resetCostBasis := true }
  else none

def takesValue (name : String) : Bool := name == "--now" || name == "--currency"

/-- The name of an option and the value after an equals sign. -/
def assignment? (text : String) : Option (String × String) :=
  (Text.splitFirst? (· == '=') text.toList).map fun (a, b) => (String.ofList a, String.ofList b)

/-- Whether an argument is an option. A hyphen alone is a path. -/
def isOption (text : String) : Bool := text.startsWith "-" && text != "-"

/-- The end of the arguments: a book is needed. -/
def finish (a : Arguments) : Request :=
  match a.book with
  | some book => .report book a
  | none => .usageError

/-- Reads the arguments after `--`, which are all paths. -/
def parsePaths (a : Arguments) : List String → Request
  | [] => a.finish
  | path :: rest =>
    match a.withBook path with
    | some a => a.parsePaths rest
    | none => .usageError

def parseFrom (a : Arguments) : List String → Request
  | [] => a.finish
  | text :: rest =>
    if text = "--" then
      a.parsePaths rest
    else if text = "--help" ∨ text.startsWith "-h" then
      .help
    else if takesValue text then
      match rest with
      | [] => .usageError
      | value :: rest =>
        if isOption value then
          .usageError
        else
          match a.withValue text value with
          | some a => a.parseFrom rest
          | none => .usageError
    else if isOption text then
      let next := match assignment? text with
        | some (name, value) => a.withValue name value
        | none => a.withSwitch text
      match next with
      | some a => a.parseFrom rest
      | none => .usageError
    else
      match a.withBook text with
      | some a => a.parseFrom rest
      | none => .usageError

def parse (arguments : List String) : Request := parseFrom {} arguments

end Arguments

/-! ### Runs -/

/-- What a run leaves: its exit code, and what it prints. -/
structure Run where
  exitCode : Nat
  output : String
  errors : String
  deriving DecidableEq, Repr

namespace Run

def joined (lines : List String) : String := lines.foldl (fun text line => text ++ line ++ "\n") ""

def help : String :=
  joined
    ["Balances, conversions and share positions of a plain text ledger",
      "",
      "Usage: tally [OPTIONS] <BOOK>",
      "",
      "Arguments:",
      "  <BOOK>  Ledger file to read, `include`s are followed",
      "",
      "Options:",
      "      --now <NOW>            Compute as of this point in time (`YYYY-MM-DD` or `YYYY-MM-DDTHH:MM`)",
      "      --currency <CURRENCY>  Report in this currency instead of the ledger's default",
      "      --gated-rates          Skip exchange rates dated after `--now`",
      "      --reset-cost-basis     Restart the cost basis whenever a position is sold out",
      "  -h, --help                 Print help"]

def failed (lines : List String) (e : Error) : Run :=
  ⟨1, joined lines, "Error: " ++ e.message ++ "\n"⟩

/-- The report of a book as of a time. -/
def report (fs : FileSystem) (book : String) (o : Options) : Run :=
  match Journal.ofFile fs book with
  | .error e => failed [] e
  | .ok journal =>
    match (Ledger.compute o journal.items).result with
    | .error e => failed [] e
    | .ok ledger =>
      match Report.ofLedger ledger journal.items with
      | (lines, none) => ⟨0, joined lines, ""⟩
      | (lines, some e) => failed lines e

/-- The run for a request, given the time to report as of where the request has none. -/
def ofRequest (fs : FileSystem) (clock : Timestamp) : Request → Run
  | .help => ⟨0, help, ""⟩
  | .usageError => ⟨2, "", ""⟩
  | .report book a => report fs book (a.options (a.now.getD clock))

def ofArguments (fs : FileSystem) (clock : Timestamp) (arguments : List String) : Run :=
  ofRequest fs clock (Arguments.parse arguments)

end Run

end Daybook
