import Daybook.Grammar.Ledger
import Daybook.Scalar

/-!
# Parts of statements

How the parts that a grammar rule has read become values of the ledger. A line of the joined text is
found again among the lines that were read, so that every part has a location.
-/

namespace Daybook

open Grammar (Node)

/-! ### Locations -/

/-- The location of a line of the joined text, counted from one. Past the last line it is the last. -/
def locationOf (lines : Array Line) (number : Nat) : Location :=
  match lines[min (number - 1) (lines.size - 1)]? with
  | some line => line.location
  | none => ⟨⟨"<empty>", 0⟩, []⟩

/-- The location at which a part starts. -/
def Grammar.Node.location (n : Node) (lines : Array Line) : Location := locationOf lines n.line

/-! ### Scalars -/

/-- The number that a part spells, with or without a plus sign. -/
def Decimal.ofNode (n : Node) : Except Problem Decimal :=
  let digits := match n.text.toList with
    | '+' :: rest => rest
    | cs => cs
  (Decimal.readChars digits).mapError (.invalidNumber n.text)

def Currency.ofNode (n : Node) : Except Problem Currency := Currency.ofText n.text

def Timestamp.ofNode (n : Node) : Except Problem Timestamp := Timestamp.ofText n.text

/-- The account of a kind and a name. -/
def AccountRef.ofNodes (kind name : Node) : Except Problem AccountRef :=
  match AccountKind.ofText? kind.text with
  | some k => .ok ⟨k, name.text⟩
  | none => .error (.invalidAccount (.noKind kind.text))

def AccountRef.ofNode (n : Node) : Except Problem AccountRef :=
  match n.children with
  | [kind, name] => AccountRef.ofNodes kind name
  | _ => .error (.missingPart "account")

/-- The money that a part spells: the number is read before the currency. -/
def Money.ofNode (n : Node) : Except Problem Money :=
  match n.children with
  | [number, currency] => do
    let amount ← Decimal.ofNode number
    let currency ← Currency.ofNode currency
    .ok ⟨amount, currency⟩
  | _ => .error (.missingPart "amount")

/-- The exchange rate that parts spell; without a number of units it is for one. -/
def ExchangeRate.ofNodes (nodes : List Node) : Except Problem ExchangeRate :=
  match nodes with
  | source :: target :: rate :: units => do
    let source ← Currency.ofNode source
    let target ← Currency.ofNode target
    let rate ← Decimal.ofNode rate
    let units ← match units with
      | [] => .ok .one
      | units :: _ => Decimal.ofNode units
    if rate ≤ .zero ∨ units ≤ .zero then
      .error .rateNotPositive
    else
      match unitRate? rate units with
      | some _ => .ok ⟨⟨source, target⟩, rate, units⟩
      | none => .error (.rateOutOfRange rate units)
  | _ => .error (.missingPart "rate")

/-! ### Tags -/

/-- The keys that tags start with. -/
def Tag.keys : List String :=
  ["tags", "fee", "shares", "intermediary", "rate", "effective_date", "calculate_as"]

/-- A flag, which must not look like a tag with a key. -/
def Tag.ofFlag (text : List Char) : Except Problem Tag :=
  match Text.splitFirst? (· == ':') text with
  | none => .ok (.flag (String.ofList text))
  | some (key, _) =>
    let key := String.ofList (Text.trim key)
    .error (if Tag.keys.contains key then .malformedTag key (String.ofList text) else .unknownTag key)

/-- The tag of a line. A value that cannot be read is told with the whole line. -/
def Tag.ofNode (n : Node) : Except Problem Tag :=
  let inLine {α : Type} (value : Except Problem α) : Except Problem α :=
    value.mapError (.inPart n.text)
  match n.rule, n.children with
  | .feeTag, [money] => (inLine (Money.ofNode money)).map .fee
  | .calculateAsTag, [money] => (inLine (Money.ofNode money)).map .calculateAs
  | .sharesTag, [company, count] =>
    (inLine (Decimal.ofNode count)).map fun count => .shares ⟨company.text, count⟩
  | .intermediaryTag, [name] => .ok (.intermediary (Text.trimmed name.text))
  | .rateTag, parts => (inLine (ExchangeRate.ofNodes parts)).map .rate
  | .effectiveDateTag, [timestamp] => (inLine (Timestamp.ofNode timestamp)).map .effectiveDate
  | .tagsTag, names => .ok (.labels ((names.map fun n => Text.trimmed n.text).filter (· ≠ "")))
  | .flagTag, [text] => Tag.ofFlag (Text.trim text.text.toList)
  | _, _ => .error (.missingPart "tag")

/-- The tags of the `with` part that may end a statement, each located at its own line. -/
def Tags.ofNodes (lines : Array Line) (nodes : List Node) : Except Error Tags :=
  match nodes with
  | [] => .ok []
  | block :: _ => block.children.mapM fun n => (Tag.ofNode n).mapError (.writing (n.location lines))

end Daybook
