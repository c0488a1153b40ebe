import Daybook.Account.Position
import Daybook.Notice
import Daybook.Scalar

/-!
# Settings and options

The settings of a ledger are written in it; options are what a computation is asked for with. A default
currency among the options counts before the one of the settings.
-/

namespace Daybook

/-! ### Settings -/

/-- The settings of a ledger. -/
structure Config where
  defaultCurrency : Option Currency
  budget : Option Budget
  /-- Settings without a meaning here, by key. -/
  extra : SortedMap String String
  deriving DecidableEq

namespace Config

def empty : Config := ⟨none, none, .empty⟩

/-- The settings with one more, which counts before earlier ones. A key without a meaning here is worth
a notice. -/
def set (c : Config) (s : Setting) : Except Error (Config × List Notice) :=
  if s.key = "default_currency" then do
    let currency ← (Currency.ofText s.value).mapError (.meaning s.location)
    .ok ({ c with defaultCurrency := some currency }, [])
  else if s.key = "budget" then do
    let budget ← (Budget.ofText s.value).mapError (.meaning s.location)
    .ok ({ c with budget := some budget }, [])
  else
    .ok ({ c with extra := c.extra.insert s.key s.value }, [.unknownSetting s.location s.key])

/-- The settings with the one that an item may be. -/
def step (c : Config) : Item → Except Error (Config × List Notice)
  | .setting s => c.set s
  | _ => .ok (c, [])

end Config

/-! ### Options -/

/-- Whether exchange rates from after the time of the computation count. -/
inductive RatePolicy where
  | unconditional
  | gated
  deriving DecidableEq, Repr

/-- What a computation is asked for with. -/
structure Options where
  /-- What counts later than this is left out. -/
  now : Timestamp
  defaultCurrency : Option Currency := none
  ratePolicy : RatePolicy := .unconditional
  costBasis : CostBasis := .cumulative
  deriving DecidableEq, Repr

/-- The currency that figures are given in: that of the options, or else of the settings, or else PLN. -/
def Options.currency (o : Options) (c : Config) : Currency :=
  (o.defaultCurrency <|> c.defaultCurrency).getD .pln

end Daybook
