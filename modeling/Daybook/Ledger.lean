import Daybook.Journal
import Daybook.Replay

/-!
# Ledgers

A ledger is what items come to at a point in time: the accounts with their balances and positions, the
exchange rates in force, the settings and the groups. `Ledger.compute` depends on nothing but the items
and the options.
-/

namespace Daybook

/-- What items come to. -/
structure Ledger where
  accounts : Registry
  basket : Basket
  config : Config
  groups : List Group
  defaultCurrency : Currency
  now : Timestamp
  deriving DecidableEq

namespace Ledger

def groupsOf (items : List Item) : List Group :=
  items.filterMap fun | .group g => some g | _ => none

/-- What items come to: settings first, then accounts, then everything else in the order in which it
counts, and at the end the figures of all shares. -/
def compute (o : Options) (items : List Item) : Told Ledger :=
  let settings := foldTelling Config.step .empty items
  match settings.result with
  | .error e => ⟨.error e, settings.notices⟩
  | .ok config =>
    match Registry.ofItems items with
    | .error e => ⟨.error e, settings.notices⟩
    | .ok accounts =>
      let played := replay o ⟨accounts, .empty⟩ items
      { result := do
          let books ← played.result
          let accounts ← books.accounts.revalue o.costBasis
          .ok
            { accounts, basket := books.basket, config, groups := groupsOf items
              defaultCurrency := o.currency config, now := o.now }
        notices := settings.notices ++ played.notices }

def convert (l : Ledger) (money : Money) (target : Currency) : Except Problem Money :=
  l.basket.convert money target

/-- Money in the default currency. -/
def inDefaultCurrency (l : Ledger) (money : Money) : Except Problem Money :=
  l.convert money l.defaultCurrency

/-- Reads the ledger at a path and computes it. -/
def load (fs : FileSystem) (path : String) (o : Options) : Except Error Ledger := do
  let journal ← Journal.ofFile fs path
  (compute o journal.items).result

end Ledger

end Daybook
