import Daybook.Main
import Daybook.Proofs.Decimal.Digits
import Daybook.Proofs.Decimal.Exact
import Daybook.Proofs.Decimal.Quotient
import Daybook.Proofs.Decimal.RelativeBound
import Daybook.Proofs.Decimal.Rounding
import Daybook.Proofs.Decimal.Signs
import Daybook.Proofs.Decimal.Tolerance
import Daybook.Proofs.Decimal.Value
import Daybook.Proofs.Checked
import Daybook.Proofs.SortedMap
import Daybook.Proofs.Basket.LastRate
import Daybook.Proofs.Basket.UnitRate
import Daybook.Proofs.Grammar.Barrier
import Daybook.Proofs.Grammar.Blocks
import Daybook.Proofs.Grammar.Extension
import Daybook.Proofs.Grammar.Frames
import Daybook.Proofs.Grammar.Keywords
import Daybook.Proofs.Grammar.Places
import Daybook.Proofs.Grammar.Reading
import Daybook.Proofs.Grammar.Restriction
import Daybook.Proofs.Grammar.Shift
import Daybook.Proofs.Grammar.Tagged
import Daybook.Proofs.Grammar.Tokens
import Daybook.Proofs.Grammar.LegLines
import Daybook.Proofs.Grammar.EntryLines
import Daybook.Proofs.Grammar.Balances
import Daybook.Proofs.Source.Chains
import Daybook.Proofs.Source.Exploration
import Daybook.Proofs.Source.Lines
import Daybook.Proofs.Source.Relaid
import Daybook.Proofs.Statement.Alike
import Daybook.Proofs.Statement.Amounts
import Daybook.Proofs.Statement.Legs
import Daybook.Proofs.Statement.Tagging
import Daybook.Proofs.Journal.Booked
import Daybook.Proofs.Journal.Composition
import Daybook.Proofs.Journal.Cut
import Daybook.Proofs.Journal.Emitted
import Daybook.Proofs.Journal.Flow
import Daybook.Proofs.Journal.Inlining
import Daybook.Proofs.Journal.Keywords
import Daybook.Proofs.Journal.Layout
import Daybook.Proofs.Journal.Origins
import Daybook.Proofs.Journal.LegLines
import Daybook.Proofs.Journal.Located
import Daybook.Proofs.Journal.BalanceLines
import Daybook.Proofs.Journal.Places
import Daybook.Proofs.Journal.Provenance
import Daybook.Proofs.Journal.Relaid
import Daybook.Proofs.Journal.Relocated
import Daybook.Proofs.Journal.Replayable
import Daybook.Proofs.Journal.Signs
import Daybook.Proofs.Journal.Unplaced
import Daybook.Proofs.Journal.Written
import Daybook.Proofs.Account.CostBasis
import Daybook.Proofs.Account.Figures
import Daybook.Proofs.Account.Flat
import Daybook.Proofs.Account.Openings
import Daybook.Proofs.Account.PositionRun
import Daybook.Proofs.Account.RegistryRun
import Daybook.Proofs.Account.Recorded
import Daybook.Proofs.Account.Revaluation
import Daybook.Proofs.Replay.Balance
import Daybook.Proofs.Replay.Checkpoints
import Daybook.Proofs.Replay.Chronology
import Daybook.Proofs.Replay.CostMethods
import Daybook.Proofs.Replay.Cutoff
import Daybook.Proofs.Replay.Drift
import Daybook.Proofs.Replay.Evolution
import Daybook.Proofs.Replay.Faults
import Daybook.Proofs.Replay.Frame
import Daybook.Proofs.Replay.History
import Daybook.Proofs.Replay.InPlace
import Daybook.Proofs.Replay.Later
import Daybook.Proofs.Replay.Order
import Daybook.Proofs.Replay.Payout
import Daybook.Proofs.Replay.Position
import Daybook.Proofs.Replay.Rates
import Daybook.Proofs.Replay.Refusal
import Daybook.Proofs.Replay.Reopened
import Daybook.Proofs.Replay.Resumption
import Daybook.Proofs.Replay.Shares
import Daybook.Proofs.Replay.SideBySide
import Daybook.Proofs.Replay.Step
import Daybook.Proofs.Replay.Total
import Daybook.Proofs.Replay.Valued
import Daybook.Proofs.Transfer.Acceptance
import Daybook.Proofs.Transfer.Balance
import Daybook.Proofs.Transfer.Checks
import Daybook.Proofs.Transfer.Conversion
import Daybook.Proofs.Transfer.Shares
import Daybook.Proofs.Summary.Collected
import Daybook.Proofs.Summary.Conservation
import Daybook.Proofs.Summary.Dividends
import Daybook.Proofs.Summary.Figures
import Daybook.Proofs.Summary.Months
import Daybook.Proofs.Summary.Worth
import Daybook.Proofs.Replay.Reopened
import Daybook.Proofs.Summary.Worth
