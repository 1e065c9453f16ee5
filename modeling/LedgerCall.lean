import LedgerCall.Account
import LedgerCall.Backoff
import LedgerCall.Client
import LedgerCall.Config
import LedgerCall.Decimal.Binary64
import LedgerCall.Decimal.Fixed
import LedgerCall.Decimal.Layout
import LedgerCall.Decimal.Numeral
import LedgerCall.Decimal.Shortest
import LedgerCall.Envelope
import LedgerCall.Environment
import LedgerCall.Execution.Effect
import LedgerCall.Execution.Lookup
import LedgerCall.Execution.Pool
import LedgerCall.Execution.Run
import LedgerCall.Execution.Step
import LedgerCall.Failure
import LedgerCall.Fault
import LedgerCall.Http
import LedgerCall.Json.Access
import LedgerCall.Json.Basic
import LedgerCall.Json.Inline
import LedgerCall.Json.Reader
import LedgerCall.Log
import LedgerCall.Network.Basic
import LedgerCall.Network.Table
import LedgerCall.Operation
import LedgerCall.Query
import LedgerCall.Receipt
import LedgerCall.Request
import LedgerCall.Seconds
import LedgerCall.Status
import LedgerCall.Text.Ascii
import LedgerCall.Text.Basic
import LedgerCall.Text.Blank
import LedgerCall.Text.Digit
import LedgerCall.Text.Encoding
import LedgerCall.Text.Printable
import LedgerCall.Text.Quoted
import LedgerCall.Timestamp
import LedgerCall.TransactionId.Basic
import LedgerCall.TransactionId.Binary
import LedgerCall.TransactionId.Generator
import LedgerCall.Proofs.Runs
import LedgerCall.Proofs.Specification
import LedgerCall.Proofs.Deadline
import LedgerCall.Proofs.Independence
import LedgerCall.Proofs.Rotation
import LedgerCall.Proofs.Course
import LedgerCall.Proofs.Generation
import LedgerCall.Proofs.Sequence
import LedgerCall.Proofs.Consensus
import LedgerCall.Proofs.Escape
import LedgerCall.Proofs.HttpEvents
import LedgerCall.Proofs.HttpRetries
import LedgerCall.Proofs.BinaryForm
import LedgerCall.Proofs.FinalAnswers
import LedgerCall.Proofs.ReceiptStatuses
import LedgerCall.Proofs.ChannelAnswers
import LedgerCall.Proofs.AccountTexts
import LedgerCall.Proofs.TableForm
import LedgerCall.Proofs.NodeTables
import LedgerCall.Proofs.AccountGrammar
import LedgerCall.Proofs.WrittenForms
import LedgerCall.Proofs.NodeCoverage
import LedgerCall.Proofs.FloatOrder
import LedgerCall.Proofs.FloatProduct
import LedgerCall.Proofs.FloatSum
import LedgerCall.Proofs.NumeralReading
import LedgerCall.Proofs.GrowingDelays
import LedgerCall.Proofs.UsableSettings
import LedgerCall.Proofs.CappedDelays
import LedgerCall.Proofs.Rounds
import LedgerCall.Proofs.BoundedRetries
import LedgerCall.Proofs.HookCounts
import LedgerCall.Proofs.LogLevels
import LedgerCall.Proofs.Narration
import LedgerCall.Proofs.AsciiTexts
import LedgerCall.Proofs.RequestTexts
import LedgerCall.Proofs.InstantCounts
