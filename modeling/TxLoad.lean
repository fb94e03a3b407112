import TxLoad.Address
import TxLoad.Client.Basic
import TxLoad.Client.KeyValue
import TxLoad.Clock
import TxLoad.CommandLine.Grammar
import TxLoad.CommandLine.Modes
import TxLoad.Config.Basic
import TxLoad.Config.Document
import TxLoad.Config.Roles
import TxLoad.Config.Wire
import TxLoad.Coordinator.Basic
import TxLoad.Coordinator.Session
import TxLoad.Coordinator.Step
import TxLoad.Decimal.Binary64
import TxLoad.Decimal.Fixed
import TxLoad.Decimal.Read
import TxLoad.Decimal.Scaled
import TxLoad.Decimal.Shortest
import TxLoad.Discovery
import TxLoad.Endpoint.Basic
import TxLoad.Endpoint.Pool
import TxLoad.Endpoint.Uri
import TxLoad.Engine.Basic
import TxLoad.Engine.Group
import TxLoad.Error
import TxLoad.Json.Basic
import TxLoad.Json.Parser
import TxLoad.Json.Printer
import TxLoad.Main
import TxLoad.Message.Basic
import TxLoad.Message.Stream
import TxLoad.Message.Wire
import TxLoad.Metrics
import TxLoad.Pacer
import TxLoad.Program
import TxLoad.Proofs.Client.Capacity
import TxLoad.Proofs.Client.Keys
import TxLoad.Proofs.Client.Numerals
import TxLoad.Proofs.Client.Sizing
import TxLoad.Proofs.Coordinator.Affecting
import TxLoad.Proofs.Coordinator.Attending
import TxLoad.Proofs.Coordinator.Barrier
import TxLoad.Proofs.Coordinator.Bounds
import TxLoad.Proofs.Coordinator.Dealings
import TxLoad.Proofs.Coordinator.Delivered
import TxLoad.Proofs.Coordinator.Discipline
import TxLoad.Proofs.Coordinator.Ending
import TxLoad.Proofs.Coordinator.Flow
import TxLoad.Proofs.Coordinator.Greeting
import TxLoad.Proofs.Coordinator.Identity
import TxLoad.Proofs.Coordinator.Invariant
import TxLoad.Proofs.Coordinator.Order
import TxLoad.Proofs.Coordinator.Outcome
import TxLoad.Proofs.Coordinator.Preparing
import TxLoad.Proofs.Coordinator.Timing
import TxLoad.Proofs.Coordinator.Underway
import TxLoad.Proofs.Coordinator.Writing
import TxLoad.Proofs.Deployment.Agreement
import TxLoad.Proofs.Deployment.Barrier
import TxLoad.Proofs.Deployment.Basic
import TxLoad.Proofs.Deployment.Compatibility
import TxLoad.Proofs.Deployment.Deadlines
import TxLoad.Proofs.Deployment.Invariant
import TxLoad.Proofs.Deployment.OnTime
import TxLoad.Proofs.Deployment.Progress
import TxLoad.Proofs.Deployment.Punctual
import TxLoad.Proofs.Deployment.Timed
import TxLoad.Proofs.Discovery.Ordering
import TxLoad.Proofs.Discovery.Rounds
import TxLoad.Proofs.Discovery.Selecting
import TxLoad.Proofs.Discovery.Shortage
import TxLoad.Proofs.Discovery.Steady
import TxLoad.Proofs.Discovery.Timetable
import TxLoad.Proofs.Discovery.Waiting
import TxLoad.Proofs.Endpoint.Authority
import TxLoad.Proofs.Endpoint.Canonical
import TxLoad.Proofs.Endpoint.Literals
import TxLoad.Proofs.Engine.Accounting
import TxLoad.Proofs.Engine.Asking
import TxLoad.Proofs.Engine.Cancelling
import TxLoad.Proofs.Engine.Ending
import TxLoad.Proofs.Engine.Heeding
import TxLoad.Proofs.Engine.Isolation
import TxLoad.Proofs.Engine.Pacing
import TxLoad.Proofs.Engine.Schedule
import TxLoad.Proofs.Engine.Stopping
import TxLoad.Proofs.Engine.Tally
import TxLoad.Proofs.Engine.Unhindered
import TxLoad.Proofs.Engine.Words
import TxLoad.Proofs.Json.Grammar
import TxLoad.Proofs.Json.Paths
import TxLoad.Proofs.Json.RoundTrip
import TxLoad.Proofs.Json.Scanning
import TxLoad.Proofs.Message.Lines
import TxLoad.Proofs.Message.RoundTrip
import TxLoad.Proofs.Message.Stream
import TxLoad.Proofs.Metrics.Scrapes
import TxLoad.Proofs.Pacer.Counting
import TxLoad.Proofs.Rpc.Legible
import TxLoad.Proofs.Rpc.Peers
import TxLoad.Proofs.Rpc.Verdicts
import TxLoad.Proofs.Standalone.Totals
import TxLoad.Proofs.Stats.Elapsed
import TxLoad.Proofs.Stats.Entries
import TxLoad.Proofs.Stats.Keeping
import TxLoad.Proofs.Stats.Ledger
import TxLoad.Proofs.Stats.Sums
import TxLoad.Proofs.Stats.Table
import TxLoad.Proofs.Text.Numeral
import TxLoad.Proofs.Worker.Abandoning
import TxLoad.Proofs.Worker.Effort
import TxLoad.Proofs.Worker.Flow
import TxLoad.Proofs.Worker.Invariant
import TxLoad.Proofs.Worker.LinkLoss
import TxLoad.Proofs.Worker.Reports
import TxLoad.Proofs.Worker.Timing
import TxLoad.Proofs.Worker.Unbroken
import TxLoad.Proofs.Worker.Words
import TxLoad.Rpc.Basic
import TxLoad.Rpc.Broadcast
import TxLoad.Rpc.NetInfo
import TxLoad.Standalone
import TxLoad.Stats.Collector
import TxLoad.Stats.Connection
import TxLoad.Stats.Report
import TxLoad.Stats.Storage
import TxLoad.Stats.Summary
import TxLoad.Text.Blank
import TxLoad.Text.Duration
import TxLoad.Text.Hidden
import TxLoad.Text.Numeral
import TxLoad.Text.Quoted
import TxLoad.Worker.Basic
import TxLoad.Worker.Session
import TxLoad.Worker.Step
import TxLoad.Yaml.BlockScalar
import TxLoad.Yaml.Cursor
import TxLoad.Yaml.Document
import TxLoad.Yaml.Event
import TxLoad.Yaml.Fault
import TxLoad.Yaml.Scalar
import TxLoad.Yaml.Tag
import TxLoad.Yaml.Token
import TxLoad.Yaml.Value
