import GhostApi.Actions.Charges
import GhostApi.Actions.Contract
import GhostApi.Actions.Executions
import GhostApi.Actions.Gateway
import GhostApi.Actions.Receipts
import GhostApi.Actions.Scripts
import GhostApi.Actions.Size
import GhostApi.Actions.Types
import GhostApi.Approvals.Edits
import GhostApi.Approvals.Inbox
import GhostApi.Approvals.Requests
import GhostApi.Approvals.Size
import GhostApi.Approvals.Types
import GhostApi.Approvals.Validity
import GhostApi.Canonical.CanonicalJson
import GhostApi.Canonical.Data
import GhostApi.Canonical.Fingerprints
import GhostApi.Contracts.Diff
import GhostApi.Contracts.Drafts
import GhostApi.Contracts.HarImport
import GhostApi.Contracts.Inference
import GhostApi.Contracts.Recording
import GhostApi.Contracts.Samples
import GhostApi.Contracts.Schema
import GhostApi.Contracts.Soundness
import GhostApi.Contracts.Validation
import GhostApi.Contracts.Validity
import GhostApi.Costs.Alerts
import GhostApi.Costs.Governance
import GhostApi.Costs.Reports
import GhostApi.Costs.Validity
import GhostApi.Credentials.Broker
import GhostApi.Credentials.ExecuteOnce
import GhostApi.Credentials.Revocation
import GhostApi.Credentials.Types
import GhostApi.Credentials.Uses
import GhostApi.Credentials.Wipe
import GhostApi.Egress.Credentials
import GhostApi.Egress.Redactor
import GhostApi.Evals.Meaning
import GhostApi.Evals.Score
import GhostApi.Evals.Spec
import GhostApi.Evidence.EventLines
import GhostApi.Evidence.KeyOrder
import GhostApi.Evidence.Output
import GhostApi.Evidence.Paths
import GhostApi.Evidence.Persisted
import GhostApi.Evidence.Report
import GhostApi.Evidence.SecretMatches
import GhostApi.Evidence.Stable
import GhostApi.Evidence.Tamper
import GhostApi.Evidence.Text
import GhostApi.Evidence.Value
import GhostApi.Evidence.Verdict
import GhostApi.Hosted.Accepting
import GhostApi.Hosted.Accounts
import GhostApi.Hosted.Calls
import GhostApi.Hosted.Database
import GhostApi.Hosted.Deliveries
import GhostApi.Hosted.Dispatchers
import GhostApi.Hosted.ExactlyOnce
import GhostApi.Hosted.Finality
import GhostApi.Hosted.FreshKeys
import GhostApi.Hosted.IngestKeys
import GhostApi.Hosted.Ingestion
import GhostApi.Hosted.Outbox
import GhostApi.Hosted.OwnMembers
import GhostApi.Hosted.Reports
import GhostApi.Hosted.Scenario
import GhostApi.Hosted.Schema
import GhostApi.Hosted.Statements
import GhostApi.Hosted.Submission
import GhostApi.Hosted.Worker
import GhostApi.Inventory.Analysis
import GhostApi.Inventory.Applicability
import GhostApi.Inventory.BlastRadius
import GhostApi.Inventory.Edges
import GhostApi.Inventory.Findings
import GhostApi.Inventory.Graph
import GhostApi.Inventory.Import
import GhostApi.Inventory.Payload
import GhostApi.Inventory.Remediations
import GhostApi.Inventory.Roi
import GhostApi.Inventory.Store
import GhostApi.Inventory.Types
import GhostApi.Js.Calendar
import GhostApi.Js.Canonical
import GhostApi.Js.Date
import GhostApi.Js.Induction
import GhostApi.Js.JsonSize
import GhostApi.Js.Number
import GhostApi.Js.Objects
import GhostApi.Js.Parse
import GhostApi.Js.Regex
import GhostApi.Js.SameJson
import GhostApi.Js.Sha256
import GhostApi.Js.Stringify
import GhostApi.Js.Text
import GhostApi.Js.Value
import GhostApi.Ledger.Calls
import GhostApi.Ledger.Chains
import GhostApi.Ledger.FileSize
import GhostApi.Ledger.Ledger
import GhostApi.Ledger.Names
import GhostApi.Ledger.Recording
import GhostApi.Ledger.Retention
import GhostApi.Ledger.Returned
import GhostApi.Ledger.Rotation
import GhostApi.Ledger.Runs
import GhostApi.Ledger.System
import GhostApi.Ledger.Tamper
import GhostApi.Ledger.Timelines
import GhostApi.Ledger.Types
import GhostApi.Ledger.Validity
import GhostApi.Lib.Assignment
import GhostApi.Lib.Files
import GhostApi.Lib.FixedWindow
import GhostApi.Lib.Flow
import GhostApi.Lib.HashChain
import GhostApi.Lib.Latest
import GhostApi.Lib.Machine
import GhostApi.Lib.Mutation
import GhostApi.Lib.Novelty
import GhostApi.Lib.Printed
import GhostApi.Lib.Program
import GhostApi.Lib.Protocol
import GhostApi.Lib.Recent
import GhostApi.Lib.Reordering
import GhostApi.Lib.Rotation
import GhostApi.Lib.Sql.Alone
import GhostApi.Lib.Sql.Discipline
import GhostApi.Lib.Sql.Interference
import GhostApi.Lib.Sql.Rows
import GhostApi.Lib.Sql.Runs
import GhostApi.Lib.Sql.Sessions
import GhostApi.Lib.Sql.Single
import GhostApi.Lib.StableSort
import GhostApi.Lib.Sweep
import GhostApi.Lib.Table
import GhostApi.Lib.Template
import GhostApi.Policy.CredentialGlobs
import GhostApi.ProductTelemetry.ActiveWeeks
import GhostApi.ProductTelemetry.IsoWeek
import GhostApi.ProductTelemetry.Snapshot
import GhostApi.Reliability.Backup
import GhostApi.Reliability.Coverage
import GhostApi.Reliability.Findings
import GhostApi.Reliability.Reconciliation
import GhostApi.Reliability.Restore
import GhostApi.Reliability.RetrySafety
import GhostApi.Safety.Accounts
import GhostApi.Safety.AtMostOnce
import GhostApi.Safety.Budgets
import GhostApi.Safety.Charged
import GhostApi.Safety.Controller
import GhostApi.Safety.Latch
import GhostApi.Safety.Progress
import GhostApi.Safety.Queue
import GhostApi.Safety.Rates
import GhostApi.Safety.Size
import GhostApi.Safety.System
import GhostApi.Safety.Types
import GhostApi.Safety.Validity
import GhostApi.Scenarios.Atomicity
import GhostApi.Scenarios.Bundle
import GhostApi.Scenarios.Replay
import GhostApi.Scenarios.Validity
import GhostApi.Security.Masks
import GhostApi.Security.Secrets
import GhostApi.Server.AccessControl
import GhostApi.Server.EventsStore
import GhostApi.Storage.FileLock
import GhostApi.Storage.JsonStore
import GhostApi.Storage.RecordSize
import GhostApi.Stripe.Lists
import GhostApi.TeamControl.RateLimiter
import GhostApi.TeamControl.Shares
import GhostApi.Trust.Ladder
import GhostApi.Trust.Raises
import GhostApi.Trust.Types
import GhostApi.Validation
