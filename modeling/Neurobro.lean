import Neurobro.Coop.Histories
import Neurobro.Coop.Answers
import Neurobro.Coop.Runs
import Neurobro.Data.Json
import Neurobro.Data.Ledger
import Neurobro.Data.Table
import Neurobro.Agent.Text
import Neurobro.Agent.State
import Neurobro.Agent.Commands
import Neurobro.Agent.Signature
import Neurobro.Agent.Operations
import Neurobro.Agent.CorrectionConduct
import Neurobro.Agent.Origin
import Neurobro.Agent.IngestConduct
import Neurobro.Agent.OperationsConduct
import Neurobro.Agent.Dispatch
import Neurobro.Agent.Revocation
import Neurobro.Agent.Admission
import Neurobro.Agent.Cancellation
import Neurobro.Agent.StaleAdmission
import Neurobro.Agent.PublicDraft
import Neurobro.Agent.Observations
import Neurobro.Agent.Walk
import Neurobro.Agent.Terminal
import Neurobro.Agent.Delivery
import Neurobro.Jobs.Contracts
import Neurobro.Jobs.Replay
import Neurobro.Jobs.Capacity
import Neurobro.Jobs.Alerts
import Neurobro.Jobs.History
import Neurobro.Jobs.Turns
import Neurobro.Jobs.Episodes
import Neurobro.Schedules.Records
import Neurobro.Schedules.Coordinator
import Neurobro.Schedules.Bounds
import Neurobro.OwnerControls.Directives
import Neurobro.OwnerControls.Records
import Neurobro.OwnerControls.State
import Neurobro.OwnerControls.Service
import Neurobro.OwnerControls.Changes
import Neurobro.OwnerControls.Conduct
import Neurobro.OwnerControls.Approvals
import Neurobro.OwnerControls.Unsubscribe
import Neurobro.OwnerControls.Proposals
import Neurobro.Data.Rows
import Neurobro.Outreach.Records
import Neurobro.Outreach.State
import Neurobro.Outreach.Service
import Neurobro.Outreach.Changes
import Neurobro.Outreach.Conduct
import Neurobro.Outreach.Walk
import Neurobro.Outreach.Sends
import Neurobro.Memory.Erasure
import Neurobro.Memory.Sequence
import Neurobro.Artifacts.Revocation
import Neurobro.Delivery.Dispatch
import Neurobro.History.Reopening
import Neurobro.History.Ordering
import Neurobro.History.Traversal
import Neurobro.Data.Windows
import Neurobro.Guardrails.Limits
import Neurobro.Ingestor.Delivered
import Neurobro.History.Recovered
import Neurobro.Learning.Privacy
import Neurobro.Data.JsonText
import Neurobro.Data.JsonWritten
import Neurobro.Data.JsonTokens
import Neurobro.Data.Lines
import Neurobro.Wsl.Contract
import Neurobro.Wsl.Canonical
import Neurobro.Wsl.Codec
import Neurobro.Wsl.Framer
import Neurobro.Wsl.Host
import Neurobro.Wsl.Conduct
import Neurobro.Wsl.Answers
import Neurobro.Epoch.Wire
import Neurobro.Epoch.Reading
import Neurobro.Epoch.Envelopes
import Neurobro.Epoch.Multiplex
import Neurobro.Epoch.Routing
import Neurobro.Epoch.Analysis
import Neurobro.Epoch.Writing
import Neurobro.Dialogue.Journal
import Neurobro.Dialogue.Admissions
import Neurobro.Data.Base64
import Neurobro.Data.JsonOrder
import Neurobro.Execution.Contract
import Neurobro.Execution.Evidence
import Neurobro.Execution.Request
import Neurobro.Execution.Child
import Neurobro.Execution.Boundary
import Neurobro.Execution.Outcomes
import Neurobro.Execution.Documents
import Neurobro.Execution.Started
import Neurobro.Execution.Fitting
import Neurobro.Data.Disk
import Neurobro.Execution.OneShot
import Neurobro.Execution.Attempts
import Neurobro.Execution.Sidecar
import Neurobro.Execution.Quarantine
import Neurobro.Execution.Settlement
import Neurobro.Data.Paging
import Neurobro.Projection.Tokens
import Neurobro.Projection.Source
import Neurobro.Projection.Stored
import Neurobro.Projection.Selection
import Neurobro.Projection.Largest
import Neurobro.Data.JsonAlike
import Neurobro.Projection.Encoded
import Neurobro.Projection.Exactness
import Neurobro.Projection.Partition
import Neurobro.Projection.Notes
import Neurobro.Projection.Lossless
import Neurobro.Ranges.Export
import Neurobro.History.Splitting
import Neurobro.Formatting.Entities
import Neurobro.Formatting.Normal
