import Outbox.SortedMap.Basic
import Outbox.SortedMap.Lemmas
import Outbox.InsertionMap.Basic
import Outbox.InsertionMap.Lemmas
import Outbox.Table
import Outbox.Ident.ServerName
import Outbox.Ident.Basic
import Outbox.IdSource
import Outbox.Duration
import Outbox.Backoff.Basic
import Outbox.Backoff.Lemmas
import Outbox.Binary64.Basic
import Outbox.Binary64.Decimal
import Outbox.Text.Visible
import Outbox.Text.Quoted
import Outbox.Json.Basic
import Outbox.Json.Printer
import Outbox.Json.Node
import Outbox.Json.Decoder
import Outbox.Request.Kind
import Outbox.Request.ValidationError
import Outbox.Request.Payload
import Outbox.Request.Response
import Outbox.Settings
import Outbox.Wire.Kind
import Outbox.Wire.Body
import Outbox.Wire.Response
import Outbox.Host
import Outbox.Queue
import Outbox.OwnKeys
import Outbox.DeviceLists
import Outbox.Sessions
import Outbox.Messages
import Outbox.Backup
import Outbox.Machine.Basic
import Outbox.Machine.Decision
import Outbox.Machine.Completion
import Outbox.Machine.Call
import Outbox.Proofs.QueueView
import Outbox.Proofs.DecisionPass
import Outbox.Proofs.Outcomes
import Outbox.Proofs.History
import Outbox.Proofs.Ledger
import Outbox.Proofs.Lifecycle
import Outbox.Proofs.DeviceTracking
import Outbox.Proofs.Coherence
import Outbox.Proofs.QueryNotes
import Outbox.Proofs.UpToDate
import Outbox.Proofs.Wanted
import Outbox.Proofs.HeldMessages
import Outbox.Proofs.NoDuplicates
import Outbox.Proofs.Completeness
import Outbox.Proofs.Backing
import Outbox.Proofs.Atomicity
import Outbox.Proofs.BackupHistory
import Outbox.Proofs.KeyPublication
import Outbox.Proofs.SessionHistory
import Outbox.Proofs.Delivery
import Outbox.Proofs.BoundedPass
import Outbox.Proofs.Tasks
import Outbox.Proofs.Workload
import Outbox.Proofs.Quiescence
import Outbox.Proofs.Needs
import Outbox.Proofs.SignatureOrder
import Outbox.Proofs.Commutation
import Outbox.Proofs.FailingServers
import Outbox.Proofs.Retry
import Outbox.Proofs.BackupVersions
import Outbox.Proofs.HandOutOrder
import Outbox.Proofs.Idempotence
import Outbox.Proofs.ShortestDecimals
import Outbox.Proofs.ReadNumbers
import Outbox.Proofs.ReadTexts
import Outbox.Proofs.HostView
import Outbox.Proofs.HostLoop
import Outbox.Proofs.FailurePolicy
import Outbox.Proofs.NestedRows
import Outbox.Proofs.SignatureHistory
import Outbox.Proofs.QueryBatches
import Outbox.Proofs.BackoffHistory
import Outbox.Proofs.NestedCells
import Outbox.Proofs.BackupRounds
import Outbox.Proofs.StoresByRow
import Outbox.Proofs.ReadValues
import Outbox.Proofs.RoundTrips
