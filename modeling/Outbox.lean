import Outbox.Json.Conversion
import Outbox.Main
import Outbox.Simulation.Scheduler
import Outbox.Simulation.Session
import Outbox.Proofs.Exclusivity
import Outbox.Proofs.Finality
import Outbox.Proofs.Lifecycle
import Outbox.Proofs.Fencing
import Outbox.Proofs.Atomicity
import Outbox.Proofs.Recovery
import Outbox.Proofs.Settings
import Outbox.Proofs.Retention
import Outbox.Proofs.Protection
import Outbox.Proofs.Release
import Outbox.Proofs.Batches
import Outbox.Proofs.Accounting
import Outbox.Proofs.Snapshots
import Outbox.Proofs.Draining
import Outbox.Proofs.Fifo
import Outbox.Proofs.Payloads
import Outbox.Proofs.Conservation
import Outbox.Proofs.Sweeping
import Outbox.Proofs.IdTexts
import Outbox.Proofs.MarkVerdicts
import Outbox.Proofs.SweptRows
import Outbox.Proofs.RecordTexts
import Outbox.Proofs.Claiming
import Outbox.Proofs.Discipline
import Outbox.Proofs.Wiring
import Outbox.Proofs.GivingBack
import Outbox.Proofs.Dispatches
import Outbox.Proofs.Leasing
import Outbox.Proofs.Backoff
import Outbox.Proofs.TextOrder
import Outbox.Proofs.Heartbeats
import Outbox.Proofs.Rounds
import Outbox.Proofs.Replies
import Outbox.Proofs.Registrations
import Outbox.Proofs.Ranking
