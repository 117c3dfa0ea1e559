import Orchestrator.Base.Run
import Orchestrator.Base.Serial
import Orchestrator.Concurrency.Alone
import Orchestrator.Concurrency.Atomic
import Orchestrator.Concurrency.Cancellations
import Orchestrator.Concurrency.Coherence
import Orchestrator.Concurrency.Serialization
import Orchestrator.Concurrency.SingleContact
import Orchestrator.Concurrency.DuplicateOutcome
import Orchestrator.System.AuditTrail
import Orchestrator.System.FrequencyCap
import Orchestrator.System.Revocation
import Orchestrator.System.SendTime
import Orchestrator.System.Replay
import Orchestrator.System.AllOrNothing
import Orchestrator.System.Correspondence
import Orchestrator.System.Chain
import Orchestrator.System.OptOut
import Orchestrator.System.OwnSnapshot
import Orchestrator.System.ReplayKey
import Orchestrator.System.Capacity
import Orchestrator.System.Independence
import Orchestrator.System.PlannedTimes
import Orchestrator.System.RepeatPlanning
import Orchestrator.System.CancellationPaths
import Orchestrator.Domain.SameInstant
import Orchestrator.Policy.Monotone
import Orchestrator.Workers.Pass
import Orchestrator.Migrations.Revisions
import Orchestrator.System.Projection
import Orchestrator.Workers.Loop
import Orchestrator.System.Listings
import Orchestrator.System.Service
import Orchestrator.System.Conversation
import Orchestrator.System.Trace
import Orchestrator.System.Schema
import Orchestrator.Scripts.SeedDemo
