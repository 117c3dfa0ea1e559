import Orchestrator.Api.Requests
import Orchestrator.Base.Uuid
import Orchestrator.Migrations.Revisions

/-!
# A store as table rows

The rows of the migrated tables that a store stands for: keys become UUIDs, enumerations
become their texts, and payloads the text of their JSON documents. What the database or
`uuid4()` generates, and how a document is serialised, are parameters.
-/

namespace Orchestrator

/-! ### Texts of enumerations -/

/-- Values of `InboundEventStatus`, `src/orchestrator/models.py:34–37`. -/
def InboundEventStatus.value : InboundEventStatus → String
  | .received => "received"
  | .processed => "processed"
  | .failed => "failed"

/-- Values of `OutreachTaskStatus`, `src/orchestrator/models.py:46–52`. -/
def OutreachTaskStatus.value : OutreachTaskStatus → String
  | .scheduled => "scheduled"
  | .blocked => "blocked"
  | .dispatching => "dispatching"
  | .sent => "sent"
  | .failed => "failed"
  | .cancelled => "cancelled"

/-- Values of `PolicyDecisionOutcome`, `src/orchestrator/models.py:55–58`. -/
def PolicyDecisionOutcome.value : PolicyDecisionOutcome → String
  | .allow => "allow"
  | .block => "block"
  | .defer => "defer"

/-- Values of `AuditActorType`, `src/orchestrator/models.py:61–65`. -/
def AuditActorType.value : AuditActorType → String
  | .system => "system"
  | .apiClient => "api_client"
  | .worker => "worker"
  | .policyEngine => "policy_engine"

/-- The `entity_type` texts of audit rows. -/
def EntityType.value : EntityType → String
  | .inboundEvent => "inbound_event"
  | .customer => "customer"
  | .account => "account"
  | .policyDecision => "policy_decision"
  | .outreachTask => "outreach_task"

/-- The `event_type` texts of audit rows; the markers are those of
`src/orchestrator/orchestration/planner.py:34–39`. -/
def AuditEventType.value : AuditEventType → String
  | .eventReceived => "event_received"
  | .eventAccepted => "event_accepted"
  | .policyDecisionRecorded => "policy_decision_recorded"
  | .outreachBlocked => "outreach_blocked"
  | .outreachDeferred => "outreach_deferred"
  | .outreachTaskScheduled => "outreach_task_scheduled"
  | .customerOptedOut => "customer_opted_out"
  | .hardshipEscalationRequired => "hardship_escalation_required"
  | .accountPaused => "account_paused"
  | .outreachCancelled => "outreach_cancelled"
  | .plannerPaymentReceivedProcessed => "planner_payment_received_processed"
  | .plannerOptOutProcessed => "planner_opt_out_processed"
  | .plannerHardshipProcessed => "planner_hardship_processed"
  | .plannerAccountPausedProcessed => "planner_account_paused_processed"
  | .dispatchStarted => "dispatch_started"
  | .dispatchSucceeded => "dispatch_succeeded"
  | .dispatchFailed => "dispatch_failed"
  | .deliveryResultRecorded => "delivery_result_recorded"

namespace Migrations

open Base

/-- Generated columns, and documents as texts. -/
structure Columns where
  id : EntityType → Nat → Nat
  auditId : Nat → Nat
  createdAt : EntityType → Nat → Int
  updatedAt : EntityType → Nat → Int
  auditCreatedAt : Nat → Int
  payload : EventPayload → String
  reasons : List Reason → String
  auditPayload : AuditPayload → String

/-- The rows of an entity's table. -/
def count (s : Store) : EntityType → Nat
  | .inboundEvent => s.inboundEvents.length
  | .customer => s.customers.length
  | .account => s.accounts.length
  | .policyDecision => s.policyDecisions.length
  | .outreachTask => s.outreachTasks.length

/-- `str(uuid)` of a row. -/
def Columns.text (columns : Columns) (table : EntityType) (k : Nat) : String :=
  String.ofList (Uuid.format (columns.id table k))

/-- The row of a customer. -/
def customerRow (columns : Columns) (k : Nat) (c : Customer) : CustomerRow where
  id := columns.id .customer k
  externalId := c.externalId
  fullName := c.fullName
  timezone := c.timezone
  phoneNumber := c.phoneNumber
  email := c.email
  smsConsent := c.smsConsent
  callConsent := c.callConsent
  emailConsent := c.emailConsent
  optedOut := c.optedOut
  createdAt := columns.createdAt .customer k
  updatedAt := columns.updatedAt .customer k

/-- The row of an account. -/
def accountRow (columns : Columns) (k : Nat) (a : Account) : AccountRow where
  id := columns.id .account k
  externalId := a.externalId
  customerId := columns.id .customer a.customerId
  status := Api.accountStatusText a.status
  balanceCents := a.balanceCents
  daysPastDue := a.daysPastDue
  createdAt := columns.createdAt .account k
  updatedAt := columns.updatedAt .account k

/-- The row of an inbound event. -/
def inboundEventRow (columns : Columns) (k : Nat) (e : InboundEvent) : SourcedEventRow where
  id := columns.id .inboundEvent k
  externalId := e.externalId
  eventType := e.eventType.value
  customerExternalId := e.customerExternalId
  accountExternalId := e.accountExternalId
  payload := columns.payload e.payload
  receivedAt := columns.createdAt .inboundEvent k
  idempotencyKey := e.idempotencyKey
  processingStatus := e.processingStatus.value
  source := e.source

/-- The row of a policy decision. -/
def policyDecisionRow (columns : Columns) (k : Nat) (d : PolicyDecision) : PolicyDecisionRow where
  id := columns.id .policyDecision k
  accountId := columns.id .account d.accountId
  customerId := columns.id .customer d.customerId
  inboundEventId := d.inboundEventId.map (columns.id .inboundEvent)
  decision := d.decision.value
  channel := d.channel.map OutreachChannel.value
  reasons := columns.reasons d.reasons
  evaluatedAt := columns.createdAt .policyDecision k

/-- The text of a task key, `src/orchestrator/orchestration/planner.py:304–306`. -/
def taskKey (columns : Columns) (key : TaskIdempotencyKey) : String :=
  "outreach_task:" ++ columns.text .inboundEvent key.inboundEventId ++ ":" ++ key.channel.value

/-- The row of an outreach task. -/
def outreachTaskRow (columns : Columns) (k : Nat) (t : OutreachTask) : CorrelatedTaskRow where
  id := columns.id .outreachTask k
  accountId := columns.id .account t.accountId
  customerId := columns.id .customer t.customerId
  channel := t.channel.value
  status := t.status.value
  scheduledAt := t.scheduledAt
  attemptCount := t.attemptCount
  maxAttempts := t.maxAttempts
  idempotencyKey := taskKey columns t.idempotencyKey
  policyDecisionId := t.policyDecisionId.map (columns.id .policyDecision)
  lastError := t.lastError
  createdAt := t.createdAt
  updatedAt := columns.updatedAt .outreachTask k
  correlationId := t.correlationId

/-- The row of an audit event. -/
def auditEventRow (columns : Columns) (k : Nat) (a : AuditEvent) : AuditEventRow where
  id := columns.auditId k
  entityType := a.entityType.value
  entityId := columns.text a.entityType a.entityId
  eventType := a.eventType.value
  actorType := a.actorType.value
  actorId := a.actorId
  correlationId := a.correlationId
  payload := columns.auditPayload a.payload
  createdAt := columns.auditCreatedAt k

/-- The content of the database that a store stands for. -/
def encode (columns : Columns) (s : Store) : Content SourcedEventRow CorrelatedTaskRow where
  auditEvents := s.auditEvents.mapIdx (auditEventRow columns)
  customers := s.customers.mapIdx (customerRow columns)
  inboundEvents := s.inboundEvents.mapIdx (inboundEventRow columns)
  accounts := s.accounts.mapIdx (accountRow columns)
  policyDecisions := s.policyDecisions.mapIdx (policyDecisionRow columns)
  outreachTasks := s.outreachTasks.mapIdx (outreachTaskRow columns)

/-- The generated ids of the rows are distinct UUIDs. -/
structure Columns.Distinct (columns : Columns) (s : Store) : Prop where
  uuid : ∀ table, ∀ k < count s table, columns.id table k < 2 ^ 128
  id : ∀ table, ∀ j < count s table, ∀ k < count s table,
    columns.id table j = columns.id table k → j = k
  auditId : ∀ j < s.auditEvents.length, ∀ k < s.auditEvents.length,
    columns.auditId j = columns.auditId k → j = k

/-- The column ranges that a store's own values must keep: texts and integers from outside,
attempts, and the actors of audit rows. -/
structure InRange (s : Store) : Prop where
  customers : ∀ c ∈ s.customers, c.fits = true
  accounts : ∀ a ∈ s.accounts, a.fits = true
  inboundEvents : ∀ e ∈ s.inboundEvents, e.fits = true
  idempotencyKeys : ∀ e ∈ s.inboundEvents, fitsString 255 e.idempotencyKey = true
  lastErrors : ∀ t ∈ s.outreachTasks, fitsStringOption 1000 t.lastError = true
  attempts : ∀ t ∈ s.outreachTasks, t.attemptCount ≤ 3 ∧ t.maxAttempts = 3
  actors : ∀ a ∈ s.auditEvents, fitsStringOption 255 a.actorId = true

/-! ### Rows by their columns -/

section

variable {α β γ : Type}

/-- A column that copies a value. -/
theorem map_mapIdx_column {f : Nat → α → β} {g : β → γ} {h : α → γ}
    (hcol : ∀ k a, g (f k a) = h a) (l : List α) : (l.mapIdx f).map g = l.map h := by
  apply List.ext_getElem
  · simp
  · intro i hi hj
    simp [hcol]

/-- Distinct values are a unique column. -/
theorem nodup_column {f : Nat → α → β} {g : β → γ} {h : α → γ} {l : List α}
    (hcol : ∀ k a, g (f k a) = h a) (hl : (l.map h).Nodup) : ((l.mapIdx f).map g).Nodup := by
  rw [map_mapIdx_column hcol]
  exact hl

/-- A column that depends on the key. -/
theorem map_mapIdx_key {f : Nat → α → β} {g : β → γ} {h : Nat → γ}
    (hcol : ∀ k a, g (f k a) = h k) (l : List α) :
    (l.mapIdx f).map g = (List.range l.length).map h := by
  apply List.ext_getElem
  · simp
  · intro i hi hj
    simp [hcol]

/-- What holds of the row of every stored value holds of every row. -/
theorem forall_mem_mapIdx {f : Nat → α → β} {p : β → Prop} {l : List α}
    (h : ∀ a ∈ l, ∀ k, p (f k a)) : ∀ b ∈ l.mapIdx f, p b := by
  intro b hb
  obtain ⟨i, hi, rfl⟩ := List.mem_mapIdx.mp hb
  exact h _ (List.getElem_mem hi) i

/-- Distinct keys are distinct ids. -/
theorem nodup_mapIdx {f : Nat → α → β} {g : β → Nat} {h : Nat → Nat}
    (hcol : ∀ k a, g (f k a) = h k) {l : List α}
    (hinj : ∀ j < l.length, ∀ k < l.length, h j = h k → j = k) : ((l.mapIdx f).map g).Nodup := by
  rw [map_mapIdx_key hcol]
  refine List.Nodup.map_on (fun j hj k hk he => ?_) List.nodup_range
  exact hinj j (List.mem_range.mp hj) k (List.mem_range.mp hk) he

/-- The id of a stored row is in its table. -/
theorem mem_ids {f : Nat → α → β} {g : β → Nat} {h : Nat → Nat} (hcol : ∀ k a, g (f k a) = h k)
    {l : List α} {k : Nat} (hk : k < l.length) : h k ∈ (l.mapIdx f).map g := by
  rw [map_mapIdx_key hcol]
  exact List.mem_map_of_mem (List.mem_range.mpr hk)

end

end Migrations

end Orchestrator
