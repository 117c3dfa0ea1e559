import Orchestrator.Orchestration.Planner

/-!
# Event ingestion

`src/orchestrator/domain/event_ingestion.py` and the replay key of
`src/orchestrator/domain/inbound_events.py`, run alone. The function owns its
transaction: an error leaves the committed store as it was, so the result is either
the store that is committed or the exception that is raised.
-/

namespace Orchestrator.Domain

open Base Orchestration

/-- One call of `ingest_event_snapshot`,
`src/orchestrator/domain/event_ingestion.py:84–96`. -/
structure EventSubmission where
  source : String
  externalId : String
  eventType : EventType
  customer : CustomerSnapshot
  account : AccountSnapshot
  occurredAt : OffsetDatetime
  metadata : JsonObject
  correlationId : Nat

/-- `EventIngestionResult`, `src/orchestrator/domain/event_ingestion.py:65–77`. -/
structure EventIngestionResult where
  eventId : Nat
  createdTasks : Nat
  blockedTasks : Nat
  deferredTasks : Nat
  cancelledTasks : Nat
  policyDecisions : Nat
  deriving DecidableEq, Repr

/-- `inbound_event_idempotency_key`, `src/orchestrator/domain/inbound_events.py:4–12`. -/
def inboundEventIdempotencyKey (rt : Runtime) (source externalId : String) : String :=
  "inbound_event:" ++ rt.sha256hex (source ++ "\x1f" ++ externalId)

/-- A new customer before its snapshot is applied: constructor arguments and column
defaults, `src/orchestrator/domain/event_ingestion.py:205–208`. -/
def newCustomer (externalId fullName : String) : Customer where
  externalId := externalId
  fullName := fullName
  timezone := "America/New_York"
  phoneNumber := none
  email := none
  smsConsent := false
  callConsent := false
  emailConsent := false
  optedOut := false

/-- The snapshot columns of a customer,
`src/orchestrator/domain/event_ingestion.py:209–215`. -/
def applyCustomerSnapshot (snapshot : CustomerSnapshot) (c : Customer) : Customer :=
  { c with
    fullName := snapshot.fullName
    timezone := snapshot.timezone
    phoneNumber := snapshot.phoneNumber
    email := snapshot.email
    smsConsent := snapshot.smsConsent
    callConsent := snapshot.callConsent
    emailConsent := snapshot.emailConsent }

/-- `_upsert_customer`, `src/orchestrator/domain/event_ingestion.py:192–217`. -/
def upsertCustomer (s : Store) (snapshot : CustomerSnapshot) : Except Failure (Store × Nat) :=
  match s.customerByExternalId snapshot.externalId with
  | none =>
    let row := applyCustomerSnapshot snapshot (newCustomer snapshot.externalId snapshot.fullName)
    if row.fits then .ok ({ s with customers := s.customers ++ [row] }, s.customers.length)
    else .error (.dataError "customers")
  | some id =>
    let rows := s.customers.modify id (applyCustomerSnapshot snapshot)
    if (rows[id]?).all Customer.fits then .ok ({ s with customers := rows }, id)
    else .error (.dataError "customers")

/-- A new account, `src/orchestrator/domain/event_ingestion.py:235–240` and the columns
set at `:246–248`. -/
def newAccount (snapshot : AccountSnapshot) (customerId : Nat) : Account where
  externalId := snapshot.externalId
  customerId := customerId
  status := snapshot.status
  balanceCents := snapshot.balanceCents
  daysPastDue := snapshot.daysPastDue

/-- The snapshot columns of an account,
`src/orchestrator/domain/event_ingestion.py:246–248`. -/
def applyAccountSnapshot (snapshot : AccountSnapshot) (a : Account) : Account :=
  { a with
    status := snapshot.status
    balanceCents := snapshot.balanceCents
    daysPastDue := snapshot.daysPastDue }

/-- `_upsert_account`, `src/orchestrator/domain/event_ingestion.py:220–249`. -/
def upsertAccount (s : Store) (snapshot : AccountSnapshot) (customerId : Nat) :
    Except Failure (Store × Nat) :=
  match s.accountByExternalId snapshot.externalId with
  | none =>
    let row := newAccount snapshot customerId
    if row.fits then .ok ({ s with accounts := s.accounts ++ [row] }, s.accounts.length)
    else .error (.dataError "accounts")
  | some id =>
    if (s.accounts[id]?).any (fun a => a.customerId ≠ customerId) then
      .error (.eventIngestionValidation
        "Account external_id already belongs to another customer")
    else
      let rows := s.accounts.modify id (applyAccountSnapshot snapshot)
      if (rows[id]?).all Account.fits then .ok ({ s with accounts := rows }, id)
      else .error (.dataError "accounts")

/-- The inbound event row, `src/orchestrator/domain/event_ingestion.py:113–131`. -/
def inboundEventRow (rt : Runtime) (sub : EventSubmission) : InboundEvent where
  source := sub.source
  externalId := sub.externalId
  eventType := sub.eventType
  customerExternalId := sub.customer.externalId
  accountExternalId := sub.account.externalId
  idempotencyKey := inboundEventIdempotencyKey rt sub.source sub.externalId
  processingStatus := .received
  payload :=
    { source := sub.source
      externalId := sub.externalId
      eventType := sub.eventType
      customer := sub.customer
      account := sub.account
      occurredAt := sub.occurredAt.toDatetime.isoformat
      metadata := sub.metadata }

/-- Flush of the inbound event under its two unique indexes,
`src/orchestrator/domain/event_ingestion.py:132–134`. -/
def insertInboundEvent (s : Store) (row : InboundEvent) : Except Failure (Store × Nat) :=
  if !row.fits then .error (.dataError "inbound_events")
  else if s.inboundEvents.any
      (fun e => e.source = row.source ∧ e.externalId = row.externalId) then
    .error (.integrity .inboundEventsSourceExternalId)
  else if s.inboundEvents.any (fun e => e.idempotencyKey = row.idempotencyKey) then
    .error (.integrity .inboundEventsIdempotencyKey)
  else .ok ({ s with inboundEvents := s.inboundEvents ++ [row] }, s.inboundEvents.length)

/-- The audit rows `event_received` and `event_accepted`,
`src/orchestrator/domain/event_ingestion.py:144–167`. -/
def ingestionAudit (row : InboundEvent) (eventId correlationId : Nat)
    (eventType : AuditEventType) (actorType : AuditActorType) : AuditEvent where
  entityType := .inboundEvent
  entityId := eventId
  eventType := eventType
  actorType := actorType
  actorId := none
  correlationId := correlationId
  payload := { source := some row.source, eventType := some row.eventType,
               externalId := some row.externalId, idempotencyKey := some row.idempotencyKey }

/-- The rows whose payload the last query of `_result_from_existing_event` reads,
`src/orchestrator/domain/event_ingestion.py:292–293`. -/
def isCancellation (a : AuditEvent) : Bool :=
  a.entityType = .outreachTask && a.eventType = .outreachCancelled

/-- That query can read every payload that it has to. -/
def cancellationsReadable (s : Store) : Bool :=
  s.auditEvents.all fun a => !isCancellation a || a.payload.readable

/-- The five counts, `src/orchestrator/domain/event_ingestion.py:261–304`. -/
def storedResult (s : Store) (eventId : Nat) : EventIngestionResult where
  eventId := eventId
  policyDecisions := s.policyDecisions.countP fun d => d.inboundEventId = some eventId
  blockedTasks := s.policyDecisions.countP fun d =>
    d.inboundEventId = some eventId && d.decision = .block
  deferredTasks := s.policyDecisions.countP fun d =>
    d.inboundEventId = some eventId && d.decision = .defer
  createdTasks := s.outreachTasks.countP fun t => t.policyDecisionId.any fun d =>
    (s.policyDecisions[d]?).any fun row => row.inboundEventId = some eventId
  cancelledTasks := s.auditEvents.countP fun a =>
    isCancellation a && a.payload.inboundEventId = some eventId

/-- `_result_from_existing_event`, `src/orchestrator/domain/event_ingestion.py:252–304`. The
filter on `payload` is evaluated on the rows that meet the two before it, whichever event they
name. -/
def resultFromExistingEvent (s : Store) (eventId : Nat) : Except Failure EventIngestionResult :=
  if cancellationsReadable s then .ok (storedResult s eventId)
  else .error (.untranslatableCharacter "payload")

/-- `_result_from_planner`, `src/orchestrator/domain/event_ingestion.py:307–319`. -/
def resultFromPlanner (eventId : Nat) (r : PlannerResult) : EventIngestionResult where
  eventId := eventId
  createdTasks := r.createdTasks
  blockedTasks := r.blockedAttempts
  deferredTasks := r.deferredAttempts
  cancelledTasks := r.cancelledTasks
  policyDecisions := r.policyDecisions

/-- The default `frequency_cap` of the planner,
`src/orchestrator/orchestration/planner.py:70`. -/
def defaultFrequencyCap : Nat := 3

/-- `processing_status = PROCESSED` on one event,
`src/orchestrator/domain/event_ingestion.py:175`. -/
def markProcessed (s : Store) (eventId : Nat) : Store :=
  { s with
    inboundEvents := s.inboundEvents.modify eventId
      (fun e => { e with processingStatus := .processed }) }

/-- What follows the insert of a fresh inbound event: two audit rows, the planner, the
processed status and the commit, `src/orchestrator/domain/event_ingestion.py:144–178`. -/
def processInboundEvent (rt : Runtime) (s : Store) (row : InboundEvent) (eventId : Nat)
    (sub : EventSubmission) (clock : Int) : Except Failure (Store × EventIngestionResult) := do
  let received := s.appendAuditEvent
    (ingestionAudit row eventId sub.correlationId .eventReceived .apiClient)
  let accepted := received.appendAuditEvent
    (ingestionAudit row eventId sub.correlationId .eventAccepted .system)
  let (planned, result) ← planOutreachForEvent rt accepted eventId sub.correlationId
    sub.occurredAt.toDatetime defaultFrequencyCap clock
  .ok (markProcessed planned eventId, resultFromPlanner eventId result)

/-- `ingest_event_snapshot`, `src/orchestrator/domain/event_ingestion.py:84–178`. An
`IntegrityError` of the event insert rolls back to the committed store and looks the
event up once more. -/
def ingestEventSnapshot (rt : Runtime) (s : Store) (sub : EventSubmission) (clock : Int) :
    Except Failure (Store × EventIngestionResult) :=
  match s.findExistingEvent sub.source sub.externalId with
  | some eventId => (resultFromExistingEvent s eventId).map fun result => (s, result)
  | none => do
    let (withCustomer, customerId) ← upsertCustomer s sub.customer
    let (withAccount, _) ← upsertAccount withCustomer sub.account customerId
    match insertInboundEvent withAccount (inboundEventRow rt sub) with
    | .ok (inserted, eventId) =>
      processInboundEvent rt inserted (inboundEventRow rt sub) eventId sub clock
    | .error (.integrity index) =>
      match s.findExistingEvent sub.source sub.externalId with
      | some eventId => (resultFromExistingEvent s eventId).map fun result => (s, result)
      | none => .error (.integrity index)
    | .error e => .error e

/-- A call whose event is stored reads its reply back and changes nothing. -/
theorem ingestEventSnapshot_seen {rt : Runtime} {s : Store} {sub : EventSubmission} {id : Nat}
    (h : s.findExistingEvent sub.source sub.externalId = some id) (clock : Int) :
    ingestEventSnapshot rt s sub clock =
      (resultFromExistingEvent s id).map fun result => (s, result) := by
  rw [ingestEventSnapshot, h]

/-- A replay that returns could read the cancellations and returns the stored counts. -/
theorem ingestEventSnapshot_replayed {rt : Runtime} {s s' : Store} {sub : EventSubmission}
    {id : Nat} {clock : Int} {r : EventIngestionResult}
    (hseen : s.findExistingEvent sub.source sub.externalId = some id)
    (h : ingestEventSnapshot rt s sub clock = .ok (s', r)) :
    cancellationsReadable s = true ∧ s' = s ∧ r = storedResult s id := by
  rw [ingestEventSnapshot_seen hseen, resultFromExistingEvent] at h
  split at h
  · next hreadable =>
    cases h
    exact ⟨hreadable, rfl, rfl⟩
  · cases h

/-- The committed store after a call: an exception leaves it unchanged. -/
def ingest (rt : Runtime) (s : Store) (sub : EventSubmission) (clock : Int) : Store :=
  match ingestEventSnapshot rt s sub clock with
  | .ok (s', _) => s'
  | .error _ => s

end Orchestrator.Domain
