import Orchestrator.Base.Civil
import Orchestrator.Base.Table

/-!
# Rows, columns and the store

The tables of `src/orchestrator/models.py` and the values that travel between the
modules. A primary key is a row's position in its table: `uuid4` keys are fresh and
no path deletes a row. Columns that no modelled function reads (`received_at`,
`evaluated_at`, `updated_at` and the creation times of rows other than tasks) are
left out. A JSON payload is a record of the keys that the program writes.
-/

namespace Orchestrator

open Base

/-- `AccountStatus`, `src/orchestrator/models.py:27–31`. -/
inductive AccountStatus where
  | current
  | delinquent
  | resolved
  | paused
  deriving DecidableEq, Repr

/-- `InboundEventStatus`, `src/orchestrator/models.py:34–37`. -/
inductive InboundEventStatus where
  | received
  | processed
  | failed
  deriving DecidableEq, Repr

/-- `OutreachChannel`, `src/orchestrator/models.py:40–43`. -/
inductive OutreachChannel where
  | call
  | sms
  | email
  deriving DecidableEq, Repr

/-- `OutreachTaskStatus`, `src/orchestrator/models.py:46–52`. -/
inductive OutreachTaskStatus where
  | scheduled
  | blocked
  | dispatching
  | sent
  | failed
  | cancelled
  deriving DecidableEq, Repr

/-- `PolicyDecisionOutcome`, `src/orchestrator/models.py:55–58`. -/
inductive PolicyDecisionOutcome where
  | allow
  | block
  | defer
  deriving DecidableEq, Repr

/-- `AuditActorType`, `src/orchestrator/models.py:61–65`. -/
inductive AuditActorType where
  | system
  | apiClient
  | worker
  | policyEngine
  deriving DecidableEq, Repr

/-- The six event types of `src/orchestrator/api/events.py:22–29`, and any other text,
which the planner refuses. -/
inductive EventType where
  | accountDelinquent
  | paymentFailed
  | paymentReceived
  | hardshipRequested
  | optOutReceived
  | accountPaused
  | other (text : String)
  deriving DecidableEq, Repr

/-- Reason texts of `src/orchestrator/policy/engine.py:61–128`. -/
inductive Reason where
  | customerOptedOut
  | missingSmsConsent
  | missingCallConsent
  | missingEmailConsent
  | accountPaused
  | accountResolved
  | quietHours
  | frequencyCapExceeded
  | policyAllowed
  deriving DecidableEq, Repr

/-- `entity_type` texts of audit rows. -/
inductive EntityType where
  | inboundEvent
  | customer
  | account
  | policyDecision
  | outreachTask
  deriving DecidableEq, Repr

/-- `event_type` texts of audit rows. -/
inductive AuditEventType where
  | eventReceived
  | eventAccepted
  | policyDecisionRecorded
  | outreachBlocked
  | outreachDeferred
  | outreachTaskScheduled
  | customerOptedOut
  | hardshipEscalationRequired
  | accountPaused
  | outreachCancelled
  | plannerPaymentReceivedProcessed
  | plannerOptOutProcessed
  | plannerHardshipProcessed
  | plannerAccountPausedProcessed
  | dispatchStarted
  | dispatchSucceeded
  | dispatchFailed
  | deliveryResultRecorded
  deriving DecidableEq, Repr

/-- A JSON value as far as the program inspects it: a string, or anything else in
serialised form. Its numbers are finite: PostgreSQL refuses a document with `NaN` or
`Infinity`. -/
inductive Json where
  | str (text : String)
  | other (serialised : String)
  deriving DecidableEq, Repr

/-- A JSON object. -/
abbrev JsonObject := List (String × Json)

/-- Unique indexes that inserts can violate. -/
inductive UniqueIndex where
  | customersExternalId
  | accountsExternalId
  | inboundEventsSourceExternalId
  | inboundEventsIdempotencyKey
  | outreachTasksIdempotencyKey
  deriving DecidableEq, Repr

/-- Exceptions that leave the modelled functions. The last two are PostgreSQL's for a U+0000 in
a text parameter and in a JSON document that `->>` reads. -/
inductive Failure where
  | eventIngestionValidation (message : String)
  | taskStateConflict (message : String)
  | valueError (message : String)
  | zoneInfoNotFound (key : String)
  | overflow
  | integrity (index : UniqueIndex)
  | dataError (column : String)
  | characterNotInRepertoire (parameter : String)
  | untranslatableCharacter (column : String)
  deriving DecidableEq, Repr

/-- Code outside the repository: the tz database, the text of the `ValueError` with which
`ZoneInfo` refuses a key for its form (an absolute path, say), and the hex form of SHA-256. -/
structure Runtime where
  zoneInfo : String → Option TimeZone
  zoneInfoError : String → Option String := fun _ => none
  sha256hex : String → String

/-- `CustomerSnapshot`, `src/orchestrator/domain/event_ingestion.py:29–45`. -/
structure CustomerSnapshot where
  externalId : String
  fullName : String
  timezone : String
  phoneNumber : Option String
  email : Option String
  smsConsent : Bool
  callConsent : Bool
  emailConsent : Bool
  deriving DecidableEq, Repr

/-- `AccountSnapshot`, `src/orchestrator/domain/event_ingestion.py:48–61`. -/
structure AccountSnapshot where
  externalId : String
  status : AccountStatus
  balanceCents : Int
  daysPastDue : Int
  deriving DecidableEq, Repr

/-- `Customer`, `src/orchestrator/models.py:84–120`. -/
structure Customer where
  externalId : String
  fullName : String
  timezone : String
  phoneNumber : Option String
  email : Option String
  smsConsent : Bool
  callConsent : Bool
  emailConsent : Bool
  optedOut : Bool
  deriving DecidableEq, Repr

/-- `Account`, `src/orchestrator/models.py:123–156`. -/
structure Account where
  externalId : String
  customerId : Nat
  status : AccountStatus
  balanceCents : Int
  daysPastDue : Int
  deriving DecidableEq, Repr

/-- JSON payload of an inbound event, `src/orchestrator/domain/event_ingestion.py:122–130`. -/
structure EventPayload where
  source : String
  externalId : String
  eventType : EventType
  customer : CustomerSnapshot
  account : AccountSnapshot
  occurredAt : Datetime.Isoformat
  metadata : JsonObject
  deriving DecidableEq, Repr

/-- `InboundEvent`, `src/orchestrator/models.py:159–195`. -/
structure InboundEvent where
  source : String
  externalId : String
  eventType : EventType
  customerExternalId : String
  accountExternalId : String
  payload : EventPayload
  idempotencyKey : String
  processingStatus : InboundEventStatus
  deriving DecidableEq, Repr

/-- `PolicyDecision`, `src/orchestrator/models.py:198–233`. -/
structure PolicyDecision where
  accountId : Nat
  customerId : Nat
  inboundEventId : Option Nat
  decision : PolicyDecisionOutcome
  channel : Option OutreachChannel
  reasons : List Reason
  deriving DecidableEq, Repr

/-- `outreach_task:{inbound_event_id}:{channel}`, injective in its two parts. -/
structure TaskIdempotencyKey where
  inboundEventId : Nat
  channel : OutreachChannel
  deriving DecidableEq, Repr

/-- `OutreachTask`, `src/orchestrator/models.py:236–289`. -/
structure OutreachTask where
  accountId : Nat
  customerId : Nat
  channel : OutreachChannel
  correlationId : Nat
  status : OutreachTaskStatus
  scheduledAt : Int
  attemptCount : Nat
  maxAttempts : Nat
  idempotencyKey : TaskIdempotencyKey
  policyDecisionId : Option Nat
  lastError : Option String
  createdAt : Int
  deriving DecidableEq, Repr

/-- Keys that the program writes into audit payloads; an absent key is `none`, and so
is a key whose value is JSON `null`. -/
structure AuditPayload where
  source : Option String := none
  eventType : Option EventType := none
  externalId : Option String := none
  idempotencyKey : Option String := none
  inboundEventId : Option Nat := none
  inboundEventType : Option EventType := none
  marker : Option AuditEventType := none
  customerExternalId : Option String := none
  accountExternalId : Option String := none
  decision : Option PolicyDecisionOutcome := none
  channel : Option OutreachChannel := none
  reasons : Option (List Reason) := none
  deferUntil : Option Datetime.Isoformat := none
  scheduledAt : Option Datetime.Isoformat := none
  attemptCount : Option Nat := none
  providerMessageId : Option String := none
  details : Option JsonObject := none
  error : Option String := none
  willRetry : Option Bool := none
  retryScheduledAt : Option Int := none
  finalStatus : Option OutreachTaskStatus := none
  previousStatus : Option OutreachTaskStatus := none
  newStatus : Option OutreachTaskStatus := none
  reason : Option String := none
  cancelledBy : Option String := none
  deriving DecidableEq, Repr

/-- `AuditEvent`, `src/orchestrator/models.py:292–319`. -/
structure AuditEvent where
  entityType : EntityType
  entityId : Nat
  eventType : AuditEventType
  actorType : AuditActorType
  actorId : Option String
  correlationId : Nat
  payload : AuditPayload
  deriving DecidableEq, Repr

/-- The committed database. -/
structure Store where
  customers : List Customer
  accounts : List Account
  inboundEvents : List InboundEvent
  policyDecisions : List PolicyDecision
  outreachTasks : List OutreachTask
  auditEvents : List AuditEvent
  deriving DecidableEq, Repr

/-- The database after the migrations and before the first request. -/
def Store.empty : Store := ⟨[], [], [], [], [], []⟩

/-- The cancelling write of a task row: `status` alone. -/
def OutreachTask.cancel (t : OutreachTask) : OutreachTask := { t with status := .cancelled }

/-- Cancel the tasks that satisfy `p`. -/
def OutreachTask.cancelWhere (p : OutreachTask → Bool) (t : OutreachTask) : OutreachTask :=
  if p t then t.cancel else t

/-- The columns of a task that no write touches after its insert. -/
def OutreachTask.planned (t : OutreachTask) : OutreachTask :=
  { t with status := .scheduled, scheduledAt := 0, attemptCount := 0, lastError := none }

/-- The `updated_at` column of the tasks after updates at the database time `clock`,
`src/orchestrator/models.py:280–285`, derived from the rows before and after and not from the
writes: every update of a worker pass or of a cancellation changes the status too. -/
def touched (clock : Int) (before after : List OutreachTask) (updatedAt : Nat → Int) (k : Nat) :
    Int :=
  if after[k]? = before[k]? then updatedAt k else clock

/-- Text of an event type. -/
def EventType.value : EventType → String
  | .accountDelinquent => "account_delinquent"
  | .paymentFailed => "payment_failed"
  | .paymentReceived => "payment_received"
  | .hardshipRequested => "hardship_requested"
  | .optOutReceived => "opt_out_received"
  | .accountPaused => "account_paused"
  | .other text => text

/-- The event types with a processed marker, `src/orchestrator/orchestration/planner.py:34–39`. -/
def EventType.cancelling : EventType → Bool
  | .paymentReceived | .optOutReceived | .hardshipRequested | .accountPaused => true
  | .accountDelinquent | .paymentFailed | .other _ => false

/-- The account status that an event leaves behind: its snapshot's, unless it pauses. -/
def InboundEvent.leavesStatus (e : InboundEvent) : AccountStatus :=
  if e.eventType = .accountPaused then .paused else e.payload.account.status

/-- Text of a channel. -/
def OutreachChannel.value : OutreachChannel → String
  | .call => "call"
  | .sms => "sms"
  | .email => "email"

/-- Stored consent of a customer for a channel. -/
def Customer.consent (c : Customer) : OutreachChannel → Bool
  | .sms => c.smsConsent
  | .call => c.callConsent
  | .email => c.emailConsent

/-- Consent of a customer snapshot for a channel. -/
def CustomerSnapshot.consent (c : CustomerSnapshot) : OutreachChannel → Bool
  | .sms => c.smsConsent
  | .call => c.callConsent
  | .email => c.emailConsent

/-- PostgreSQL's texts hold no U+0000. -/
def nulFree (s : String) : Bool := s.toList.all fun c => c.toNat ≠ 0

/-- `payload ->> 'inbound_event_id'` returns: it raises where a text of the document holds
U+0000. Of the texts in an `outreach_cancelled` payload only an operator's reason can hold it;
the others are constants or come from text columns. -/
def AuditPayload.readable (p : AuditPayload) : Bool := p.reason.all nulFree

/-- PostgreSQL `INTEGER` range. -/
def fitsInteger (n : Int) : Bool := -2147483648 ≤ n && n ≤ 2147483647

/-- PostgreSQL `VARCHAR(n)` range. -/
def fitsString (n : Nat) (s : String) : Bool := s.length ≤ n

/-- Nullable `VARCHAR(n)` range. -/
def fitsStringOption (n : Nat) (s : Option String) : Bool := s.all (fitsString n)

/-- Column ranges of a customer row. -/
def Customer.fits (c : Customer) : Bool :=
  fitsString 255 c.externalId && fitsString 255 c.fullName && fitsString 64 c.timezone &&
    fitsStringOption 64 c.phoneNumber && fitsStringOption 255 c.email

/-- Column ranges of an account row. -/
def Account.fits (a : Account) : Bool :=
  fitsString 255 a.externalId && fitsInteger a.balanceCents && fitsInteger a.daysPastDue

/-- Column ranges of an inbound event row. The idempotency key is a prefix and a digest of
fixed length and fits its column. -/
def InboundEvent.fits (e : InboundEvent) : Bool :=
  fitsString 255 e.source && fitsString 255 e.externalId &&
    fitsString 255 e.eventType.value && fitsString 255 e.customerExternalId &&
    fitsString 255 e.accountExternalId

namespace Store

/-- `append_audit_event` inside the caller's transaction,
`src/orchestrator/domain/audit_log.py:10–40`. -/
def appendAuditEvent (s : Store) (row : AuditEvent) : Store :=
  { s with auditEvents := s.auditEvents ++ [row] }

@[simp] theorem appendAuditEvent_customers (s : Store) (row : AuditEvent) :
    (s.appendAuditEvent row).customers = s.customers := rfl

@[simp] theorem appendAuditEvent_accounts (s : Store) (row : AuditEvent) :
    (s.appendAuditEvent row).accounts = s.accounts := rfl

@[simp] theorem appendAuditEvent_inboundEvents (s : Store) (row : AuditEvent) :
    (s.appendAuditEvent row).inboundEvents = s.inboundEvents := rfl

@[simp] theorem appendAuditEvent_policyDecisions (s : Store) (row : AuditEvent) :
    (s.appendAuditEvent row).policyDecisions = s.policyDecisions := rfl

@[simp] theorem appendAuditEvent_outreachTasks (s : Store) (row : AuditEvent) :
    (s.appendAuditEvent row).outreachTasks = s.outreachTasks := rfl

@[simp] theorem appendAuditEvent_auditEvents (s : Store) (row : AuditEvent) :
    (s.appendAuditEvent row).auditEvents = s.auditEvents ++ [row] := rfl

/-- Row of the customer with an external id. -/
def customerByExternalId (s : Store) (x : String) : Option Nat :=
  Table.lookup Customer.externalId x s.customers

/-- Row of the account with an external id. -/
def accountByExternalId (s : Store) (x : String) : Option Nat :=
  Table.lookup Account.externalId x s.accounts

/-- `_find_existing_event`, `src/orchestrator/domain/event_ingestion.py:181–189`. -/
def findExistingEvent (s : Store) (source externalId : String) : Option Nat :=
  Table.lookup (fun e : InboundEvent => (e.source, e.externalId)) (source, externalId)
    s.inboundEvents

end Store

end Orchestrator
