import Orchestrator.Models

/-!
# The core tables

`alembic/versions/be0bd9c687b8_create_core_tables.py`. A database content is the rows of the
six tables, with UUIDs as numbers, timestamps as instants and JSON documents as the text that
a `json` column keeps; it is valid when it meets every constraint that the revision declares.
Enumerations are strings there, as long as their longest value.
-/

namespace Orchestrator.Migrations

/-- `audit_events`, `alembic/versions/be0bd9c687b8_create_core_tables.py:22–50`. -/
structure AuditEventRow where
  id : Nat
  entityType : String
  entityId : String
  eventType : String
  actorType : String
  actorId : Option String
  correlationId : Nat
  payload : String
  createdAt : Int
  deriving DecidableEq, Repr

/-- `customers`, `alembic/versions/be0bd9c687b8_create_core_tables.py:63–89`. -/
structure CustomerRow where
  id : Nat
  externalId : String
  fullName : String
  timezone : String
  phoneNumber : Option String
  email : Option String
  smsConsent : Bool
  callConsent : Bool
  emailConsent : Bool
  optedOut : Bool
  createdAt : Int
  updatedAt : Int
  deriving DecidableEq, Repr

/-- `inbound_events`, `alembic/versions/be0bd9c687b8_create_core_tables.py:90–119`. -/
structure InboundEventRow where
  id : Nat
  externalId : String
  eventType : String
  customerExternalId : String
  accountExternalId : String
  payload : String
  receivedAt : Int
  idempotencyKey : String
  processingStatus : String
  deriving DecidableEq, Repr

/-- `accounts`, `alembic/versions/be0bd9c687b8_create_core_tables.py:120–157`. -/
structure AccountRow where
  id : Nat
  externalId : String
  customerId : Nat
  status : String
  balanceCents : Int
  daysPastDue : Int
  createdAt : Int
  updatedAt : Int
  deriving DecidableEq, Repr

/-- `policy_decisions`, `alembic/versions/be0bd9c687b8_create_core_tables.py:158–200`. -/
structure PolicyDecisionRow where
  id : Nat
  accountId : Nat
  customerId : Nat
  inboundEventId : Option Nat
  decision : String
  channel : Option String
  reasons : String
  evaluatedAt : Int
  deriving DecidableEq, Repr

/-- `outreach_tasks`, `alembic/versions/be0bd9c687b8_create_core_tables.py:201–257`. -/
structure OutreachTaskRow where
  id : Nat
  accountId : Nat
  customerId : Nat
  channel : String
  status : String
  scheduledAt : Int
  attemptCount : Int
  maxAttempts : Int
  idempotencyKey : String
  policyDecisionId : Option Nat
  lastError : Option String
  createdAt : Int
  updatedAt : Int
  deriving DecidableEq, Repr

/-- The rows of the six tables, for the columns that a revision gives to inbound events and
to outreach tasks. -/
structure Content (ε τ : Type) where
  auditEvents : List AuditEventRow
  customers : List CustomerRow
  inboundEvents : List ε
  accounts : List AccountRow
  policyDecisions : List PolicyDecisionRow
  outreachTasks : List τ

/-- Replace the inbound events. -/
def Content.withEvents {ε ε' τ : Type} (db : Content ε τ) (inboundEvents : List ε') :
    Content ε' τ :=
  ⟨db.auditEvents, db.customers, inboundEvents, db.accounts, db.policyDecisions,
    db.outreachTasks⟩

/-- Replace the outreach tasks. -/
def Content.withTasks {ε τ τ' : Type} (db : Content ε τ) (outreachTasks : List τ') :
    Content ε τ' :=
  ⟨db.auditEvents, db.customers, db.inboundEvents, db.accounts, db.policyDecisions,
    outreachTasks⟩

/-! ### Column types -/

/-- Column ranges of `audit_events`. -/
def AuditEventRow.fits (a : AuditEventRow) : Bool :=
  fitsString 255 a.entityType && fitsString 255 a.entityId && fitsString 255 a.eventType &&
    fitsString 13 a.actorType && fitsStringOption 255 a.actorId

/-- Column ranges of `customers`. -/
def CustomerRow.fits (c : CustomerRow) : Bool :=
  fitsString 255 c.externalId && fitsString 255 c.fullName && fitsString 64 c.timezone &&
    fitsStringOption 64 c.phoneNumber && fitsStringOption 255 c.email

/-- Column ranges of `inbound_events`. -/
def InboundEventRow.fits (e : InboundEventRow) : Bool :=
  fitsString 255 e.externalId && fitsString 255 e.eventType &&
    fitsString 255 e.customerExternalId && fitsString 255 e.accountExternalId &&
    fitsString 255 e.idempotencyKey && fitsString 9 e.processingStatus

/-- Column ranges of `accounts`. -/
def AccountRow.fits (a : AccountRow) : Bool :=
  fitsString 255 a.externalId && fitsString 10 a.status && fitsInteger a.balanceCents &&
    fitsInteger a.daysPastDue

/-- Column ranges of `policy_decisions`. -/
def PolicyDecisionRow.fits (d : PolicyDecisionRow) : Bool :=
  fitsString 5 d.decision && fitsStringOption 5 d.channel

/-- Column ranges of `outreach_tasks`. -/
def OutreachTaskRow.fits (t : OutreachTaskRow) : Bool :=
  fitsString 5 t.channel && fitsString 11 t.status && fitsInteger t.attemptCount &&
    fitsInteger t.maxAttempts && fitsString 255 t.idempotencyKey &&
    fitsStringOption 1000 t.lastError

/-! ### Constraints -/

/-- The primary keys of the six tables. -/
structure PrimaryKeys (db : Content InboundEventRow OutreachTaskRow) : Prop where
  auditEvents : (db.auditEvents.map AuditEventRow.id).Nodup
  customers : (db.customers.map CustomerRow.id).Nodup
  inboundEvents : (db.inboundEvents.map InboundEventRow.id).Nodup
  accounts : (db.accounts.map AccountRow.id).Nodup
  policyDecisions : (db.policyDecisions.map PolicyDecisionRow.id).Nodup
  outreachTasks : (db.outreachTasks.map OutreachTaskRow.id).Nodup

/-- The foreign keys. -/
structure ForeignKeys (db : Content InboundEventRow OutreachTaskRow) : Prop where
  accountCustomer : ∀ a ∈ db.accounts, a.customerId ∈ db.customers.map CustomerRow.id
  decisionAccount : ∀ d ∈ db.policyDecisions, d.accountId ∈ db.accounts.map AccountRow.id
  decisionCustomer : ∀ d ∈ db.policyDecisions, d.customerId ∈ db.customers.map CustomerRow.id
  decisionEvent : ∀ d ∈ db.policyDecisions, ∀ e ∈ d.inboundEventId,
    e ∈ db.inboundEvents.map InboundEventRow.id
  taskAccount : ∀ t ∈ db.outreachTasks, t.accountId ∈ db.accounts.map AccountRow.id
  taskCustomer : ∀ t ∈ db.outreachTasks, t.customerId ∈ db.customers.map CustomerRow.id
  taskDecision : ∀ t ∈ db.outreachTasks, ∀ d ∈ t.policyDecisionId,
    d ∈ db.policyDecisions.map PolicyDecisionRow.id

/-- The column types of the six tables. -/
structure ColumnTypes (db : Content InboundEventRow OutreachTaskRow) : Prop where
  auditEvents : ∀ a ∈ db.auditEvents, a.fits = true
  customers : ∀ c ∈ db.customers, c.fits = true
  inboundEvents : ∀ e ∈ db.inboundEvents, e.fits = true
  accounts : ∀ a ∈ db.accounts, a.fits = true
  policyDecisions : ∀ d ∈ db.policyDecisions, d.fits = true
  outreachTasks : ∀ t ∈ db.outreachTasks, t.fits = true

/-- The constraints that no later revision touches. -/
structure Lasting (db : Content InboundEventRow OutreachTaskRow) : Prop where
  primaryKeys : PrimaryKeys db
  foreignKeys : ForeignKeys db
  columnTypes : ColumnTypes db
  customerExternalId : (db.customers.map CustomerRow.externalId).Nodup
  accountExternalId : (db.accounts.map AccountRow.externalId).Nodup
  eventIdempotencyKey : (db.inboundEvents.map InboundEventRow.idempotencyKey).Nodup
  taskIdempotencyKey : (db.outreachTasks.map OutreachTaskRow.idempotencyKey).Nodup

/-- A content of revision `be0bd9c687b8`, where an event's external id is unique,
`alembic/versions/be0bd9c687b8_create_core_tables.py:20–269`. -/
structure Created (db : Content InboundEventRow OutreachTaskRow) : Prop where
  lasting : Lasting db
  eventExternalId : (db.inboundEvents.map InboundEventRow.externalId).Nodup

end Orchestrator.Migrations
