import Orchestrator.Policy.Engine

/-!
# Outreach planner

`src/orchestrator/orchestration/planner.py`. The planner runs inside the caller's
transaction: each function takes the store that the transaction sees and returns the
store that it would commit. `clock` is the database clock of the transaction, which
fills `created_at`; `now` is the caller's `occurred_at`.
-/

namespace Orchestrator.Orchestration

open Base Policy

/-- `PlannerResult`, `src/orchestrator/orchestration/planner.py:42–55`. -/
structure PlannerResult where
  inboundEventId : Nat
  createdTasks : Nat := 0
  cancelledTasks : Nat := 0
  policyDecisions : Nat := 0
  blockedAttempts : Nat := 0
  deferredAttempts : Nat := 0
  deriving DecidableEq, Repr

/-- `ProposedOutreach`, `src/orchestrator/orchestration/planner.py:58–61`. -/
structure ProposedOutreach where
  channel : OutreachChannel
  scheduledAt : Datetime

/-- The rows that one planning pass holds in memory: the inbound event, its customer
and its account, under their keys. -/
structure EventContext where
  inboundEventId : Nat
  inboundEvent : InboundEvent
  customerId : Nat
  customer : Customer
  accountId : Nat
  account : Account
  correlationId : Nat
  deriving DecidableEq, Repr

/-- `_RECENT_ATTEMPT_STATUSES`, `src/orchestrator/orchestration/planner.py:27–32`. -/
def recentAttemptStatus : OutreachTaskStatus → Bool
  | .scheduled | .dispatching | .sent | .failed => true
  | .blocked | .cancelled => false

/-- `_audit`, `src/orchestrator/orchestration/planner.py:538–567`. -/
def plannerAudit (ctx : EventContext) (eventType : AuditEventType) (entityType : EntityType)
    (entityId : Nat) (payload : AuditPayload) : AuditEvent where
  entityType := entityType
  entityId := entityId
  eventType := eventType
  actorType := .system
  actorId := some "outreach-planner"
  correlationId := ctx.correlationId
  payload := { payload with inboundEventId := some ctx.inboundEventId,
                            inboundEventType := some ctx.inboundEvent.eventType }

/-- `_has_processed_marker`, `src/orchestrator/orchestration/planner.py:493–510`. -/
def hasProcessedMarker (s : Store) (inboundEventId : Nat) (marker : AuditEventType) : Bool :=
  s.auditEvents.any fun a =>
    a.entityType = .inboundEvent ∧ a.entityId = inboundEventId ∧ a.eventType = marker

/-- The row of `_append_processed_marker`,
`src/orchestrator/orchestration/planner.py:513–535`. -/
def processedMarker (ctx : EventContext) (marker : AuditEventType) : AuditEvent where
  entityType := .inboundEvent
  entityId := ctx.inboundEventId
  eventType := marker
  actorType := .system
  actorId := some "outreach-planner"
  correlationId := ctx.correlationId
  payload := { marker := some marker, inboundEventType := some ctx.inboundEvent.eventType }

/-- `_recent_attempt_count`, `src/orchestrator/orchestration/planner.py:399–419`. -/
def recentAttemptCount (s : Store) (customerId : Nat) (now : Datetime) : Except Failure Nat := do
  let since ← orThrow .overflow (now.add (-(24 * hour)))
  let since ← orThrow .overflow since.timestamptz
  .ok (s.outreachTasks.countP fun t =>
    t.customerId = customerId && recentAttemptStatus t.status && since ≤ t.createdAt)

/-- The weekend loop of `_next_business_day_at_10`, unrolled to the two iterations it
can take, `src/orchestrator/orchestration/planner.py:459–460`. -/
def skipWeekend (candidate : Int) : Int :=
  if 5 ≤ weekday candidate then
    if 5 ≤ weekday (candidate + 1) then candidate + 2 else candidate + 1
  else candidate

/-- `_next_business_day_at_10`, `src/orchestrator/orchestration/planner.py:449–464`. -/
def nextBusinessDayAt10 (rt : Runtime) (now : Datetime) (customerTimezone : String) :
    Except Failure Datetime := do
  let unknown := (rt.zoneInfoError customerTimezone).elim
    (.zoneInfoNotFound customerTimezone) Failure.valueError
  let zone ← orThrow unknown (rt.zoneInfo customerTimezone)
  let localNow ← orThrow .overflow (now.astimezone customerTimezone zone)
  let candidate := skipWeekend (localNow.date + 1)
  orThrow .overflow (Datetime.combine candidate (10 * hour) customerTimezone zone)

/-- `_proposals_for_event`, `src/orchestrator/orchestration/planner.py:422–446`. -/
def proposalsForEvent (rt : Runtime) (eventType : EventType) (now : Datetime)
    (customerTimezone : String) : Except Failure (List ProposedOutreach) :=
  match eventType with
  | .accountDelinquent => do
    let sms ← orThrow .overflow (now.add (30 * minute))
    let call ← nextBusinessDayAt10 rt now customerTimezone
    .ok [⟨.email, now⟩, ⟨.sms, sms⟩, ⟨.call, call⟩]
  | .paymentFailed => do
    let sms ← orThrow .overflow (now.add (15 * minute))
    .ok [⟨.email, now⟩, ⟨.sms, sms⟩]
  | other => .error (.valueError ("Unsupported policy event type: " ++ other.value))

/-- Variables of the proposal loop of `_plan_policy_event`,
`src/orchestrator/orchestration/planner.py:208–212`. -/
structure PlanLoop where
  store : Store
  recentCount : Nat
  createdTasks : Nat := 0
  policyDecisions : Nat := 0
  blockedAttempts : Nat := 0
  deferredAttempts : Nat := 0

/-- The policy input of one proposal, `src/orchestrator/orchestration/planner.py:218–229`. -/
def policyInput (ctx : EventContext) (frequencyCap recentCount : Nat) (p : ProposedOutreach) :
    PolicyInput where
  channel := p.channel
  scheduledAt := p.scheduledAt
  customerTimezone := ctx.customer.timezone
  smsConsent := ctx.customer.smsConsent
  callConsent := ctx.customer.callConsent
  emailConsent := ctx.customer.emailConsent
  optedOut := ctx.customer.optedOut
  accountStatus := ctx.account.status
  recentOutboundAttemptCount := recentCount
  frequencyCap := frequencyCap

/-- The decision row of one proposal, `src/orchestrator/orchestration/planner.py:231–238`. -/
def decisionRow (ctx : EventContext) (r : PolicyResult) : PolicyDecision where
  accountId := ctx.accountId
  customerId := ctx.customerId
  inboundEventId := some ctx.inboundEventId
  decision := r.decision
  channel := some r.channel
  reasons := r.reasons

/-- The task row of one proposal, `src/orchestrator/orchestration/planner.py:297–308`, with
the column defaults of `src/orchestrator/models.py:268–269`. -/
def taskRow (ctx : EventContext) (channel : OutreachChannel) (policyDecisionId : Nat)
    (scheduledAt clock : Int) : OutreachTask where
  accountId := ctx.accountId
  customerId := ctx.customerId
  channel := channel
  correlationId := ctx.correlationId
  status := .scheduled
  scheduledAt := scheduledAt
  attemptCount := 0
  maxAttempts := 3
  idempotencyKey := ⟨ctx.inboundEventId, channel⟩
  policyDecisionId := some policyDecisionId
  lastError := none
  createdAt := clock

/-- Audit row of a decision, `src/orchestrator/orchestration/planner.py:242–254`. -/
def decisionRecordedRow (ctx : EventContext) (decisionId : Nat) (r : PolicyResult) : AuditEvent :=
  plannerAudit ctx .policyDecisionRecorded .policyDecision decisionId
    { decision := some r.decision, channel := some r.channel, reasons := some r.reasons }

/-- Audit row of a blocked proposal, `src/orchestrator/orchestration/planner.py:258–269`. -/
def blockedRow (ctx : EventContext) (r : PolicyResult) : AuditEvent :=
  plannerAudit ctx .outreachBlocked .account ctx.accountId
    { channel := some r.channel, reasons := some r.reasons }

/-- Audit row of a deferred proposal, `src/orchestrator/orchestration/planner.py:275–289`. -/
def deferredRow (ctx : EventContext) (r : PolicyResult) : AuditEvent :=
  plannerAudit ctx .outreachDeferred .account ctx.accountId
    { channel := some r.channel, reasons := some r.reasons,
      deferUntil := r.deferUntil.map Datetime.isoformat }

/-- Audit row of a scheduled task, `src/orchestrator/orchestration/planner.py:312–323`. -/
def taskScheduledRow (ctx : EventContext) (channel : OutreachChannel) (scheduledAt : Datetime) :
    AuditEvent :=
  plannerAudit ctx .outreachTaskScheduled .account ctx.accountId
    { channel := some channel, scheduledAt := some scheduledAt.isoformat }

namespace PlanLoop

/-- Persist the decision and its audit row,
`src/orchestrator/orchestration/planner.py:231–254`. -/
def record (st : PlanLoop) (ctx : EventContext) (r : PolicyResult) : PlanLoop :=
  let decisionId := st.store.policyDecisions.length
  let stored := { st.store with policyDecisions := st.store.policyDecisions ++ [decisionRow ctx r] }
  { st with
    store := stored.appendAuditEvent (decisionRecordedRow ctx decisionId r)
    policyDecisions := st.policyDecisions + 1 }

/-- The block exit, `src/orchestrator/orchestration/planner.py:256–270`. -/
def block (st : PlanLoop) (ctx : EventContext) (r : PolicyResult) : PlanLoop :=
  { st with
    store := st.store.appendAuditEvent (blockedRow ctx r)
    blockedAttempts := st.blockedAttempts + 1 }

/-- The audited deferral, `src/orchestrator/orchestration/planner.py:273–289`. -/
def defer (st : PlanLoop) (ctx : EventContext) (r : PolicyResult) : PlanLoop :=
  { st with
    store := st.store.appendAuditEvent (deferredRow ctx r)
    deferredAttempts := st.deferredAttempts + 1 }

/-- The schedule exit, `src/orchestrator/orchestration/planner.py:297–323`. -/
def schedule (st : PlanLoop) (ctx : EventContext) (clock : Int) (decisionId : Nat)
    (channel : OutreachChannel) (scheduledAt : Datetime) : Except Failure PlanLoop := do
  let instant ← orThrow .overflow scheduledAt.timestamptz
  let task := taskRow ctx channel decisionId instant clock
  if st.store.outreachTasks.any (fun t => t.idempotencyKey = task.idempotencyKey) then
    .error (.integrity .outreachTasksIdempotencyKey)
  else
    let stored := { st.store with outreachTasks := st.store.outreachTasks ++ [task] }
    .ok { st with
      store := stored.appendAuditEvent (taskScheduledRow ctx channel scheduledAt)
      createdTasks := st.createdTasks + 1
      recentCount := st.recentCount + 1 }

end PlanLoop

/-- One iteration of the proposal loop,
`src/orchestrator/orchestration/planner.py:214–323`. -/
def planProposal (rt : Runtime) (ctx : EventContext) (frequencyCap : Nat) (clock : Int)
    (st : PlanLoop) (p : ProposedOutreach) : Except Failure PlanLoop := do
  let r ← evaluatePolicy rt (policyInput ctx frequencyCap st.recentCount p)
  let decisionId := st.store.policyDecisions.length
  let st := st.record ctx r
  match r.decision with
  | .block => .ok (st.block ctx r)
  | .allow => st.schedule ctx clock decisionId r.channel p.scheduledAt
  | .defer =>
    let st := st.defer ctx r
    if .frequencyCapExceeded ∈ r.reasons then .ok st
    else
      match r.deferUntil with
      | none => .ok st
      | some deferUntil => st.schedule ctx clock decisionId r.channel deferUntil

/-- `_plan_policy_event`, `src/orchestrator/orchestration/planner.py:183–331`. -/
def planPolicyEvent (rt : Runtime) (s : Store) (ctx : EventContext) (now : Datetime)
    (frequencyCap : Nat) (clock : Int) : Except Failure (Store × PlannerResult) :=
  if s.policyDecisions.any (fun d => d.inboundEventId = some ctx.inboundEventId) then
    .ok (s, { inboundEventId := ctx.inboundEventId })
  else do
    let recentCount ← recentAttemptCount s ctx.customerId now
    let proposals ← proposalsForEvent rt ctx.inboundEvent.eventType now ctx.customer.timezone
    let st ← proposals.foldlM (planProposal rt ctx frequencyCap clock)
      { store := s, recentCount := recentCount }
    .ok (st.store, { inboundEventId := ctx.inboundEventId
                     createdTasks := st.createdTasks
                     policyDecisions := st.policyDecisions
                     blockedAttempts := st.blockedAttempts
                     deferredAttempts := st.deferredAttempts })

/-- The tasks that an event may cancel, `src/orchestrator/orchestration/planner.py:374–380`. -/
def cancellable (ctx : EventContext) (t : OutreachTask) : Bool :=
  t.accountId = ctx.accountId && t.customerId = ctx.customerId && t.status = .scheduled

/-- The audit row of one event-driven cancellation,
`src/orchestrator/orchestration/planner.py:384–395`. -/
def cancelledRow (ctx : EventContext) (task : OutreachTask × Nat) : AuditEvent :=
  plannerAudit ctx .outreachCancelled .outreachTask task.2
    { channel := some task.1.channel, accountExternalId := some ctx.account.externalId }

/-- One iteration of the cancellation loop: the row is written by primary key with no
condition on its status, `src/orchestrator/orchestration/planner.py:382–395`. -/
def cancelTask (ctx : EventContext) (s : Store) (task : OutreachTask × Nat) : Store :=
  { s with outreachTasks := s.outreachTasks.modify task.2 OutreachTask.cancel }.appendAuditEvent
    (cancelledRow ctx task)

/-- `_cancel_scheduled_tasks`, `src/orchestrator/orchestration/planner.py:357–396`. -/
def cancelScheduledTasks (s : Store) (ctx : EventContext) : Store × Nat :=
  let tasks := Table.select (cancellable ctx) s.outreachTasks
  (tasks.foldl (cancelTask ctx) s, tasks.length)

/-- The shape that the four cancelling events share: a processed marker makes the event
a no-op, otherwise its own record is written, the account's scheduled tasks are
cancelled and the marker is appended. -/
def handleOnce (s : Store) (ctx : EventContext) (marker : AuditEventType)
    (record : Store → Store) : Store × PlannerResult :=
  if hasProcessedMarker s ctx.inboundEventId marker then
    (s, { inboundEventId := ctx.inboundEventId })
  else
    let cancelled := cancelScheduledTasks (record s) ctx
    (cancelled.1.appendAuditEvent (processedMarker ctx marker),
      { inboundEventId := ctx.inboundEventId, cancelledTasks := cancelled.2 })

/-- `_handle_cancellation_event`, `src/orchestrator/orchestration/planner.py:334–354`. -/
def handleCancellationEvent (s : Store) (ctx : EventContext) : Store × PlannerResult :=
  handleOnce s ctx .plannerPaymentReceivedProcessed id

/-- Record of `opt_out_received`, `src/orchestrator/orchestration/planner.py:109–118`. -/
def recordOptOut (ctx : EventContext) (s : Store) : Store :=
  { s with customers := s.customers.modify ctx.customerId (fun c => { c with optedOut := true }) }
    |>.appendAuditEvent (plannerAudit ctx .customerOptedOut .customer ctx.customerId
      { customerExternalId := some ctx.customer.externalId })

/-- Record of `hardship_requested`, `src/orchestrator/orchestration/planner.py:134–142`. -/
def recordHardship (ctx : EventContext) (s : Store) : Store :=
  s.appendAuditEvent (plannerAudit ctx .hardshipEscalationRequired .account ctx.accountId
    { accountExternalId := some ctx.account.externalId })

/-- Record of `account_paused`, `src/orchestrator/orchestration/planner.py:158–167`. -/
def recordPause (ctx : EventContext) (s : Store) : Store :=
  { s with accounts := s.accounts.modify ctx.accountId (fun a => { a with status := .paused }) }
    |>.appendAuditEvent (plannerAudit ctx .accountPaused .account ctx.accountId
      { accountExternalId := some ctx.account.externalId })

/-- `_load_customer_and_account`, `src/orchestrator/orchestration/planner.py:467–490`. -/
def loadCustomerAndAccount (s : Store) (e : InboundEvent) :
    Except Failure ((Nat × Customer) × (Nat × Account)) := do
  let missingCustomer := Failure.valueError
    ("Customer not found for inbound event: " ++ e.customerExternalId)
  let customerId ← orThrow missingCustomer (s.customerByExternalId e.customerExternalId)
  let customer ← orThrow missingCustomer s.customers[customerId]?
  let missingAccount := Failure.valueError
    ("Account not found for inbound event: " ++ e.accountExternalId)
  let accountId ← orThrow missingAccount (s.accountByExternalId e.accountExternalId)
  let account ← orThrow missingAccount s.accounts[accountId]?
  if account.customerId = customerId then .ok ((customerId, customer), (accountId, account))
  else .error (.valueError "Inbound event customer/account do not match")

/-- The event dispatch of `plan_outreach_for_event`,
`src/orchestrator/orchestration/planner.py:88–180`. -/
def planEvent (rt : Runtime) (s : Store) (ctx : EventContext) (now : Datetime)
    (frequencyCap : Nat) (clock : Int) : Except Failure (Store × PlannerResult) :=
  match ctx.inboundEvent.eventType with
  | .accountDelinquent | .paymentFailed => planPolicyEvent rt s ctx now frequencyCap clock
  | .paymentReceived => .ok (handleCancellationEvent s ctx)
  | .optOutReceived => .ok (handleOnce s ctx .plannerOptOutProcessed (recordOptOut ctx))
  | .hardshipRequested => .ok (handleOnce s ctx .plannerHardshipProcessed (recordHardship ctx))
  | .accountPaused => .ok (handleOnce s ctx .plannerAccountPausedProcessed (recordPause ctx))
  | .other text => .error (.valueError ("Unsupported inbound event type: " ++ text))

/-- `plan_outreach_for_event`, `src/orchestrator/orchestration/planner.py:64–180`. -/
def planOutreachForEvent (rt : Runtime) (s : Store) (inboundEventId correlationId : Nat)
    (now : Datetime) (frequencyCap : Nat) (clock : Int) :
    Except Failure (Store × PlannerResult) := do
  let e ← orThrow (.valueError ("Inbound event not found: " ++ toString inboundEventId))
    s.inboundEvents[inboundEventId]?
  let ((customerId, customer), (accountId, account)) ← loadCustomerAndAccount s e
  planEvent rt s ⟨inboundEventId, e, customerId, customer, accountId, account, correlationId⟩
    now frequencyCap clock

end Orchestrator.Orchestration
