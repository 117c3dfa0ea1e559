import Orchestrator.Base.Transaction
import Orchestrator.Domain.EventIngestion

/-!
# Ingestion statement by statement

`ingest_event_snapshot` and the planner as the sequence of statements that they send in
one transaction: every SELECT, every flush, the single commit, and the rollback after an
`IntegrityError`. Any statement can fail. The sequence is all or nothing, and it commits
and returns what the ingestion on the store commits and returns.
-/

namespace Orchestrator.Domain

open Base Orchestration Policy

/-! ### The statements -/

/-- Flush of an audit row, `src/orchestrator/domain/audit_log.py:10–40`. -/
def appendAuditTxn (row : AuditEvent) : Txn Store Failure Unit :=
  .write fun s => s.appendAuditEvent row

/-- Flush of `_upsert_customer`, `src/orchestrator/domain/event_ingestion.py:204–216`. -/
def flushCustomer (snapshot : CustomerSnapshot) (found : Option Nat) (s : Store) :
    Except Failure (Store × Nat) :=
  match found with
  | none =>
    let row := applyCustomerSnapshot snapshot (newCustomer snapshot.externalId snapshot.fullName)
    if row.fits then .ok ({ s with customers := s.customers ++ [row] }, s.customers.length)
    else .error (.dataError "customers")
  | some id =>
    let rows := s.customers.modify id (applyCustomerSnapshot snapshot)
    if (rows[id]?).all Customer.fits then .ok ({ s with customers := rows }, id)
    else .error (.dataError "customers")

/-- `_upsert_customer`, `src/orchestrator/domain/event_ingestion.py:192–217`. -/
def upsertCustomerTxn (snapshot : CustomerSnapshot) : Txn Store Failure Nat := do
  let found ← .query fun s => s.customerByExternalId snapshot.externalId
  .execute (flushCustomer snapshot found)

/-- Ownership check and flush of `_upsert_account`,
`src/orchestrator/domain/event_ingestion.py:234–249`. -/
def flushAccount (snapshot : AccountSnapshot) (customerId : Nat) (found : Option Nat)
    (s : Store) : Except Failure (Store × Nat) :=
  match found with
  | none =>
    let row := newAccount snapshot customerId
    if row.fits then .ok ({ s with accounts := s.accounts ++ [row] }, s.accounts.length)
    else .error (.dataError "accounts")
  | some id =>
    if (s.accounts[id]?).any (fun a => a.customerId ≠ customerId) then
      .error (.eventIngestionValidation
        "Account external_id already belongs to another customer")
    else
      let rows := s.accounts.modify id (applyAccountSnapshot snapshot)
      if (rows[id]?).all Account.fits then .ok ({ s with accounts := rows }, id)
      else .error (.dataError "accounts")

/-- `_upsert_account`, `src/orchestrator/domain/event_ingestion.py:220–249`. -/
def upsertAccountTxn (snapshot : AccountSnapshot) (customerId : Nat) : Txn Store Failure Nat := do
  let found ← .query fun s => s.accountByExternalId snapshot.externalId
  .execute (flushAccount snapshot customerId found)

/-- `_result_from_existing_event`, `src/orchestrator/domain/event_ingestion.py:252–304`. -/
def resultFromExistingEventTxn (eventId : Nat) : Txn Store Failure EventIngestionResult := do
  let policyDecisions ← .query fun s => s.policyDecisions.countP fun d =>
    d.inboundEventId = some eventId
  let blockedTasks ← .query fun s => s.policyDecisions.countP fun d =>
    d.inboundEventId = some eventId && d.decision = .block
  let deferredTasks ← .query fun s => s.policyDecisions.countP fun d =>
    d.inboundEventId = some eventId && d.decision = .defer
  let createdTasks ← .query fun s => s.outreachTasks.countP fun t =>
    t.policyDecisionId.any fun d =>
      (s.policyDecisions[d]?).any fun row => row.inboundEventId = some eventId
  let cancelledTasks ← .execute fun s =>
    if cancellationsReadable s then .ok (s, s.auditEvents.countP fun a =>
      isCancellation a && a.payload.inboundEventId = some eventId)
    else .error (.untranslatableCharacter "payload")
  pure ⟨eventId, createdTasks, blockedTasks, deferredTasks, cancelledTasks, policyDecisions⟩

/-- The counters of the proposal loop, `src/orchestrator/orchestration/planner.py:208–212`. -/
structure PlanCounters where
  recentCount : Nat
  createdTasks : Nat := 0
  policyDecisions : Nat := 0
  blockedAttempts : Nat := 0
  deferredAttempts : Nat := 0

/-- Flush of a task, `src/orchestrator/orchestration/planner.py:297–309`. -/
def flushTask (ctx : EventContext) (clock : Int) (decisionId : Nat) (channel : OutreachChannel)
    (scheduledAt : Datetime) (s : Store) : Except Failure (Store × Unit) := do
  let instant ← orThrow .overflow scheduledAt.timestamptz
  let task := taskRow ctx channel decisionId instant clock
  if s.outreachTasks.any (fun t => t.idempotencyKey = task.idempotencyKey) then
    .error (.integrity .outreachTasksIdempotencyKey)
  else .ok ({ s with outreachTasks := s.outreachTasks ++ [task] }, ())

/-- The schedule exit, `src/orchestrator/orchestration/planner.py:297–323`. -/
def scheduleTxn (ctx : EventContext) (clock : Int) (decisionId : Nat) (channel : OutreachChannel)
    (scheduledAt : Datetime) (n : PlanCounters) : Txn Store Failure PlanCounters := do
  .execute (flushTask ctx clock decisionId channel scheduledAt)
  appendAuditTxn (taskScheduledRow ctx channel scheduledAt)
  pure { n with createdTasks := n.createdTasks + 1, recentCount := n.recentCount + 1 }

/-- The exits of one iteration, `src/orchestrator/orchestration/planner.py:256–323`. -/
def exitTxn (ctx : EventContext) (clock : Int) (p : ProposedOutreach) (r : PolicyResult)
    (decisionId : Nat) (n : PlanCounters) : Txn Store Failure PlanCounters :=
  match r.decision with
  | .block => do
    appendAuditTxn (blockedRow ctx r)
    pure { n with blockedAttempts := n.blockedAttempts + 1 }
  | .allow => scheduleTxn ctx clock decisionId r.channel p.scheduledAt n
  | .defer => do
    appendAuditTxn (deferredRow ctx r)
    let n := { n with deferredAttempts := n.deferredAttempts + 1 }
    if .frequencyCapExceeded ∈ r.reasons then pure n
    else
      match r.deferUntil with
      | none => pure n
      | some deferUntil => scheduleTxn ctx clock decisionId r.channel deferUntil n

/-- One iteration of the proposal loop,
`src/orchestrator/orchestration/planner.py:214–323`. -/
def planProposalTxn (rt : Runtime) (ctx : EventContext) (frequencyCap : Nat) (clock : Int)
    (n : PlanCounters) (p : ProposedOutreach) : Txn Store Failure PlanCounters := do
  let r ← .compute (evaluatePolicy rt (policyInput ctx frequencyCap n.recentCount p))
  let decisionId ← .execute fun s =>
    .ok ({ s with policyDecisions := s.policyDecisions ++ [decisionRow ctx r] },
      s.policyDecisions.length)
  appendAuditTxn (decisionRecordedRow ctx decisionId r)
  exitTxn ctx clock p r decisionId { n with policyDecisions := n.policyDecisions + 1 }

/-- `_plan_policy_event`, `src/orchestrator/orchestration/planner.py:183–331`. -/
def planPolicyEventTxn (rt : Runtime) (ctx : EventContext) (now : Datetime) (frequencyCap : Nat)
    (clock : Int) : Txn Store Failure PlannerResult := do
  let decided ← .query fun s =>
    s.policyDecisions.any fun d => d.inboundEventId = some ctx.inboundEventId
  if decided then pure { inboundEventId := ctx.inboundEventId }
  else
    let recentCount ← .execute fun s => (recentAttemptCount s ctx.customerId now).map (s, ·)
    let proposals ← .compute
      (proposalsForEvent rt ctx.inboundEvent.eventType now ctx.customer.timezone)
    let n ← proposals.foldlM (planProposalTxn rt ctx frequencyCap clock)
      { recentCount := recentCount }
    pure { inboundEventId := ctx.inboundEventId
           createdTasks := n.createdTasks
           policyDecisions := n.policyDecisions
           blockedAttempts := n.blockedAttempts
           deferredAttempts := n.deferredAttempts }

/-- One iteration of the cancellation loop,
`src/orchestrator/orchestration/planner.py:382–395`. -/
def cancelTaskTxn (ctx : EventContext) (cancelled : Nat) (task : OutreachTask × Nat) :
    Txn Store Failure Nat := do
  .write fun s => { s with outreachTasks := s.outreachTasks.modify task.2 OutreachTask.cancel }
  appendAuditTxn (cancelledRow ctx task)
  pure (cancelled + 1)

/-- `_cancel_scheduled_tasks`, `src/orchestrator/orchestration/planner.py:357–396`. -/
def cancelScheduledTasksTxn (ctx : EventContext) : Txn Store Failure Nat := do
  let tasks ← .query fun s => Table.select (cancellable ctx) s.outreachTasks
  tasks.foldlM (cancelTaskTxn ctx) 0

/-- The shape that the four cancelling events share. -/
def handleOnceTxn (ctx : EventContext) (marker : AuditEventType) (record : Txn Store Failure Unit) :
    Txn Store Failure PlannerResult := do
  let marked ← .query fun s => hasProcessedMarker s ctx.inboundEventId marker
  if marked then pure { inboundEventId := ctx.inboundEventId }
  else
    record
    let cancelled ← cancelScheduledTasksTxn ctx
    appendAuditTxn (processedMarker ctx marker)
    pure { inboundEventId := ctx.inboundEventId, cancelledTasks := cancelled }

/-- Record of `opt_out_received`, `src/orchestrator/orchestration/planner.py:109–118`. -/
def recordOptOutTxn (ctx : EventContext) : Txn Store Failure Unit := do
  .write fun s =>
    { s with customers := s.customers.modify ctx.customerId fun c => { c with optedOut := true } }
  appendAuditTxn (plannerAudit ctx .customerOptedOut .customer ctx.customerId
    { customerExternalId := some ctx.customer.externalId })

/-- Record of `hardship_requested`, `src/orchestrator/orchestration/planner.py:134–142`. -/
def recordHardshipTxn (ctx : EventContext) : Txn Store Failure Unit :=
  appendAuditTxn (plannerAudit ctx .hardshipEscalationRequired .account ctx.accountId
    { accountExternalId := some ctx.account.externalId })

/-- Record of `account_paused`, `src/orchestrator/orchestration/planner.py:158–167`. -/
def recordPauseTxn (ctx : EventContext) : Txn Store Failure Unit := do
  .write fun s =>
    { s with accounts := s.accounts.modify ctx.accountId fun a => { a with status := .paused } }
  appendAuditTxn (plannerAudit ctx .accountPaused .account ctx.accountId
    { accountExternalId := some ctx.account.externalId })

/-- `_load_customer_and_account`, `src/orchestrator/orchestration/planner.py:467–490`. -/
def loadCustomerAndAccountTxn (e : InboundEvent) :
    Txn Store Failure ((Nat × Customer) × (Nat × Account)) := do
  let missingCustomer := Failure.valueError
    ("Customer not found for inbound event: " ++ e.customerExternalId)
  let customer ← .query fun s =>
    (s.customerByExternalId e.customerExternalId).bind fun id => (s.customers[id]?).map (id, ·)
  let customer ← .compute (orThrow missingCustomer customer)
  let missingAccount := Failure.valueError
    ("Account not found for inbound event: " ++ e.accountExternalId)
  let account ← .query fun s =>
    (s.accountByExternalId e.accountExternalId).bind fun id => (s.accounts[id]?).map (id, ·)
  let account ← .compute (orThrow missingAccount account)
  if account.2.customerId = customer.1 then pure (customer, account)
  else .compute (.error (.valueError "Inbound event customer/account do not match"))

/-- The event dispatch, `src/orchestrator/orchestration/planner.py:88–180`. -/
def planEventTxn (rt : Runtime) (ctx : EventContext) (now : Datetime) (frequencyCap : Nat)
    (clock : Int) : Txn Store Failure PlannerResult :=
  match ctx.inboundEvent.eventType with
  | .accountDelinquent | .paymentFailed => planPolicyEventTxn rt ctx now frequencyCap clock
  | .paymentReceived => handleOnceTxn ctx .plannerPaymentReceivedProcessed (pure ())
  | .optOutReceived => handleOnceTxn ctx .plannerOptOutProcessed (recordOptOutTxn ctx)
  | .hardshipRequested => handleOnceTxn ctx .plannerHardshipProcessed (recordHardshipTxn ctx)
  | .accountPaused => handleOnceTxn ctx .plannerAccountPausedProcessed (recordPauseTxn ctx)
  | .other text => .compute (.error (.valueError ("Unsupported inbound event type: " ++ text)))

/-- `plan_outreach_for_event`, `src/orchestrator/orchestration/planner.py:64–180`. -/
def planOutreachForEventTxn (rt : Runtime) (inboundEventId correlationId : Nat) (now : Datetime)
    (frequencyCap : Nat) (clock : Int) : Txn Store Failure PlannerResult := do
  let found ← .query fun s => s.inboundEvents[inboundEventId]?
  let e ← .compute (orThrow
    (.valueError ("Inbound event not found: " ++ toString inboundEventId)) found)
  let ((customerId, customer), (accountId, account)) ← loadCustomerAndAccountTxn e
  planEventTxn rt ⟨inboundEventId, e, customerId, customer, accountId, account, correlationId⟩
    now frequencyCap clock

/-- What follows the insert of a fresh inbound event,
`src/orchestrator/domain/event_ingestion.py:144–178`. -/
def processInboundEventTxn (rt : Runtime) (row : InboundEvent) (eventId : Nat)
    (sub : EventSubmission) (clock : Int) : Txn Store Failure EventIngestionResult := do
  appendAuditTxn (ingestionAudit row eventId sub.correlationId .eventReceived .apiClient)
  appendAuditTxn (ingestionAudit row eventId sub.correlationId .eventAccepted .system)
  let result ← planOutreachForEventTxn rt eventId sub.correlationId sub.occurredAt.toDatetime
    defaultFrequencyCap clock
  .write fun s => markProcessed s eventId
  .commit
  pure (resultFromPlanner eventId result)

/-- The `except IntegrityError` of the event insert,
`src/orchestrator/domain/event_ingestion.py:135–142`. -/
def handleInsertFailureTxn (sub : EventSubmission) (e : Failure) :
    Txn Store Failure EventIngestionResult :=
  match e with
  | .integrity index => do
    .rollback
    let existing ← .query fun s => s.findExistingEvent sub.source sub.externalId
    match existing with
    | some eventId => resultFromExistingEventTxn eventId
    | none => .compute (.error (.integrity index))
  | e => .compute (.error e)

/-- `ingest_event_snapshot`, `src/orchestrator/domain/event_ingestion.py:84–178`. -/
def ingestEventSnapshotTxn (rt : Runtime) (sub : EventSubmission) (clock : Int) :
    Txn Store Failure EventIngestionResult := do
  let existing ← .query fun s => s.findExistingEvent sub.source sub.externalId
  match existing with
  | some eventId => resultFromExistingEventTxn eventId
  | none =>
    let customerId ← upsertCustomerTxn sub.customer
    let _ ← upsertAccountTxn sub.account customerId
    let inserted ← Txn.attempt (.execute fun s => insertInboundEvent s (inboundEventRow rt sub))
    match inserted with
    | .ok eventId => processInboundEventTxn rt (inboundEventRow rt sub) eventId sub clock
    | .error e => handleInsertFailureTxn sub e

/-! ### What the statements compute -/

section

variable {rt : Runtime} {ctx : EventContext} {clock : Int}

/-- The counters of a proposal loop on a store. -/
def PlanCounters.loop (n : PlanCounters) (s : Store) : PlanLoop :=
  ⟨s, n.recentCount, n.createdTasks, n.policyDecisions, n.blockedAttempts, n.deferredAttempts⟩

/-- The store and the counters of a proposal loop. -/
def splitLoop (st : PlanLoop) : Store × PlanCounters :=
  (st.store, ⟨st.recentCount, st.createdTasks, st.policyDecisions, st.blockedAttempts,
    st.deferredAttempts⟩)

private theorem appendAudit_computes (row : AuditEvent) (s : Store) :
    Computes (appendAuditTxn row) s (.ok (s.appendAuditEvent row, ())) :=
  Computes.write (fun s : Store => s.appendAuditEvent row) s

private theorem upsertCustomer_computes (snapshot : CustomerSnapshot) (s : Store) :
    Computes (upsertCustomerTxn snapshot) s (upsertCustomer s snapshot) :=
  Computes.next (Computes.query _ s) (Computes.execute (flushCustomer snapshot _) s)

private theorem upsertAccount_computes (snapshot : AccountSnapshot) (customerId : Nat)
    (s : Store) :
    Computes (upsertAccountTxn snapshot customerId) s (upsertAccount s snapshot customerId) :=
  Computes.next (Computes.query _ s) (Computes.execute (flushAccount snapshot customerId _) s)

/-- The five counts read one store, and the last of them can raise. -/
private theorem resultFromExistingEvent_computes (eventId : Nat) (s : Store) :
    Computes (resultFromExistingEventTxn eventId) s
      ((resultFromExistingEvent s eventId).map fun result => (s, result)) := by
  refine .next (Computes.query _ s) ?_
  refine .next (Computes.query _ s) ?_
  refine .next (Computes.query _ s) ?_
  refine .next (Computes.query _ s) ?_
  refine Computes.congr (.bind (Computes.execute _ s) fun s' _ _ => Computes.pure _ s') ?_
  unfold resultFromExistingEvent
  split <;> rfl

private theorem schedule_computes (decisionId : Nat) (channel : OutreachChannel)
    (scheduledAt : Datetime) (n : PlanCounters) (s : Store) :
    Computes (scheduleTxn ctx clock decisionId channel scheduledAt n) s
      (((n.loop s).schedule ctx clock decisionId channel scheduledAt).map splitLoop) := by
  refine Computes.congr (.bind (Computes.execute _ s) fun s' _ _ =>
    .next (appendAudit_computes _ s') (Computes.pure _ _)) ?_
  unfold PlanLoop.schedule flushTask
  cases scheduledAt.timestamptz with
  | none => rfl
  | some instant =>
    simp only [orThrow, bind, Except.bind, PlanCounters.loop]
    by_cases htaken : (s.outreachTasks.any fun t => t.idempotencyKey =
        (taskRow ctx channel decisionId instant clock).idempotencyKey) = true
    · simp only [htaken, if_true]
      rfl
    · simp only [htaken]
      rfl

/-- The part of an iteration that follows the policy's answer. -/
private def answered (ctx : EventContext) (clock : Int) (p : ProposedOutreach) (st : PlanLoop)
    (r : PolicyResult) : Except Failure PlanLoop :=
  match r.decision with
  | .block => .ok ((st.record ctx r).block ctx r)
  | .allow =>
    (st.record ctx r).schedule ctx clock st.store.policyDecisions.length r.channel p.scheduledAt
  | .defer =>
    if .frequencyCapExceeded ∈ r.reasons then .ok ((st.record ctx r).defer ctx r)
    else
      match r.deferUntil with
      | none => .ok ((st.record ctx r).defer ctx r)
      | some deferUntil => ((st.record ctx r).defer ctx r).schedule ctx clock
          st.store.policyDecisions.length r.channel deferUntil

private theorem exit_computes (p : ProposedOutreach) (r : PolicyResult) (n : PlanCounters)
    (s : Store) :
    Computes (exitTxn ctx clock p r s.policyDecisions.length
        { n with policyDecisions := n.policyDecisions + 1 })
      ((n.loop s).record ctx r).store ((answered ctx clock p (n.loop s) r).map splitLoop) := by
  unfold exitTxn answered
  cases r.decision with
  | block => exact .next (appendAudit_computes (blockedRow ctx r) _) (Computes.pure _ _)
  | allow => exact schedule_computes s.policyDecisions.length r.channel p.scheduledAt _ _
  | defer =>
    refine .next (appendAudit_computes (deferredRow ctx r) _) ?_
    by_cases hcap : Reason.frequencyCapExceeded ∈ r.reasons
    · simp only [hcap, if_true]
      exact Computes.pure _ _
    · simp only [hcap, if_false]
      cases r.deferUntil with
      | none => exact Computes.pure _ _
      | some deferUntil =>
        exact schedule_computes s.policyDecisions.length r.channel deferUntil _ _

private theorem planProposal_computes (cap : Nat) (p : ProposedOutreach) (n : PlanCounters)
    (s : Store) :
    Computes (planProposalTxn rt ctx cap clock n p) s
      ((planProposal rt ctx cap clock (n.loop s) p).map splitLoop) := by
  have hplan : planProposal rt ctx cap clock (n.loop s) p =
      evaluatePolicy rt (policyInput ctx cap n.recentCount p) >>=
        answered ctx clock p (n.loop s) := rfl
  refine Computes.congr (.bindMap (Computes.compute _ s) fun r => .next (Computes.execute _ s)
    (.next (appendAudit_computes _ _) (exit_computes p r n s))) ?_
  rw [hplan]
  cases evaluatePolicy rt (policyInput ctx cap n.recentCount p) <;> rfl

private theorem planLoop_computes (cap : Nat) (ps : List ProposedOutreach) (n : PlanCounters)
    (s : Store) :
    Computes (ps.foldlM (planProposalTxn rt ctx cap clock) n) s
      ((ps.foldlM (planProposal rt ctx cap clock) (n.loop s)).map splitLoop) :=
  (Computes.foldlM (fun s n p => planProposal_computes cap p n s) ps n s).congr
    (foldlM_map (h := splitLoop) (fun _ _ => rfl) ps (n.loop s))

private theorem planPolicyEvent_computes (now : Datetime) (cap : Nat) (s : Store) :
    Computes (planPolicyEventTxn rt ctx now cap clock) s
      (planPolicyEvent rt s ctx now cap clock) := by
  refine .next (Computes.query _ s) ?_
  unfold planPolicyEvent
  by_cases hdecided : (s.policyDecisions.any fun d =>
      d.inboundEventId = some ctx.inboundEventId) = true
  · simp only [hdecided, if_true]
    exact Computes.pure _ s
  · simp only [hdecided, Bool.false_eq_true, if_false]
    refine .bindMap (Computes.execute _ s) fun recentCount => ?_
    refine .bindMap (Computes.compute _ s) fun ps => ?_
    exact .bindMap (planLoop_computes cap ps { recentCount := recentCount } s) fun st =>
      Computes.pure _ st.store

/-! ### Cancelling events -/

private theorem cancelScheduledTasks_computes (ctx : EventContext) (s : Store) :
    Computes (cancelScheduledTasksTxn ctx) s (.ok (cancelScheduledTasks s ctx)) := by
  have hloop (tasks : List (OutreachTask × Nat)) (n : Nat) (s : Store) :
      Computes (tasks.foldlM (cancelTaskTxn ctx) n) s
        (.ok (tasks.foldl (cancelTask ctx) s, n + tasks.length)) := by
    induction tasks generalizing n s with
    | nil => exact Computes.pure n s
    | cons task tasks ih =>
      have hstep : Computes (cancelTaskTxn ctx n task) s (.ok (cancelTask ctx s task, n + 1)) :=
        .next (Computes.write _ s) (.next (appendAudit_computes _ _) (Computes.pure _ _))
      refine .next hstep ((ih (n + 1) _).congr ?_)
      rw [List.foldl_cons, List.length_cons, Nat.add_right_comm, Nat.add_assoc]
  refine .next (Computes.query _ s) ((hloop _ 0 s).congr ?_)
  rw [Nat.zero_add]
  rfl

private theorem handleOnce_computes {record : Store → Store} {body : Txn Store Failure Unit}
    (hrecord : ∀ s, Computes body s (.ok (record s, ()))) (marker : AuditEventType) (s : Store) :
    Computes (handleOnceTxn ctx marker body) s (.ok (handleOnce s ctx marker record)) := by
  refine .next (Computes.query _ s) ?_
  unfold handleOnce
  by_cases hmarked : hasProcessedMarker s ctx.inboundEventId marker = true
  · simp only [hmarked, if_true]
    exact Computes.pure _ s
  · simp only [hmarked, Bool.false_eq_true, if_false]
    refine .next (hrecord s) ?_
    refine .next (cancelScheduledTasks_computes ctx (record s)) ?_
    exact .next (appendAudit_computes _ _) (Computes.pure _ _)

private theorem planEvent_computes (now : Datetime) (cap : Nat) (s : Store) :
    Computes (planEventTxn rt ctx now cap clock) s (planEvent rt s ctx now cap clock) := by
  unfold planEventTxn planEvent
  cases ctx.inboundEvent.eventType with
  | accountDelinquent => exact planPolicyEvent_computes now cap s
  | paymentFailed => exact planPolicyEvent_computes now cap s
  | paymentReceived => exact handleOnce_computes (fun s => Computes.pure () s) _ s
  | hardshipRequested => exact handleOnce_computes (fun s => appendAudit_computes _ s) _ s
  | optOutReceived =>
    exact handleOnce_computes
      (fun s => .next (Computes.write _ s) (appendAudit_computes _ _)) _ s
  | accountPaused =>
    exact handleOnce_computes
      (fun s => .next (Computes.write _ s) (appendAudit_computes _ _)) _ s
  | other text => exact Computes.compute _ s

/-! ### The whole transaction -/

private theorem loadCustomerAndAccount_computes (e : InboundEvent) (s : Store) :
    Computes (loadCustomerAndAccountTxn e) s
      ((loadCustomerAndAccount s e).map fun loaded => (s, loaded)) := by
  refine .next (Computes.query _ s) ?_
  refine Computes.congr (.bindMap (Computes.compute _ s) fun customer =>
    .next (Computes.query _ s) (.bindMap (Computes.compute _ s) fun account => ?_)
      (q := _ >>= fun account : Nat × Account =>
        if account.2.customerId = customer.1 then .ok (s, (customer, account))
        else .error (.valueError "Inbound event customer/account do not match"))) ?_
  · split
    · exact Computes.pure _ s
    · exact Computes.compute _ s
  · unfold loadCustomerAndAccount
    cases s.customerByExternalId e.customerExternalId with
    | none => rfl
    | some customerId =>
      cases hcustomer : s.customers[customerId]? with
      | none => simp [hcustomer, orThrow, bind, Except.bind, Except.map]
      | some customer =>
        cases s.accountByExternalId e.accountExternalId with
        | none => simp [hcustomer, orThrow, bind, Except.bind, Except.map]
        | some accountId =>
          cases haccount : s.accounts[accountId]? with
          | none => simp [hcustomer, haccount, orThrow, bind, Except.bind, Except.map]
          | some account =>
            by_cases howner : account.customerId = customerId <;>
              simp [hcustomer, haccount, howner, orThrow, bind, Except.bind, Except.map]

private theorem planOutreachForEvent_computes (inboundEventId correlationId : Nat)
    (now : Datetime) (cap : Nat) (s : Store) :
    Computes (planOutreachForEventTxn rt inboundEventId correlationId now cap clock) s
      (planOutreachForEvent rt s inboundEventId correlationId now cap clock) := by
  refine .next (Computes.query _ s) ?_
  refine .bindMap (Computes.compute _ s) fun e => ?_
  exact .bindMap (loadCustomerAndAccount_computes e s) fun loaded => planEvent_computes now cap s

private theorem processInboundEvent_atomic (row : InboundEvent) (eventId : Nat)
    (sub : EventSubmission) (c s : Store) :
    Atomic (processInboundEventTxn rt row eventId sub clock) c s
      (processInboundEvent rt s row eventId sub clock) := by
  refine .next (appendAudit_computes _ s) ?_
  refine .next (appendAudit_computes _ _) ?_
  exact Atomic.congr (.bind (planOutreachForEvent_computes _ _ _ _ _) fun s' result _ =>
    .next (Computes.write _ s') (Atomic.commit _ c _)) rfl

/-- The handler of the event insert finds no event that was not there before the insert, and
raises again. -/
private theorem handleInsertFailure_atomic {sub : EventSubmission} {c : Store}
    (hnew : c.findExistingEvent sub.source sub.externalId = none) (e : Failure) (s : Store) :
    Atomic (handleInsertFailureTxn sub e) c s (.error e) := by
  unfold handleInsertFailureTxn
  split
  · refine .rollback (.next (Computes.query _ c) ?_) s
    simp only [hnew]
    exact .raise _ c c
  · exact .raise _ c s

/-- The ingestion's transaction is all or nothing and does what the ingestion does. -/
theorem ingestEventSnapshotTxn_atomic (rt : Runtime) (sub : EventSubmission) (clock : Int)
    (s : Store) :
    Atomic (ingestEventSnapshotTxn rt sub clock) s s (ingestEventSnapshot rt s sub clock) := by
  refine .next (Computes.query _ s) ?_
  unfold ingestEventSnapshot
  cases hfound : s.findExistingEvent sub.source sub.externalId with
  | some eventId => exact .read (resultFromExistingEvent_computes eventId s)
  | none =>
    refine Atomic.congr (.bind (upsertCustomer_computes sub.customer s) fun s' customerId _ =>
      .bind (upsertAccount_computes sub.account customerId s') fun s'' _ _ =>
        .reraised (Computes.execute _ s'')
          (fun inserted eventId _ => processInboundEvent_atomic _ _ _ _ _)
          (fun e w => handleInsertFailure_atomic hfound e w)) ?_
    cases upsertCustomer s sub.customer with
    | error e => rfl
    | ok withCustomer =>
      cases haccount : upsertAccount withCustomer.1 sub.account withCustomer.2 with
      | error e => simp only [bind, Except.bind, haccount]
      | ok withAccount =>
        simp only [bind, Except.bind, haccount]
        cases insertInboundEvent withAccount.1 (inboundEventRow rt sub) with
        | ok inserted => rfl
        | error e => cases e <;> rfl

end

/-- A call of `ingest_event_snapshot` on a committed store, with the statements that fail:
the store that is committed when the session has closed, and what the call returns or
raises. -/
def ingestCall (rt : Runtime) (s : Store) (sub : EventSubmission) (clock : Int)
    (faults : List (Option Failure)) : Store × Except Failure EventIngestionResult :=
  match ingestEventSnapshotTxn rt sub clock ⟨s, s, faults⟩ with
  | .ok r session => (session.committed, .ok r)
  | .error e session => (session.committed, .error e)

section

variable {rt : Runtime} {s : Store} {sub : EventSubmission} {clock : Int}
  {faults : List (Option Failure)}

/-- A call that raises commits nothing. -/
theorem ingestCall_raised {e : Failure} (h : (ingestCall rt s sub clock faults).2 = .error e) :
    (ingestCall rt s sub clock faults).1 = s := by
  unfold ingestCall at h ⊢
  split at h
  · cases h
  · next e' session hcall =>
    exact ((ingestEventSnapshotTxn_atomic rt sub clock s).raises _ _ _ rfl rfl hcall).1

/-- A call that returns commits and returns what the ingestion does. -/
theorem ingestCall_returned {r : EventIngestionResult}
    (h : (ingestCall rt s sub clock faults).2 = .ok r) :
    ingestEventSnapshot rt s sub clock = .ok ((ingestCall rt s sub clock faults).1, r) := by
  unfold ingestCall at h ⊢
  split at h
  · next r' session hcall =>
    cases h
    exact (ingestEventSnapshotTxn_atomic rt sub clock s).returns _ _ _ rfl rfl hcall
  · cases h

/-- A call whose statements do not fail raises what the ingestion raises. -/
theorem ingestCall_faultless {e : Failure} (h : (ingestCall rt s sub clock []).2 = .error e) :
    ingestEventSnapshot rt s sub clock = .error e := by
  unfold ingestCall at h
  split at h
  · cases h
  · next e' session hcall =>
    cases h
    exact ((ingestEventSnapshotTxn_atomic rt sub clock s).raises _ _ _ rfl rfl hcall).2 rfl

end

end Orchestrator.Domain
