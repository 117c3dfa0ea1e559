import Orchestrator.Base.Run
import Orchestrator.Domain.IngestionEffect
import Orchestrator.Domain.OperationalOutreach
import Orchestrator.Workers.Dispatch

/-!
# Operations of the running system

The store under committed operations in any order. An ingestion, a manual delivery
result and an operator cancellation are one step each; a worker pass takes a step to
read its due tasks, one for each claim and one for each settlement, so other operations
run between a claim and its result. An operation that is not enabled, or that raises,
commits nothing.
-/

namespace Orchestrator.System

open Base Domain Orchestration Workers

/-- One call of `dispatch_due_tasks` between two of its commits: the ids that it has
still to try and the attempt that it has claimed but not settled. -/
structure Pass where
  config : PassConfig
  queue : List Nat
  attempt : Option (Nat × OutreachTask) := none

/-- A pass that has returned. -/
def Pass.finished (p : Pass) : Bool := p.queue.isEmpty && p.attempt.isNone

/-- The committed store, the pass of every worker process, and the database clock. -/
structure Sys where
  store : Store
  passes : Nat → Option Pass
  clock : Int

/-- The system before its first operation. -/
def start (clock : Int) : Sys := ⟨Store.empty, fun _ => none, clock⟩

/-- Commit a store. -/
def Sys.commit (s : Sys) (store : Store) : Sys := { s with store := store }

/-- Replace the pass of one worker. -/
def Sys.setPass (s : Sys) (worker : Nat) (p : Option Pass) : Sys :=
  { s with passes := fun w => if w = worker then p else s.passes w }

/-- The attempt that a worker is between claiming and settling. -/
def Sys.attempt (s : Sys) (worker : Nat) : Option (Nat × OutreachTask) :=
  (s.passes worker).bind Pass.attempt

/-- Committed operations. A worker's `now` need not follow the database clock, and the
status that a manual request had loaded need not be the stored one. -/
inductive Op where
  | tick (elapsed : Nat)
  | ingestEvent (sub : EventSubmission)
  | startPass (worker : Nat) (config : PassConfig)
  | claim (worker : Nat)
  | settle (worker : Nat) (outcome : SendOutcome)
  | crash (worker : Nat)
  | recordDeliveryResult (taskId : Nat) (loaded : OutreachTaskStatus)
      (body : DeliveryResultRequest)
  | cancelOutreach (accountExternalId reason : String) (correlationId : Nat)

/-- A worker's next claim, `src/orchestrator/workers/dispatch.py:64–99`. -/
def stepClaim (s : Sys) (worker : Nat) : Sys :=
  match s.passes worker with
  | some ⟨config, taskId :: queue, none⟩ =>
    let claimed := claimTask s.store taskId config.now config.workerId
    (s.commit claimed.1).setPass worker
      (some ⟨config, queue, claimed.2.map fun task => (taskId, task)⟩)
  | _ => s

/-- A worker's settlement of its attempt, `src/orchestrator/workers/dispatch.py:101–123`.
An exception ends the pass. -/
def stepSettle (s : Sys) (worker : Nat) (outcome : SendOutcome) : Sys :=
  match s.passes worker with
  | some ⟨config, queue, some (taskId, task)⟩ =>
    match settleAttempt s.store taskId task outcome config with
    | .ok store => (s.commit store).setPass worker (some ⟨config, queue, none⟩)
    | .error _ => s.setPass worker none
  | _ => s

/-- One operation. -/
def step (rt : Runtime) (s : Sys) : Op → Sys
  | .tick elapsed => { s with clock := s.clock + elapsed }
  | .ingestEvent sub => s.commit (ingest rt s.store sub s.clock)
  | .startPass worker config =>
    if (s.passes worker).all Pass.finished then
      s.setPass worker (some ⟨config, dueTaskIds s.store config.now config.limit, none⟩)
    else s
  | .claim worker => stepClaim s worker
  | .settle worker outcome => stepSettle s worker outcome
  | .crash worker => s.setPass worker none
  | .recordDeliveryResult taskId loaded body =>
    match recordManualDeliveryResult s.store taskId loaded body with
    | .ok store => s.commit store
    | .error _ => s
  | .cancelOutreach accountExternalId reason correlationId =>
    match cancelAccountOutreach s.store accountExternalId reason correlationId with
    | some (store, _) => s.commit store
    | none => s

/-- A committed claim: the task, the worker's pass time and the refreshed row. -/
structure Claim where
  taskId : Nat
  now : Int
  task : OutreachTask
  deriving DecidableEq, Repr

/-- The claim that an operation commits, if it commits one. -/
def claimed (s : Sys) : Op → Option Claim
  | .claim worker =>
    match s.passes worker with
    | some ⟨config, taskId :: _, none⟩ =>
      (claimTask s.store taskId config.now config.workerId).2.map fun task =>
        ⟨taskId, config.now, task⟩
    | _ => none
  | _ => none

/-! ### Writes of one task row -/

/-- The conditional writes of a task row, each with the row it replaces, the row it
leaves and the audit row of the same transaction. -/
inductive RowWrite (taskId : Nat) : OutreachTask → OutreachTask → AuditEvent → Prop where
  | claim {t : OutreachTask} (now : Int) (workerId : WorkerId) (h : due now t = true) :
      RowWrite taskId t (claimWrite t) (dispatchStarted workerId taskId (claimWrite t))
  | success {t : OutreachTask} (copy : OutreachTask) (result : DeliveryResult)
      (workerId : WorkerId) (h : t.status = .dispatching) :
      RowWrite taskId t (successWrite t) (dispatchSucceeded workerId taskId copy result)
  | failure {t : OutreachTask} (copy : OutreachTask) (error : String) (config : PassConfig)
      (h : t.status = .dispatching) :
      RowWrite taskId t (failureWrite copy error config t)
        (dispatchFailed taskId copy error config)
  | manual {t : OutreachTask} (body : DeliveryResultRequest)
      (h : allowedManualDeliverySourceStatus t.status = true) :
      RowWrite taskId t (manualWrite body t) (deliveryResultRecorded taskId t t.status body)
  | cancel {t : OutreachTask} {row : AuditEvent} (h : t.status = .scheduled)
      (hid : row.entityType = .outreachTask ∧ row.entityId = taskId)
      (htype : row.eventType = .outreachCancelled) :
      RowWrite taskId t t.cancel row

namespace RowWrite

variable {taskId : Nat} {t t' : OutreachTask} {row : AuditEvent}

/-- Every write keeps the columns that planning fixed. -/
theorem planned (h : RowWrite taskId t t' row) : t'.planned = t.planned := by
  cases h <;> rfl

/-- Every write comes with an audit row of its own task. -/
theorem entity (h : RowWrite taskId t t' row) :
    row.entityType = .outreachTask ∧ row.entityId = taskId := by
  cases h with
  | cancel _ hid _ => exact hid
  | _ => exact ⟨rfl, rfl⟩

/-- Attempts are only counted up. -/
theorem attemptCount_le (h : RowWrite taskId t t' row) : t.attemptCount ≤ t'.attemptCount := by
  cases h with
  | claim => exact Nat.le_succ _
  | _ => exact Nat.le_refl _

end RowWrite

/-! ### Steps by what they commit -/

/-- The write with which a worker settles its attempt. -/
inductive Settlement (config : PassConfig) (taskId : Nat) (copy t : OutreachTask) :
    SendOutcome → OutreachTask → AuditEvent → Prop where
  | success (result : DeliveryResult) :
      Settlement config taskId copy t (.delivered result) (successWrite t)
        (dispatchSucceeded config.workerId taskId copy result)
  | failure (error : String) :
      Settlement config taskId copy t (.raised error) (failureWrite copy error config t)
        (dispatchFailed taskId copy error config)

/-- A settlement is one of the row writes. -/
theorem Settlement.rowWrite {config : PassConfig} {taskId : Nat} {copy t t' : OutreachTask}
    {outcome : SendOutcome} {row : AuditEvent}
    (h : Settlement config taskId copy t outcome t' row) (hd : t.status = .dispatching) :
    RowWrite taskId t t' row := by
  cases h with
  | success result => exact .success copy result config.workerId hd
  | failure error => exact .failure copy error config hd

/-- Replace one task row and append the audit row of the write. -/
def writeRow (s : Store) (taskId : Nat) (t' : OutreachTask) (row : AuditEvent) : Store :=
  { s with outreachTasks := s.outreachTasks.set taskId t' }.appendAuditEvent row

/-- A manual result for the stored status fails only for a text that its column refuses. -/
theorem recordManualDeliveryResult_eq {s : Store} {taskId : Nat} {t : OutreachTask}
    (hrow : s.outreachTasks[taskId]? = some t)
    (hallowed : allowedManualDeliverySourceStatus t.status = true)
    (body : DeliveryResultRequest) :
    recordManualDeliveryResult s taskId t.status body =
      match lastErrorRefused (manualLastError body) with
      | none => .ok (writeRow s taskId (manualWrite body t)
          (deliveryResultRecorded taskId t t.status body))
      | some e => .error e := by
  have hupdate : Table.updateWhere s.outreachTasks taskId (fun u => u.status = t.status)
      (manualWrite body) = (s.outreachTasks.set taskId (manualWrite body t), 1) := by
    rw [← Table.modify_eq_set hrow]
    simp [Table.updateWhere, hrow]
  unfold recordManualDeliveryResult
  simp only [hallowed, if_true, hrow, hupdate]
  rfl

/-- Every step either commits nothing, claims, settles, or commits an external request. -/
inductive Step (rt : Runtime) (s : Sys) : Op → Sys → Prop where
  | idle {op : Op} {s' : Sys} (store : s'.store = s.store) (clock : s.clock ≤ s'.clock)
      (attempt : ∀ w, s'.attempt w = none ∨ s'.attempt w = s.attempt w) : Step rt s op s'
  | claimed {worker taskId : Nat} {config : PassConfig} {queue : List Nat} {t : OutreachTask}
      (pass : s.passes worker = some ⟨config, taskId :: queue, none⟩)
      (row : s.store.outreachTasks[taskId]? = some t) (hdue : due config.now t = true) :
      Step rt s (.claim worker)
        ((s.commit (writeRow s.store taskId (claimWrite t)
          (dispatchStarted config.workerId taskId (claimWrite t)))).setPass worker
          (some ⟨config, queue, some (taskId, claimWrite t)⟩))
  | settled {worker taskId : Nat} {config : PassConfig} {queue : List Nat}
      {copy t t' : OutreachTask} {outcome : SendOutcome} {a : AuditEvent}
      (pass : s.passes worker = some ⟨config, queue, some (taskId, copy)⟩)
      (row : s.store.outreachTasks[taskId]? = some t) (hd : t.status = .dispatching)
      (hs : Settlement config taskId copy t outcome t' a) :
      Step rt s (.settle worker outcome)
        ((s.commit (writeRow s.store taskId t' a)).setPass worker (some ⟨config, queue, none⟩))
  | ingested {sub : EventSubmission} {store : Store} {r : EventIngestionResult}
      (h : ingestEventSnapshot rt s.store sub s.clock = .ok (store, r)) :
      Step rt s (.ingestEvent sub) (s.commit store)
  | recorded {taskId : Nat} {loaded : OutreachTaskStatus} {body : DeliveryResultRequest}
      {t : OutreachTask} (row : s.store.outreachTasks[taskId]? = some t)
      (hallowed : allowedManualDeliverySourceStatus t.status = true) :
      Step rt s (.recordDeliveryResult taskId loaded body)
        (s.commit (writeRow s.store taskId (manualWrite body t)
          (deliveryResultRecorded taskId t t.status body)))
  | operatorCancelled {accountExternalId reason : String} {correlationId accountId : Nat}
      {account : Account} (key : s.store.accountByExternalId accountExternalId = some accountId)
      (row : s.store.accounts[accountId]? = some account) :
      Step rt s (.cancelOutreach accountExternalId reason correlationId)
        (s.commit (cancelScheduledAccountOutreach s.store accountId account reason
          correlationId).1)

@[simp] theorem store_commit (s : Sys) (store : Store) : (s.commit store).store = store := rfl

@[simp] theorem clock_commit (s : Sys) (store : Store) : (s.commit store).clock = s.clock := rfl

@[simp] theorem attempt_commit (s : Sys) (store : Store) (w : Nat) :
    (s.commit store).attempt w = s.attempt w := rfl

@[simp] theorem attempt_setPass (s : Sys) (worker w : Nat) (p : Option Pass) :
    (s.setPass worker p).attempt w = if w = worker then p.bind Pass.attempt else s.attempt w := by
  by_cases hw : w = worker <;> simp [Sys.attempt, Sys.setPass, hw]

@[simp] theorem store_setPass (s : Sys) (worker : Nat) (p : Option Pass) :
    (s.setPass worker p).store = s.store := rfl

@[simp] theorem clock_setPass (s : Sys) (worker : Nat) (p : Option Pass) :
    (s.setPass worker p).clock = s.clock := rfl

private theorem step_setPass {rt : Runtime} {s : Sys} {op : Op} (worker : Nat)
    {p : Option Pass} (hp : p.bind Pass.attempt = none) : Step rt s op (s.setPass worker p) := by
  refine .idle rfl (Int.le_refl _) fun w => ?_
  rw [attempt_setPass]
  split
  · exact Or.inl hp
  · exact Or.inr rfl

private theorem step_refl {rt : Runtime} {s : Sys} {op : Op} : Step rt s op s :=
  .idle rfl (Int.le_refl _) fun _ => Or.inr rfl

/-- The operation is one of the steps. -/
theorem step_spec (rt : Runtime) (s : Sys) (op : Op) : Step rt s op (step rt s op) := by
  cases op with
  | tick elapsed =>
    refine .idle rfl ?_ fun _ => Or.inr rfl
    simp only [step]
    omega
  | ingestEvent sub =>
    simp only [step, ingest]
    split
    · next h => exact .ingested h
    · exact step_refl
  | startPass worker config =>
    simp only [step]
    split
    · exact step_setPass worker rfl
    · exact step_refl
  | claim worker =>
    simp only [step, stepClaim]
    split
    · next config taskId queue hp =>
      rcases claimTask_cases s.store taskId config.now config.workerId with
        ⟨t, ht, hdue, hc⟩ | hc
      · simp only [hc, Option.map_some, Table.modify_eq_set ht]
        exact .claimed hp ht hdue
      · simp only [hc, Option.map_none]
        exact step_setPass worker rfl
    · exact step_refl
  | settle worker outcome =>
    simp only [step, stepSettle]
    split
    · next config queue taskId copy hp =>
      split
      · next store hs =>
        rcases settleAttempt_cases hs with
          rfl | ⟨t, ht, hd, ⟨result, rfl, rfl⟩ | ⟨error, rfl, -, rfl⟩⟩
        · exact step_setPass worker rfl
        · rw [Table.modify_eq_set ht]
          exact .settled hp ht hd (.success result)
        · rw [Table.modify_eq_set ht]
          exact .settled hp ht hd (.failure error)
      · exact step_setPass worker rfl
    · exact step_refl
  | crash worker => exact step_setPass worker rfl
  | recordDeliveryResult taskId loaded body =>
    simp only [step]
    split
    · next store h =>
      obtain ⟨t, ht, -, hallowed, rfl⟩ := recordManualDeliveryResult_ok h
      rw [Table.modify_eq_set ht]
      exact .recorded ht hallowed
    · exact step_refl
  | cancelOutreach accountExternalId reason correlationId =>
    simp only [step]
    split
    · next store n h =>
      obtain ⟨accountId, account, hid, hrow, he⟩ := cancelAccountOutreach_eq_some h
      obtain rfl := congrArg Prod.fst he
      exact .operatorCancelled hid hrow
    · exact step_refl

/-- A claim is the claiming step: a due row that the worker's pass still had to try. -/
theorem claimed_eq_some {s : Sys} {op : Op} {c : Claim} (h : claimed s op = some c) :
    ∃ worker config queue t, op = .claim worker ∧
      s.passes worker = some ⟨config, c.taskId :: queue, none⟩ ∧ config.now = c.now ∧
      s.store.outreachTasks[c.taskId]? = some t ∧ due c.now t = true ∧ c.task = claimWrite t := by
  unfold claimed at h
  split at h
  · next worker =>
    split at h
    · next config taskId queue hp =>
      rcases claimTask_cases s.store taskId config.now config.workerId with
        ⟨t, ht, hdue, hc⟩ | hc
      · rw [hc] at h
        cases h
        exact ⟨worker, config, queue, t, rfl, hp, rfl, ht, hdue, rfl⟩
      · rw [hc] at h
        cases h
    · cases h
  · cases h

/-! ### Commits -/

/-- Committed transactions, without the worker that runs them. -/
inductive Commit (rt : Runtime) (clock : Int) (s : Store) : Store → Prop where
  | ingested {sub : EventSubmission} {s' : Store} {r : EventIngestionResult}
      (h : Ingested rt s sub clock s' r) : Commit rt clock s s'
  | wrote {taskId : Nat} {t t' : OutreachTask} {a : AuditEvent}
      (row : s.outreachTasks[taskId]? = some t) (h : RowWrite taskId t t' a)
      (payload : a.payload.inboundEventId = none) :
      Commit rt clock s (writeRow s taskId t' a)
  | operatorCancelled {accountId : Nat} {account : Account} {reason : String}
      {correlationId : Nat} (row : s.accounts[accountId]? = some account) :
      Commit rt clock s
        (cancelScheduledAccountOutreach s accountId account reason correlationId).1

/-- On a well-formed store every step commits nothing or one transaction. -/
theorem Step.commit {rt : Runtime} {s s' : Sys} {op : Op} (hs : WellFormed s.store)
    (h : Step rt s op s') : s'.store = s.store ∨ Commit rt s.clock s.store s'.store := by
  cases h with
  | idle store _ _ => exact Or.inl store
  | claimed _ row hdue => exact Or.inr (.wrote row (.claim _ _ hdue) rfl)
  | settled _ row hd hw => exact Or.inr (.wrote row (hw.rowWrite hd) (by cases hw <;> rfl))
  | ingested h => exact Or.inr (.ingested (ingestEventSnapshot_ingested hs h))
  | recorded row hallowed => exact Or.inr (.wrote row (.manual _ hallowed) rfl)
  | operatorCancelled _ row => exact Or.inr (.operatorCancelled row)

/-! ### A small deployment

Concrete inputs on which the laws are instantiated: a tz database that knows UTC, the
digests of a few identities, and one customer with every consent. -/

/-- The zone `UTC`. -/
def utc : TimeZone := .fixed 0 utcOffset_mem

/-- Digests of the identities `servicing` and `event-n`. -/
def demoDigests : List (String × String) :=
  [("servicing\x1fevent-1", "dfdc9ab51a5d9905eb704c593a6354df9b2d57ff82b4a8ded472d73b044ac100"),
    ("servicing\x1fevent-2", "ebb66834060f02705d42f42718983b9880e4d0bebca15d6c3015dc03f7b942dc"),
    ("servicing\x1fevent-3", "699d702b01c401a553d2c6a6c0ce7f8d956c3dfbb8939307a4eece743598e3da"),
    ("servicing\x1fevent-4", "b0c9a53f2b0f866c112a3f16f401db50db99a080d67bc54e9adfffed1093d317"),
    ("servicing\x1fevent-5", "75bb838987bc0dcf2f58cadf462e3315fb4a2a1e47219904080edda663777a5d")]

/-- A runtime for inputs in `UTC` and those identities. -/
def demoRuntime : Runtime where
  zoneInfo key := if key = "UTC" then some utc else none
  sha256hex text := (demoDigests.lookup text).getD ""

/-- 2024-01-15T00:00:00Z, a Monday. -/
def demoMonday : Int := 738899 * day

/-- A moment in UTC. -/
def demoAt (u : Int) (h : 0 ≤ u ∧ u < wallEnd) : OffsetDatetime := ⟨u, 0, utcOffset_mem, h⟩

/-- Noon of that Monday. -/
def demoNoon : OffsetDatetime := demoAt (demoMonday + 12 * hour) (by decide)

/-- A customer snapshot with every consent. -/
def demoCustomer : CustomerSnapshot where
  externalId := "cust-1"
  fullName := "Ada"
  timezone := "UTC"
  phoneNumber := none
  email := none
  smsConsent := true
  callConsent := true
  emailConsent := true

/-- A delinquent account of that customer. -/
def demoAccount (externalId : String) : AccountSnapshot where
  externalId := externalId
  status := .delinquent
  balanceCents := 12500
  daysPastDue := 30

/-- An event of that customer. -/
def demoEvent (externalId : String) (eventType : EventType) (account : String)
    (occurredAt : OffsetDatetime) : EventSubmission where
  source := "servicing"
  externalId := externalId
  eventType := eventType
  customer := demoCustomer
  account := demoAccount account
  occurredAt := occurredAt
  metadata := []
  correlationId := 1

/-- A claimed email whose provider call has not returned. -/
def demoInFlight : List Op :=
  [.ingestEvent (demoEvent "event-1" .paymentFailed "acct-1" demoNoon),
    .startPass 0 { now := demoMonday + 12 * hour }, .claim 0]

/-- The email's row after its claim. -/
def demoDispatching : OutreachTask where
  accountId := 0
  customerId := 0
  channel := .email
  correlationId := 1
  status := .dispatching
  scheduledAt := demoMonday + 12 * hour
  attemptCount := 1
  maxAttempts := 3
  idempotencyKey := ⟨0, .email⟩
  policyDecisionId := some 0
  lastError := none
  createdAt := 0

end Orchestrator.System
