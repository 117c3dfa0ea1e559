import Orchestrator.Api.Requests
import Orchestrator.Base.Page

/-!
# Read routes

The `GET` routes of `src/orchestrator/api/tasks.py` and `src/orchestrator/api/audit.py` and
the statements of `src/orchestrator/domain/operational_outreach.py` behind them. A response
that needs a relation which is missing cannot be built: the route raises.
-/

namespace Orchestrator.Api

open Base Domain

/-- Columns that the database generates and the store leaves out: the UUIDs of task and
audit rows as integers, and times. -/
structure Generated where
  taskId : Nat → Nat
  auditId : Nat → Nat
  auditCreatedAt : Nat → Int
  taskUpdatedAt : Nat → Int
  taskId_injective : Function.Injective taskId
  auditId_injective : Function.Injective auditId

/-- `PolicyDecisionContextResponse`, `src/orchestrator/api/tasks.py:25–29`. -/
structure PolicyDecisionContextResponse where
  id : Nat
  decision : PolicyDecisionOutcome
  channel : Option OutreachChannel
  reasons : List Reason
  deriving DecidableEq, Repr

/-- `OutreachTaskResponse`, `src/orchestrator/api/tasks.py:32–45`. -/
structure OutreachTaskResponse where
  id : Nat
  accountExternalId : String
  customerExternalId : String
  channel : OutreachChannel
  status : OutreachTaskStatus
  correlationId : Nat
  scheduledAt : Int
  attemptCount : Nat
  maxAttempts : Nat
  lastError : Option String
  createdAt : Int
  updatedAt : Int
  policyDecision : Option PolicyDecisionContextResponse
  deriving DecidableEq, Repr

/-- `AuditEventResponse`, `src/orchestrator/api/audit.py:16–34`. -/
structure AuditEventResponse where
  id : Nat
  event : AuditEvent
  createdAt : Int
  deriving DecidableEq, Repr

/-- The decision of a task in its response, `src/orchestrator/api/tasks.py:59–68`. -/
def policyDecisionContext (s : Store) (decisionId : Nat) : Option PolicyDecisionContextResponse :=
  (s.policyDecisions[decisionId]?).map fun d => ⟨decisionId, d.decision, d.channel, d.reasons⟩

/-- `task_response`, `src/orchestrator/api/tasks.py:58–83`. A missing account or customer
raises `AttributeError`. -/
def taskResponse (gen : Generated) (s : Store) (task : OutreachTask × Nat) :
    Option OutreachTaskResponse := do
  let account ← s.accounts[task.1.accountId]?
  let customer ← s.customers[task.1.customerId]?
  some
    { id := task.2
      accountExternalId := account.externalId
      customerExternalId := customer.externalId
      channel := task.1.channel
      status := task.1.status
      correlationId := task.1.correlationId
      scheduledAt := task.1.scheduledAt
      attemptCount := task.1.attemptCount
      maxAttempts := task.1.maxAttempts
      lastError := task.1.lastError
      createdAt := task.1.createdAt
      updatedAt := gen.taskUpdatedAt task.2
      policyDecision := task.1.policyDecisionId.bind (policyDecisionContext s) }

/-- Query parameters of `list_tasks`, `src/orchestrator/api/tasks.py:88–92`. -/
structure TaskQuery where
  status : Option OutreachTaskStatus := none
  customerExternalId : Option String := none
  accountExternalId : Option String := none
  channel : Option OutreachChannel := none
  limit : Int := 50

/-- A refused query parameter. -/
inductive ParameterError where
  | greaterThanEqual (name : String) (bound : Int)
  | lessThanEqual (name : String) (bound : Int)
  deriving DecidableEq, Repr

/-- `Query(ge=1, le=100)`, `src/orchestrator/api/tasks.py:92`. -/
def TaskQuery.errors (query : TaskQuery) : List ParameterError :=
  if query.limit < 1 then [.greaterThanEqual "limit" 1]
  else if 100 < query.limit then [.lessThanEqual "limit" 100]
  else []

/-- A limit is refused outside its bounds. -/
theorem TaskQuery.errors_eq_nil {query : TaskQuery} :
    query.errors = [] ↔ 1 ≤ query.limit ∧ query.limit ≤ 100 := by
  unfold TaskQuery.errors
  split
  · simp
    omega
  · split
    · simp
      omega
    · simp
      omega

/-- PostgreSQL accepts the texts of the filters as parameters: neither holds U+0000. -/
def TaskQuery.bindable (query : TaskQuery) : Bool :=
  query.customerExternalId.all nulFree && query.accountExternalId.all nulFree

/-- `apply_task_filters`, `src/orchestrator/domain/operational_outreach.py:173–193`, on texts that
PostgreSQL accepts: the joins keep a task whose relation exists, and `has` compares its external
id. -/
def applyTaskFilters (s : Store) (query : TaskQuery) (t : OutreachTask) : Bool :=
  query.status.all (fun status => t.status = status) &&
    (query.channel.all (fun channel => t.channel = channel) &&
      (query.customerExternalId.all (fun x =>
          (s.customers[t.customerId]?).any fun c => c.externalId = x) &&
        query.accountExternalId.all fun x =>
          (s.accounts[t.accountId]?).any fun a => a.externalId = x))

/-- `ORDER BY created_at, id` of tasks, `src/orchestrator/api/tasks.py:101`. -/
def Generated.taskOrder (gen : Generated) (x y : OutreachTask × Nat) : Bool :=
  x.1.createdAt < y.1.createdAt ||
    (x.1.createdAt = y.1.createdAt && gen.taskId x.2 ≤ gen.taskId y.2)

/-- `list_tasks` with a limit in range, `src/orchestrator/api/tasks.py:86–104`. It raises when
PostgreSQL refuses a filter. -/
def listTasks (gen : Generated) (s : Store) (query : TaskQuery) :
    Option (List OutreachTaskResponse) :=
  if query.bindable then
    (Table.page (applyTaskFilters s query) gen.taskOrder query.limit.toNat s.outreachTasks).mapM
      (taskResponse gen s)
  else none

/-- `get_outreach_task`, `src/orchestrator/domain/operational_outreach.py:33–44`. -/
def getOutreachTask (s : Store) (taskId : Nat) : Option (OutreachTask × Nat) :=
  (s.outreachTasks[taskId]?).map fun task => (task, taskId)

/-- `ORDER BY created_at, id` of audit rows, `src/orchestrator/api/audit.py:52`. -/
def Generated.auditOrder (gen : Generated) (x y : AuditEvent × Nat) : Bool :=
  gen.auditCreatedAt x.2 < gen.auditCreatedAt y.2 ||
    (gen.auditCreatedAt x.2 = gen.auditCreatedAt y.2 && gen.auditId x.2 ≤ gen.auditId y.2)

/-- `list_audit_events`, `src/orchestrator/api/audit.py:37–53`. -/
def listAuditEvents (gen : Generated) (s : Store) (correlationId : Option Nat) :
    List AuditEventResponse :=
  (Table.ordered (fun a : AuditEvent => correlationId.all fun x => a.correlationId = x)
    gen.auditOrder s.auditEvents).map fun x => ⟨x.2, x.1, gen.auditCreatedAt x.2⟩

/-! ### Orders -/

section

variable (gen : Generated)

/-- The order of tasks tells them apart. -/
theorem Generated.taskOrder_rowOrder : Table.RowOrder gen.taskOrder where
  total x y := by
    simp only [taskOrder, Bool.or_eq_true, Bool.and_eq_true, decide_eq_true_eq]
    omega
  trans x y z hxy hyz := by
    simp only [taskOrder, Bool.or_eq_true, Bool.and_eq_true, decide_eq_true_eq] at hxy hyz ⊢
    omega
  key x y hxy hyx := by
    simp only [taskOrder, Bool.or_eq_true, Bool.and_eq_true, decide_eq_true_eq] at hxy hyx
    apply gen.taskId_injective
    omega

/-- The order of audit rows tells them apart. -/
theorem Generated.auditOrder_rowOrder : Table.RowOrder gen.auditOrder where
  total x y := by
    simp only [auditOrder, Bool.or_eq_true, Bool.and_eq_true, decide_eq_true_eq]
    omega
  trans x y z hxy hyz := by
    simp only [auditOrder, Bool.or_eq_true, Bool.and_eq_true, decide_eq_true_eq] at hxy hyz ⊢
    omega
  key x y hxy hyx := by
    simp only [auditOrder, Bool.or_eq_true, Bool.and_eq_true, decide_eq_true_eq] at hxy hyx
    apply gen.auditId_injective
    omega

end

end Orchestrator.Api
