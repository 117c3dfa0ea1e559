import Orchestrator.Api.Queries

/-!
# Routes and responses

Every route that reads or writes the database, from its parsed request to its response:
`src/orchestrator/api/events.py`, `src/orchestrator/api/tasks.py`,
`src/orchestrator/api/audit.py` and `src/orchestrator/api/accounts.py`. A request runs
alone here. An exception that no route translates is a 500.
-/

namespace Orchestrator.Api

open Base Domain

/-- `InboundEventResponse`, `src/orchestrator/api/events.py:102–117`; its `status` text is
always `accepted`. -/
structure InboundEventResponse where
  result : EventIngestionResult
  correlationId : Nat
  deriving DecidableEq, Repr

/-- `CancelOutreachResponse`, `src/orchestrator/api/accounts.py:31–33`. -/
structure CancelOutreachResponse where
  accountExternalId : String
  cancelledTasks : Nat
  deriving DecidableEq, Repr

/-- Bodies of responses. -/
inductive Body where
  | event (response : InboundEventResponse)
  | tasks (responses : List OutreachTaskResponse)
  | task (response : OutreachTaskResponse)
  | auditEvents (responses : List AuditEventResponse)
  | cancelOutreach (response : CancelOutreachResponse)
  | detail (text : String)
  | fieldErrors (errors : List FieldError)
  | parameterErrors (errors : List ParameterError)
  | internalServerError
  deriving DecidableEq, Repr

/-- A response. -/
structure Response where
  status : Nat
  body : Body
  deriving DecidableEq, Repr

/-- The response to an exception that no route translates. -/
def internalServerError : Response := ⟨500, .internalServerError⟩

/-- `ingest_event`, `src/orchestrator/api/events.py:120–176`. -/
def ingestEventRoute (rt : Runtime) (s : Store) (clock : Int) (correlationId : Nat)
    (body : InboundEventRequest) : Store × Response :=
  match body.submission rt correlationId with
  | .error errors => (s, ⟨422, .fieldErrors errors⟩)
  | .ok sub =>
    match ingestEventSnapshot rt s sub clock with
    | .ok (s', result) => (s', ⟨200, .event ⟨result, correlationId⟩⟩)
    | .error (.eventIngestionValidation message) => (s, ⟨422, .detail message⟩)
    | .error _ => (s, internalServerError)

/-- `list_tasks`, `src/orchestrator/api/tasks.py:86–104`. -/
def listTasksRoute (gen : Generated) (s : Store) (query : TaskQuery) : Response :=
  if query.errors ≠ [] then ⟨422, .parameterErrors query.errors⟩
  else (listTasks gen s query).elim internalServerError fun tasks => ⟨200, .tasks tasks⟩

/-- `get_task`, `src/orchestrator/api/tasks.py:107–117`. -/
def getTaskRoute (gen : Generated) (s : Store) (taskId : Nat) : Response :=
  match getOutreachTask s taskId with
  | none => ⟨404, .detail "Task not found"⟩
  | some task => (taskResponse gen s task).elim internalServerError fun r => ⟨200, .task r⟩

/-- `record_delivery_result`, `src/orchestrator/api/tasks.py:120–155`. The status that the
request loads is the stored one, and so is the row that it reloads after its commit. -/
def recordDeliveryResultRoute (gen : Generated) (s : Store) (taskId : Nat)
    (body : DeliveryResultBody) : Store × Response :=
  match body.request with
  | .error errors => (s, ⟨422, .fieldErrors errors⟩)
  | .ok request =>
    match getOutreachTask s taskId with
    | none => (s, ⟨404, .detail "Task not found"⟩)
    | some (task, _) =>
      if task.status = .cancelled then
        (s, ⟨409, .detail "Cancelled tasks cannot be manually marked delivered"⟩)
      else if !allowedManualDeliverySourceStatus task.status then
        (s, ⟨409, .detail "Task status does not allow manual delivery result"⟩)
      else
        match recordManualDeliveryResult s taskId task.status request with
        | .ok s' =>
          (s', ((getOutreachTask s' taskId).bind (taskResponse gen s')).elim
            internalServerError fun r => ⟨200, .task r⟩)
        | .error (.taskStateConflict _) => (s, ⟨409, .detail
            "Task status changed before manual delivery result was recorded"⟩)
        | .error _ => (s, internalServerError)

/-- `cancel_account_outreach`, `src/orchestrator/api/accounts.py:36–61`. PostgreSQL refuses to look
up an external id with U+0000. -/
def cancelAccountOutreachRoute (s : Store) (correlationId : Nat)
    (accountExternalId reason : String) : Store × Response :=
  match cancelOutreachReason reason with
  | .error errors => (s, ⟨422, .fieldErrors errors⟩)
  | .ok reason =>
    if nulFree accountExternalId then
      match cancelAccountOutreach s accountExternalId reason correlationId with
      | none => (s, ⟨404, .detail "Account not found"⟩)
      | some (s', cancelledTasks) =>
        (s', ⟨200, .cancelOutreach ⟨accountExternalId, cancelledTasks⟩⟩)
    else (s, internalServerError)

/-- Requests by route. -/
inductive Route where
  | ingestEvent (body : InboundEventRequest)
  | listTasks (query : TaskQuery)
  | getTask (taskId : Nat)
  | recordDeliveryResult (taskId : Nat) (body : DeliveryResultBody)
  | listAuditEvents (correlationId : Option Nat)
  | cancelAccountOutreach (accountExternalId reason : String)

/-- The routes that only read. -/
def Route.reads : Route → Bool
  | .listTasks _ | .getTask _ | .listAuditEvents _ => true
  | .ingestEvent _ | .recordDeliveryResult _ _ | .cancelAccountOutreach _ _ => false

/-- A request with the correlation id that the middleware gave it. -/
structure Request where
  correlationId : Nat
  route : Route

/-- The store and the response after a request. -/
def handle (rt : Runtime) (gen : Generated) (s : Store) (clock : Int) (request : Request) :
    Store × Response :=
  match request.route with
  | .ingestEvent body => ingestEventRoute rt s clock request.correlationId body
  | .listTasks query => (s, listTasksRoute gen s query)
  | .getTask taskId => (s, getTaskRoute gen s taskId)
  | .recordDeliveryResult taskId body => recordDeliveryResultRoute gen s taskId body
  | .listAuditEvents correlationId =>
    (s, ⟨200, .auditEvents (Api.listAuditEvents gen s correlationId)⟩)
  | .cancelAccountOutreach accountExternalId reason =>
    cancelAccountOutreachRoute s request.correlationId accountExternalId reason

end Orchestrator.Api
