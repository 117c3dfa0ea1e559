import Orchestrator.Api.Routes
import Orchestrator.System.AuditTrail
import Orchestrator.System.Listings

/-!
# The running service

The HTTP routes and the workers over one store. Every run of the service is a run of
committed operations, so what holds of every reachable store holds of every store that a
client can meet; and the status of a response says what became of the store.
-/

namespace Orchestrator.System

open Api Base Domain Orchestration Workers

/-- The operations that no request makes. -/
def Op.background : Op → Bool
  | .tick _ => true
  | op => op.byWorker

/-- A request, or an operation of a worker or of the clock. -/
inductive Action where
  | request (request : Request)
  | background (op : Op) (h : op.background = true)

/-- One action of the service, with the response if there is one. -/
def serve (rt : Runtime) (gen : Generated) (s : Sys) : Action → Sys × Option Response
  | .request request =>
    let answered := handle rt gen s.store s.clock request
    (s.commit answered.1, some answered.2)
  | .background op _ => (step rt s op, none)

/-- The service after an action. -/
def serveStep (rt : Runtime) (gen : Generated) (s : Sys) (a : Action) : Sys := (serve rt gen s a).1

section

variable (rt : Runtime) (gen : Generated)

/-- An ingestion request commits what the ingestion commits. -/
theorem ingestEventRoute_store (s : Store) (clock : Int) (correlationId : Nat)
    (body : InboundEventRequest) :
    (ingestEventRoute rt s clock correlationId body).1 = s ∨
      ∃ sub, sub.correlationId = correlationId ∧
        (ingestEventRoute rt s clock correlationId body).1 = ingest rt s sub clock := by
  unfold ingestEventRoute
  cases hsub : body.submission rt correlationId with
  | error errors => exact Or.inl rfl
  | ok sub =>
    right
    refine ⟨sub, InboundEventRequest.submission_correlationId hsub, ?_⟩
    dsimp only
    cases h : ingestEventSnapshot rt s sub clock with
    | ok x => simp only [ingest, h]
    | error e => cases e <;> simp only [ingest, h]

/-- A delivery-result request commits what the compare-and-set commits. -/
theorem recordDeliveryResultRoute_store (s : Store) (taskId : Nat)
    (body : DeliveryResultBody) :
    (recordDeliveryResultRoute gen s taskId body).1 = s ∨ ∃ loaded request,
      recordManualDeliveryResult s taskId loaded request =
        .ok (recordDeliveryResultRoute gen s taskId body).1 := by
  unfold recordDeliveryResultRoute
  cases body.request with
  | error errors => exact Or.inl rfl
  | ok request =>
    dsimp only
    cases getOutreachTask s taskId with
    | none => exact Or.inl rfl
    | some task =>
      dsimp only
      split
      · exact Or.inl rfl
      · split
        · exact Or.inl rfl
        · cases h : recordManualDeliveryResult s taskId task.1.status request with
          | ok s' => exact Or.inr ⟨_, _, h⟩
          | error e => cases e <;> exact Or.inl rfl

/-- A cancellation request commits what the cancellation commits. -/
theorem cancelAccountOutreachRoute_store (s : Store) (correlationId : Nat)
    (accountExternalId reason : String) :
    (cancelAccountOutreachRoute s correlationId accountExternalId reason).1 = s ∨
      ∃ reason' n, cancelAccountOutreach s accountExternalId reason' correlationId =
        some ((cancelAccountOutreachRoute s correlationId accountExternalId reason).1, n) := by
  unfold cancelAccountOutreachRoute
  cases cancelOutreachReason reason with
  | error errors => exact Or.inl rfl
  | ok reason' =>
    dsimp only
    split
    · cases h : cancelAccountOutreach s accountExternalId reason' correlationId with
      | none => exact Or.inl rfl
      | some x => exact Or.inr ⟨reason', x.2, h⟩
    · exact Or.inl rfl

/-- An action of the service is no operation or one. -/
theorem serveStep_operation (s : Sys) (a : Action) :
    ∃ ops : List Op, serveStep rt gen s a = run (step rt) s ops := by
  cases a with
  | background op h => exact ⟨[op], rfl⟩
  | request request =>
    have hidle {store : Store} (h : store = s.store) :
        ∃ ops : List Op, s.commit store = run (step rt) s ops := ⟨[], by rw [h]; rfl⟩
    show ∃ ops, s.commit (handle rt gen s.store s.clock request).1 = _
    unfold handle
    cases hroute : request.route with
    | listTasks query => exact hidle rfl
    | getTask taskId => exact hidle rfl
    | listAuditEvents correlationId => exact hidle rfl
    | ingestEvent body =>
      rcases ingestEventRoute_store rt s.store s.clock request.correlationId body with h | h
      · exact hidle h
      · obtain ⟨sub, -, h⟩ := h
        exact ⟨[.ingestEvent sub], congrArg s.commit h⟩
    | recordDeliveryResult taskId body =>
      rcases recordDeliveryResultRoute_store gen s.store taskId body with h | h
      · exact hidle h
      · obtain ⟨loaded, delivery, h⟩ := h
        refine ⟨[.recordDeliveryResult taskId loaded delivery], ?_⟩
        simp only [run_cons, run_nil, step, h]
    | cancelAccountOutreach accountExternalId reason =>
      rcases cancelAccountOutreachRoute_store s.store request.correlationId accountExternalId
        reason with h | h
      · exact hidle h
      · obtain ⟨reason', n, h⟩ := h
        refine ⟨[.cancelOutreach accountExternalId reason' request.correlationId], ?_⟩
        simp only [run_cons, run_nil, step, h]

/-- Every run of the service, whatever its clients and workers do, is a run of committed
operations. -/
theorem service_refines (clock : Int) (actions : List Action) :
    ∃ ops : List Op, run (serveStep rt gen) (start clock) actions =
      run (step rt) (start clock) ops :=
  run_refines (serveStep_operation rt gen) (start clock) actions

end

/-! ### Responses -/

/-- The requests that end in an internal error: an event whose ingestion raises what the route
does not translate, a filter or an external id with U+0000, and a result of a task that accepts
one, with an error text that `last_error` cannot hold. -/
def EndsInError (rt : Runtime) (s : Store) (clock : Int) (request : Request) : Prop :=
  match request.route with
  | .ingestEvent body => ∃ sub e, body.submission rt request.correlationId = .ok sub ∧
      ingestEventSnapshot rt s sub clock = .error e ∧
      ∀ message, e ≠ .eventIngestionValidation message
  | .listTasks query => (1 ≤ query.limit ∧ query.limit ≤ 100) ∧ query.bindable = false
  | .recordDeliveryResult taskId body => ∃ delivery t error, body.request = .ok delivery ∧
      s.outreachTasks[taskId]? = some t ∧ allowedManualDeliverySourceStatus t.status = true ∧
      manualLastError delivery = some error ∧ (1000 < error.length ∨ nulFree error = false)
  | .cancelAccountOutreach accountExternalId reason =>
      (∃ stripped, cancelOutreachReason reason = .ok stripped) ∧
      nulFree accountExternalId = false
  | .getTask _ | .listAuditEvents _ => False

/-- What a response says of the request and of the store before and after it. -/
structure Answers (rt : Runtime) (gen : Generated) (s : Store) (clock : Int) (request : Request)
    (s' : Store) (response : Response) : Prop where
  refused : response.status ≠ 200 → s' = s
  reads : request.route.reads = true → s' = s
  readBack : ∀ taskId body, request.route = .recordDeliveryResult taskId body →
    response.status = 200 → getTaskRoute gen s' taskId = response
  conflict : ∀ taskId body, request.route = .recordDeliveryResult taskId body →
    (response.status = 409 ↔ body.errors = [] ∧ ∃ t, s.outreachTasks[taskId]? = some t ∧
      (t.status = .sent ∨ t.status = .cancelled))
  internal : response.status = 500 ↔ EndsInError rt s clock request

/-- No stored task is blocked: a task is only created for a decision that is not. -/
theorem run_unblocked (rt : Runtime) (clock : Int) (ops : List Op) :
    ∀ t ∈ (run (step rt) (start clock) ops).store.outreachTasks, t.status ≠ .blocked := by
  intro t ht
  obtain ⟨k, hk⟩ := List.mem_iff_getElem?.mp ht
  refine run_task_law (P := fun _ _ t => t.status ≠ .blocked) ?_ ?_ clock ops hk
  · intro clock s s' k t sub ctx hc
    obtain ⟨channel, d, at', rfl, -⟩ := hc.planned.row
    simp [taskRow]
  · intro clock s s' k t t' rows hcommit hone hrows h
    cases hone with
    | same => exact h
    | wrote hw =>
      cases hw with
      | claim => simp [claimWrite]
      | success => simp [successWrite]
      | failure copy error config =>
        simp only [failureWrite, finalStatus]
        split <;> simp
      | manual body => cases hb : body.status <;> simp [manualWrite, DeliveryStatus.toStatus, hb]
      | cancel => simp [OutreachTask.cancel]

section

variable {rt : Runtime} {gen : Generated} {s : Store}

/-- The answers to a delivery-result request that runs alone. -/
private inductive Delivered (gen : Generated) (s : Store) (taskId : Nat)
    (body : DeliveryResultBody) : Store → Response → Prop where
  | invalid {errors : List FieldError} (h : body.request = .error errors) :
      Delivered gen s taskId body s ⟨422, .fieldErrors errors⟩
  | missing {delivery : DeliveryResultRequest} (h : body.request = .ok delivery)
      (row : s.outreachTasks[taskId]? = none) :
      Delivered gen s taskId body s ⟨404, .detail "Task not found"⟩
  | conflict {delivery : DeliveryResultRequest} {t : OutreachTask} (text : String)
      (h : body.request = .ok delivery) (row : s.outreachTasks[taskId]? = some t)
      (status : allowedManualDeliverySourceStatus t.status = false) :
      Delivered gen s taskId body s ⟨409, .detail text⟩
  | failed {delivery : DeliveryResultRequest} {t : OutreachTask}
      (h : body.request = .ok delivery) (row : s.outreachTasks[taskId]? = some t)
      (status : allowedManualDeliverySourceStatus t.status = true)
      (last : lastErrorRefused (manualLastError delivery) ≠ none) :
      Delivered gen s taskId body s internalServerError
  | recorded {delivery : DeliveryResultRequest} {t : OutreachTask} {s' : Store}
      {r : OutreachTaskResponse} (h : body.request = .ok delivery)
      (row : s.outreachTasks[taskId]? = some t)
      (status : allowedManualDeliverySourceStatus t.status = true)
      (last : lastErrorRefused (manualLastError delivery) = none)
      (shown : getTaskRoute gen s' taskId = ⟨200, .task r⟩) :
      Delivered gen s taskId body s' ⟨200, .task r⟩

/-- A delivery-result request that runs alone has one of the five answers. -/
private theorem recordDeliveryResultRoute_delivered (rt : Runtime) (gen : Generated)
    (hs : Sourced s) (taskId : Nat) (body : DeliveryResultBody) :
    Delivered gen s taskId body (recordDeliveryResultRoute gen s taskId body).1
      (recordDeliveryResultRoute gen s taskId body).2 := by
  unfold recordDeliveryResultRoute
  cases hrequest : body.request with
  | error errors => exact .invalid hrequest
  | ok delivery =>
    cases hrow : s.outreachTasks[taskId]? with
    | none =>
      simp only [getOutreachTask, hrow, Option.map_none]
      exact .missing hrequest hrow
    | some t =>
      simp only [getOutreachTask, hrow, Option.map_some]
      split
      · next hcancelled => exact .conflict _ hrequest hrow (by rw [hcancelled]; rfl)
      · split
        · next hstatus =>
          rw [Bool.not_eq_true'] at hstatus
          exact .conflict _ hrequest hrow hstatus
        · next hstatus =>
          rw [Bool.not_eq_true', Bool.not_eq_false] at hstatus
          rw [recordManualDeliveryResult_eq hrow hstatus]
          cases hlast : lastErrorRefused (manualLastError delivery) with
          | none =>
            have hwrote : Transaction rt s (writeRow s taskId (manualWrite delivery t)
                (deliveryResultRecorded taskId t t.status delivery)) :=
              .wrote hrow (.manual delivery hstatus) rfl
            have hrow' : (writeRow s taskId (manualWrite delivery t)
                (deliveryResultRecorded taskId t t.status delivery)).outreachTasks[taskId]? =
                  some (manualWrite delivery t) :=
              List.getElem?_set_self (List.getElem?_eq_some_iff.mp hrow).1
            have hread := getOutreachTask_stored gen (hwrote.sourced hs) hrow'
            rw [getOutreachTask] at hread
            simp only [hread, Option.elim_some]
            exact .recorded hrequest hrow hstatus hlast
              (getTaskRoute_stored gen (hwrote.sourced hs) hrow')
          | some e =>
            have hfailed : Delivered gen s taskId body s internalServerError :=
              .failed hrequest hrow hstatus (by simp [hlast])
            rcases lastErrorRefused_eq_some hlast with rfl | rfl
            · exact hfailed
            · exact hfailed

/-- The listing fails for a filter that PostgreSQL refuses. -/
private theorem listTasksRoute_failed (gen : Generated) (hs : Sourced s) (query : TaskQuery) :
    (listTasksRoute gen s query).status = 500 ↔
      (1 ≤ query.limit ∧ query.limit ≤ 100) ∧ query.bindable = false := by
  rw [← TaskQuery.errors_eq_nil]
  unfold listTasksRoute
  split
  · next herrors => simp [herrors]
  · next herrors =>
    rw [ne_eq, not_not] at herrors
    rw [listTasks_eq gen hs]
    cases hbindable : query.bindable <;> simp [herrors, internalServerError]

/-- The route of one task answers on every sourced store. -/
private theorem getTaskRoute_answers (gen : Generated) (hs : Sourced s) (taskId : Nat) :
    (getTaskRoute gen s taskId).status ≠ 500 := by
  cases hrow : s.outreachTasks[taskId]? with
  | none => simp [getTaskRoute, getOutreachTask, hrow]
  | some t => simp [getTaskRoute_stored gen hs hrow]

/-- A refused ingestion changes nothing, and a 500 is an exception that the route leaves. -/
private theorem ingestEventRoute_refused (rt : Runtime) (clock : Int) (correlationId : Nat)
    (body : InboundEventRequest) :
    ((ingestEventRoute rt s clock correlationId body).2.status ≠ 200 →
      (ingestEventRoute rt s clock correlationId body).1 = s) ∧
    ((ingestEventRoute rt s clock correlationId body).2.status = 500 ↔
      ∃ sub e, body.submission rt correlationId = .ok sub ∧
        ingestEventSnapshot rt s sub clock = .error e ∧
        ∀ message, e ≠ .eventIngestionValidation message) := by
  unfold ingestEventRoute
  cases hsub : body.submission rt correlationId with
  | error errors => simp
  | ok sub =>
    dsimp only
    cases h : ingestEventSnapshot rt s sub clock with
    | ok x =>
      simp only [ne_eq, not_true_eq_false, false_implies, true_and, Nat.reduceEqDiff, false_iff]
      rintro ⟨sub', e, hsub', he, -⟩
      rw [← Except.ok.inj hsub', h] at he
      cases he
    | error e => cases e <;> simp [internalServerError, h]

/-- A refused cancellation changes nothing, and a 500 is an external id with U+0000. -/
private theorem cancelAccountOutreachRoute_refused (correlationId : Nat)
    (accountExternalId reason : String) :
    ((cancelAccountOutreachRoute s correlationId accountExternalId reason).2.status ≠ 200 →
      (cancelAccountOutreachRoute s correlationId accountExternalId reason).1 = s) ∧
    ((cancelAccountOutreachRoute s correlationId accountExternalId reason).2.status = 500 ↔
      (∃ stripped, cancelOutreachReason reason = .ok stripped) ∧
        nulFree accountExternalId = false) := by
  unfold cancelAccountOutreachRoute
  cases cancelOutreachReason reason with
  | error errors => simp
  | ok reason' =>
    dsimp only
    split
    · next hfree =>
      cases cancelAccountOutreach s accountExternalId reason' correlationId <;> simp [hfree]
    · next hfree => simp [hfree, internalServerError]

/-- A text that `last_error` refuses is too long or holds U+0000. -/
private theorem lastErrorRefused_iff {lastError : Option String} :
    lastErrorRefused lastError ≠ none ↔ ∃ error, lastError = some error ∧
      (1000 < error.length ∨ nulFree error = false) := by
  rw [ne_eq, lastErrorRefused_eq_none]
  cases lastError with
  | none => simp [fitsStringOption]
  | some error =>
    simp only [fitsStringOption, fitsString, Option.all_some, decide_eq_true_eq, not_and_or,
      Nat.not_le, Bool.not_eq_true, Option.some.injEq, exists_eq_left']

/-- A delivery-result body without errors is a request. -/
private theorem request_isOk (body : DeliveryResultBody) :
    body.errors = [] ↔ ∃ delivery, body.request = .ok delivery := by
  constructor
  · intro herrors
    have hstatus : (deliveryStatusOf body.status).isSome = true := by
      simp only [DeliveryResultBody.errors, List.append_eq_nil_iff, choiceField_eq_nil] at herrors
      exact herrors.1
    obtain ⟨status, hstatus⟩ := Option.isSome_iff_exists.mp hstatus
    exact ⟨⟨status, body.providerMessageId, body.details⟩, by
      simp only [DeliveryResultBody.request, herrors, hstatus]⟩
  · rintro ⟨delivery, h⟩
    exact (DeliveryResultBody.request_ok h).1

/-- The status that refuses a manual delivery result of a task that is not blocked. -/
private theorem not_allowed_iff {status : OutreachTaskStatus} (h : status ≠ .blocked) :
    allowedManualDeliverySourceStatus status = false ↔ status = .sent ∨ status = .cancelled := by
  cases status <;> simp [allowedManualDeliverySourceStatus] at h ⊢

namespace Delivered

variable {s' : Store} {taskId : Nat} {body : DeliveryResultBody} {response : Response}

private theorem refused (h : Delivered gen s taskId body s' response) :
    response.status ≠ 200 → s' = s := by
  cases h with
  | recorded => intro hstatus; exact absurd rfl hstatus
  | _ => intro _; rfl

private theorem readBack (h : Delivered gen s taskId body s' response) :
    response.status = 200 → getTaskRoute gen s' taskId = response := by
  cases h with
  | recorded _ _ _ _ shown => intro _; exact shown
  | _ => simp [internalServerError]

private theorem conflict_iff (hs : ∀ t ∈ s.outreachTasks, t.status ≠ .blocked)
    (h : Delivered gen s taskId body s' response) :
    response.status = 409 ↔ body.errors = [] ∧ ∃ t, s.outreachTasks[taskId]? = some t ∧
      (t.status = .sent ∨ t.status = .cancelled) := by
  have hblocked {t : OutreachTask} (hrow : s.outreachTasks[taskId]? = some t) :
      t.status ≠ .blocked := hs t (List.mem_of_getElem? hrow)
  cases h with
  | invalid h =>
    have herrors : ¬ body.errors = [] := by
      rw [request_isOk]
      simp [h]
    simp [herrors]
  | missing h row => simp [row]
  | conflict text h row status =>
    have herrors : body.errors = [] := (request_isOk body).mpr ⟨_, h⟩
    simpa [herrors, row] using (not_allowed_iff (hblocked row)).mp status
  | failed h row status last =>
    have hnot := mt (not_allowed_iff (hblocked row)).mpr (by simp [status])
    simp [internalServerError, row, hnot]
  | recorded h row status last shown =>
    have hnot := mt (not_allowed_iff (hblocked row)).mpr (by simp [status])
    simp [row, hnot]

private theorem internal (h : Delivered gen s taskId body s' response) :
    response.status = 500 ↔ ∃ delivery t error, body.request = .ok delivery ∧
      s.outreachTasks[taskId]? = some t ∧ allowedManualDeliverySourceStatus t.status = true ∧
      manualLastError delivery = some error ∧ (1000 < error.length ∨ nulFree error = false) := by
  simp only [← lastErrorRefused_iff, exists_and_left]
  cases h with
  | invalid h => simp [h]
  | missing h row => simp [row]
  | conflict text h row status => simp [row, status]
  | failed h row status last => simp [internalServerError, h, row, status, last]
  | recorded h row status last shown => simp [h, row, status, last]

end Delivered

/-- On every reachable store each response says what it promises. -/
theorem answers_of_sourced (hs : Sourced s) (hblocked : ∀ t ∈ s.outreachTasks, t.status ≠ .blocked)
    (clock : Int) (request : Request) :
    Answers rt gen s clock request (handle rt gen s clock request).1
      (handle rt gen s clock request).2 := by
  unfold handle
  cases hroute : request.route with
  | ingestEvent body =>
    have h := ingestEventRoute_refused (s := s) rt clock request.correlationId body
    refine ⟨h.1, by simp [hroute, Route.reads], by simp [hroute], by simp [hroute], ?_⟩
    simpa only [EndsInError, hroute] using h.2
  | listTasks query =>
    refine ⟨fun _ => rfl, fun _ => rfl, by simp [hroute], by simp [hroute], ?_⟩
    simpa only [EndsInError, hroute] using listTasksRoute_failed gen hs query
  | getTask taskId =>
    refine ⟨fun _ => rfl, fun _ => rfl, by simp [hroute], by simp [hroute], ?_⟩
    simpa only [EndsInError, hroute, iff_false] using getTaskRoute_answers gen hs taskId
  | recordDeliveryResult taskId body =>
    have h := recordDeliveryResultRoute_delivered rt gen hs taskId body
    refine ⟨h.refused, by simp [hroute, Route.reads], ?_, ?_, ?_⟩
    · intro taskId' body' heq
      rw [hroute] at heq
      cases heq
      exact h.readBack
    · intro taskId' body' heq
      rw [hroute] at heq
      cases heq
      exact h.conflict_iff hblocked
    · simpa only [EndsInError, hroute] using h.internal
  | listAuditEvents correlationId =>
    refine ⟨fun _ => rfl, fun _ => rfl, by simp [hroute], by simp [hroute], ?_⟩
    simp [EndsInError, hroute]
  | cancelAccountOutreach accountExternalId reason =>
    have h := cancelAccountOutreachRoute_refused (s := s) request.correlationId accountExternalId
      reason
    refine ⟨h.1, by simp [hroute, Route.reads], by simp [hroute], by simp [hroute], ?_⟩
    simpa only [EndsInError, hroute] using h.2

end

/-- Whatever the clients and the workers have done, a response other than 200 says that
nothing changed, a reading request changes nothing, an accepted delivery result is what the
task's own route then answers, 409 says that the task was sent or cancelled, and the requests
that end in a 500 are those of `EndsInError`. -/
theorem service_contract (rt : Runtime) (gen : Generated) (clock : Int) (actions : List Action)
    (request : Request) :
    Answers rt gen (run (serveStep rt gen) (start clock) actions).store
      (run (serveStep rt gen) (start clock) actions).clock request
      (handle rt gen (run (serveStep rt gen) (start clock) actions).store
        (run (serveStep rt gen) (start clock) actions).clock request).1
      (handle rt gen (run (serveStep rt gen) (start clock) actions).store
        (run (serveStep rt gen) (start clock) actions).clock request).2 := by
  obtain ⟨ops, hops⟩ := run_refines (serveStep_operation rt gen) (start clock) actions
  rw [hops]
  exact answers_of_sourced (run_sourced rt clock ops) (run_unblocked rt clock ops) _ request

end Orchestrator.System
