import Mathlib.Data.List.Sort
import Orchestrator.Models

/-!
# Worker dispatch

`src/orchestrator/workers/dispatch.py`. A pass reads the due tasks once, then claims,
sends and settles them one by one. The claim and the settlement are separate
transactions; between them the worker holds only its refreshed copy of the row.
-/

namespace Orchestrator.Workers

open Base

/-- A worker id that `actor_id` holds, `src/orchestrator/models.py:314`. Under any other one the
audit row of a claim is refused, and nothing of the claim is committed. -/
structure WorkerId where
  text : String
  fits : fitsString 255 text = true
  free : nulFree text = true
  deriving DecidableEq, Repr

/-- The default `worker_id`, `src/orchestrator/workers/dispatch.py:40`. -/
def dispatchWorker : WorkerId := ⟨"dispatch-worker", by decide, by decide⟩

/-- Arguments of `dispatch_due_tasks`, `src/orchestrator/workers/dispatch.py:33–41`. -/
structure PassConfig where
  now : Int
  limit : Nat := 10
  retryDelay : Int := 5 * minute
  workerId : WorkerId := dispatchWorker
  deriving DecidableEq, Repr

/-- `DeliveryResult`, `src/orchestrator/channels/base.py:9–12`. -/
structure DeliveryResult where
  providerMessageId : String
  details : JsonObject
  deriving DecidableEq, Repr

/-- How a provider call ends: a result with storable details, or an exception with its text,
which holds no U+0000. -/
inductive SendOutcome where
  | delivered (result : DeliveryResult)
  | raised (error : String)
  deriving DecidableEq, Repr

/-- The tasks that a pass at `now` may claim, `src/orchestrator/workers/dispatch.py:57–58`
and the same condition of the claiming update at `:72–74`. -/
def due (now : Int) (t : OutreachTask) : Bool := t.status = .scheduled && t.scheduledAt ≤ now

/-- A due task is scheduled for a time that has come. -/
theorem due_iff {now : Int} {t : OutreachTask} :
    due now t = true ↔ t.status = .scheduled ∧ t.scheduledAt ≤ now := by
  simp only [due, Bool.and_eq_true, decide_eq_true_eq]

/-- A due task is scheduled. -/
theorem scheduled_of_due {now : Int} {t : OutreachTask} (h : due now t = true) :
    t.status = .scheduled := (due_iff.mp h).1

/-- `ORDER BY scheduled_at, created_at`, `src/orchestrator/workers/dispatch.py:59`. -/
def dispatchOrder (x y : OutreachTask × Nat) : Bool :=
  x.1.scheduledAt < y.1.scheduledAt ||
    (x.1.scheduledAt = y.1.scheduledAt && x.1.createdAt ≤ y.1.createdAt)

/-- The id list that a pass fixes at its start,
`src/orchestrator/workers/dispatch.py:54–62`. -/
def dueTaskIds (s : Store) (now : Int) (limit : Nat) : List Nat :=
  (((Table.select (due now) s.outreachTasks).insertionSort
    (fun x y => dispatchOrder x y = true)).take limit).map Prod.snd

/-- The claiming write, `src/orchestrator/workers/dispatch.py:75–78`. -/
def claimWrite (t : OutreachTask) : OutreachTask :=
  { t with status := .dispatching, attemptCount := t.attemptCount + 1 }

/-- The audit row of a claim, `src/orchestrator/workers/dispatch.py:85–97`. -/
def dispatchStarted (workerId : WorkerId) (taskId : Nat) (task : OutreachTask) : AuditEvent where
  entityType := .outreachTask
  entityId := taskId
  eventType := .dispatchStarted
  actorType := .worker
  actorId := some workerId.text
  correlationId := task.correlationId
  payload := { channel := some task.channel, attemptCount := some task.attemptCount }

/-- Claim of one task up to its commit, `src/orchestrator/workers/dispatch.py:65–98`. A
missing row or an update that hits no row leaves the store as it was; otherwise the
refreshed copy of the row is returned. -/
def claimTask (s : Store) (taskId : Nat) (now : Int) (workerId : WorkerId) :
    Store × Option OutreachTask :=
  let claimed := Table.updateWhere s.outreachTasks taskId (due now) claimWrite
  if claimed.2 = 1 then
    match claimed.1[taskId]? with
    | some task => ({ s with outreachTasks := claimed.1 }.appendAuditEvent
        (dispatchStarted workerId taskId task), some task)
    | none => (s, none)
  else (s, none)

/-- The condition of both settling updates, `src/orchestrator/workers/dispatch.py:139` and
`:181`. -/
def dispatching (t : OutreachTask) : Bool := t.status = .dispatching

/-- The succeeding write, `src/orchestrator/workers/dispatch.py:140`. -/
def successWrite (t : OutreachTask) : OutreachTask :=
  { t with status := .sent, lastError := none }

/-- The audit row of a success, `src/orchestrator/workers/dispatch.py:147–159`. -/
def dispatchSucceeded (workerId : WorkerId) (taskId : Nat) (task : OutreachTask)
    (result : DeliveryResult) : AuditEvent where
  entityType := .outreachTask
  entityId := taskId
  eventType := .dispatchSucceeded
  actorType := .worker
  actorId := some workerId.text
  correlationId := task.correlationId
  payload := { providerMessageId := some result.providerMessageId,
               details := some result.details }

/-- `_record_success`, `src/orchestrator/workers/dispatch.py:128–160`. -/
def recordSuccess (s : Store) (taskId : Nat) (task : OutreachTask) (result : DeliveryResult)
    (workerId : WorkerId) : Store :=
  let updated := Table.updateWhere s.outreachTasks taskId dispatching successWrite
  if updated.2 = 1 then
    { s with outreachTasks := updated.1 }.appendAuditEvent
      (dispatchSucceeded workerId taskId task result)
  else s

/-- `will_retry`, read from the copy held since the claim,
`src/orchestrator/workers/dispatch.py:172`. -/
def willRetry (task : OutreachTask) : Bool := task.attemptCount < task.maxAttempts

/-- `retry_scheduled_at`, `src/orchestrator/workers/dispatch.py:173`. -/
def retryScheduledAt (task : OutreachTask) (config : PassConfig) : Option Int :=
  if willRetry task then some (config.now + config.retryDelay) else none

/-- `final_status`, `src/orchestrator/workers/dispatch.py:174–176`. -/
def finalStatus (task : OutreachTask) : OutreachTaskStatus :=
  if willRetry task then .scheduled else .failed

/-- The failing write, `src/orchestrator/workers/dispatch.py:182–186`. -/
def failureWrite (task : OutreachTask) (error : String) (config : PassConfig)
    (t : OutreachTask) : OutreachTask :=
  { t with
    status := finalStatus task
    scheduledAt := (retryScheduledAt task config).getD task.scheduledAt
    lastError := some error }

/-- The audit row of a failure, `src/orchestrator/workers/dispatch.py:193–208`. -/
def dispatchFailed (taskId : Nat) (task : OutreachTask) (error : String)
    (config : PassConfig) : AuditEvent where
  entityType := .outreachTask
  entityId := taskId
  eventType := .dispatchFailed
  actorType := .worker
  actorId := some config.workerId.text
  correlationId := task.correlationId
  payload := { error := some error, willRetry := some (willRetry task),
               retryScheduledAt := retryScheduledAt task config,
               finalStatus := some (finalStatus task) }

/-- `_record_failure`, `src/orchestrator/workers/dispatch.py:163–209`. A text longer than
the `last_error` column is refused by the database when the update hits the row. -/
def recordFailure (s : Store) (taskId : Nat) (task : OutreachTask) (error : String)
    (config : PassConfig) : Except Failure Store :=
  let updated := Table.updateWhere s.outreachTasks taskId dispatching
    (failureWrite task error config)
  if updated.2 = 1 then
    if fitsString 1000 error then
      .ok ({ s with outreachTasks := updated.1 }.appendAuditEvent
        (dispatchFailed taskId task error config))
    else .error (.dataError "last_error")
  else .ok s

/-- Text of the missing adapter, `src/orchestrator/workers/dispatch.py:104–106`. -/
def noAdapterError (channel : OutreachChannel) : String :=
  "no adapter configured for channel: " ++ channel.value

/-- Settlement of one attempt with the outcome of its provider call,
`src/orchestrator/workers/dispatch.py:101–123`. -/
def settleAttempt (s : Store) (taskId : Nat) (task : OutreachTask) (outcome : SendOutcome)
    (config : PassConfig) : Except Failure Store :=
  match outcome with
  | .delivered result => .ok (recordSuccess s taskId task result config.workerId)
  | .raised error => recordFailure s taskId task error config

/-- A claim either hits a due row and commits it with its audit row, or changes nothing. -/
theorem claimTask_cases (s : Store) (taskId : Nat) (now : Int) (workerId : WorkerId) :
    (∃ t, s.outreachTasks[taskId]? = some t ∧ due now t = true ∧
      claimTask s taskId now workerId =
        ({ s with outreachTasks := s.outreachTasks.modify taskId claimWrite }.appendAuditEvent
          (dispatchStarted workerId taskId (claimWrite t)), some (claimWrite t))) ∨
      claimTask s taskId now workerId = (s, none) := by
  unfold claimTask
  rcases Table.updateWhere_cases s.outreachTasks taskId (due now) claimWrite with
    ⟨t, ht, hdue, hu⟩ | hu
  · refine Or.inl ⟨t, ht, hdue, ?_⟩
    simp [hu, ht]
  · exact Or.inr (by simp [hu])

/-- A settlement either hits a dispatching row and commits the outcome with its audit
row, or changes nothing. -/
theorem settleAttempt_cases {s s' : Store} {taskId : Nat} {task : OutreachTask}
    {outcome : SendOutcome} {config : PassConfig}
    (h : settleAttempt s taskId task outcome config = .ok s') :
    s' = s ∨ ∃ t, s.outreachTasks[taskId]? = some t ∧ t.status = .dispatching ∧
      ((∃ result, outcome = .delivered result ∧
          s' = { s with outreachTasks :=
              s.outreachTasks.modify taskId successWrite }.appendAuditEvent
            (dispatchSucceeded config.workerId taskId task result)) ∨
        (∃ error, outcome = .raised error ∧ fitsString 1000 error = true ∧
          s' = { s with outreachTasks :=
              s.outreachTasks.modify taskId (failureWrite task error config) }.appendAuditEvent
            (dispatchFailed taskId task error config))) := by
  cases outcome with
  | delivered result =>
    simp only [settleAttempt, recordSuccess, Except.ok.injEq] at h
    rcases Table.updateWhere_cases s.outreachTasks taskId dispatching successWrite with
      ⟨t, ht, hd, hu⟩ | hu
    · simp only [hu, ↓reduceIte] at h
      exact Or.inr ⟨t, ht, of_decide_eq_true hd, Or.inl ⟨result, rfl, h.symm⟩⟩
    · simp only [hu, Nat.zero_ne_one, ↓reduceIte] at h
      exact Or.inl h.symm
  | raised error =>
    simp only [settleAttempt, recordFailure] at h
    rcases Table.updateWhere_cases s.outreachTasks taskId dispatching
      (failureWrite task error config) with ⟨t, ht, hd, hu⟩ | hu
    · simp only [hu, ↓reduceIte] at h
      split at h
      · next hfit =>
        cases h
        exact Or.inr ⟨t, ht, of_decide_eq_true hd, Or.inr ⟨error, rfl, hfit, rfl⟩⟩
      · cases h
    · simp only [hu, Nat.zero_ne_one, ↓reduceIte, Except.ok.injEq] at h
      exact Or.inl h.symm

end Orchestrator.Workers
