import Orchestrator.Base.Fallible
import Orchestrator.Models

/-!
# Operational outreach

`src/orchestrator/domain/operational_outreach.py`, run alone. A manual delivery result
is a compare-and-set against the status that the request had loaded; an operator
cancellation is a compare-and-set for each scheduled task of the account.
-/

namespace Orchestrator.Domain

open Base

/-- `DeliveryStatus`, `src/orchestrator/domain/operational_outreach.py:19`. -/
inductive DeliveryStatus where
  | sent
  | failed
  deriving DecidableEq, Repr

/-- `OutreachTaskStatus(status)`, `src/orchestrator/domain/operational_outreach.py:61`. -/
def DeliveryStatus.toStatus : DeliveryStatus → OutreachTaskStatus
  | .sent => .sent
  | .failed => .failed

/-- `ALLOWED_MANUAL_DELIVERY_SOURCE_STATUSES`,
`src/orchestrator/domain/operational_outreach.py:20–26`. -/
def allowedManualDeliverySourceStatus : OutreachTaskStatus → Bool
  | .scheduled | .dispatching | .failed => true
  | .blocked | .sent | .cancelled => false

/-- Body of a delivery-result request, `src/orchestrator/api/tasks.py:48–51`. -/
structure DeliveryResultRequest where
  status : DeliveryStatus
  providerMessageId : Option String
  details : JsonObject
  deriving DecidableEq, Repr

/-- `last_error` of a manual result, `src/orchestrator/domain/operational_outreach.py:62–68`. -/
def manualLastError (body : DeliveryResultRequest) : Option String :=
  match body.status with
  | .sent => none
  | .failed =>
    match body.details.lookup "error" with
    | some (.str error) => some error
    | _ => some "manual delivery result failed"

/-- What PostgreSQL raises for a text that `last_error` cannot hold,
`src/orchestrator/models.py:276`: it is too long, or holds U+0000. -/
def lastErrorRefused (lastError : Option String) : Option Failure :=
  if !fitsStringOption 1000 lastError then some (.dataError "last_error")
  else if !lastError.all nulFree then some (.characterNotInRepertoire "last_error")
  else none

/-- The manual write, `src/orchestrator/domain/operational_outreach.py:74`. -/
def manualWrite (body : DeliveryResultRequest) (t : OutreachTask) : OutreachTask :=
  { t with status := body.status.toStatus, lastError := manualLastError body }

/-- The audit row of a manual result,
`src/orchestrator/domain/operational_outreach.py:83–97`. -/
def deliveryResultRecorded (taskId : Nat) (task : OutreachTask)
    (previousStatus : OutreachTaskStatus) (body : DeliveryResultRequest) : AuditEvent where
  entityType := .outreachTask
  entityId := taskId
  eventType := .deliveryResultRecorded
  actorType := .apiClient
  actorId := some "operational-api"
  correlationId := task.correlationId
  payload := { providerMessageId := body.providerMessageId, details := some body.details,
               previousStatus := some previousStatus,
               newStatus := some body.status.toStatus }

/-- `record_manual_delivery_result`,
`src/orchestrator/domain/operational_outreach.py:47–104`. `previousStatus` is the status
that the request loaded, which need no longer be the stored one; the other columns that
the function reads from the loaded task never change. PostgreSQL refuses U+0000 before it looks
for the row; a request that misses its row changes nothing either way. -/
def recordManualDeliveryResult (s : Store) (taskId : Nat)
    (previousStatus : OutreachTaskStatus) (body : DeliveryResultRequest) :
    Except Failure Store :=
  if allowedManualDeliverySourceStatus previousStatus then
    match s.outreachTasks[taskId]? with
    | none => .error (.taskStateConflict "Task status changed before delivery result update")
    | some task =>
      let updated := Table.updateWhere s.outreachTasks taskId
        (fun t => t.status = previousStatus) (manualWrite body)
      if updated.2 = 1 then
        match lastErrorRefused (manualLastError body) with
        | none => .ok ({ s with outreachTasks := updated.1 }.appendAuditEvent
            (deliveryResultRecorded taskId task previousStatus body))
        | some e => .error e
      else .error (.taskStateConflict "Task status changed before delivery result update")
  else .error (.taskStateConflict "Task status does not allow manual delivery result")

/-- The condition of the operator's cancelling update,
`src/orchestrator/domain/operational_outreach.py:131`. -/
def scheduled (t : OutreachTask) : Bool := t.status = .scheduled

/-- The tasks that an operator request selects,
`src/orchestrator/domain/operational_outreach.py:114–124`. Its order by `created_at` and
`id` is the insertion order. -/
def operatorCancellable (accountId : Nat) (t : OutreachTask) : Bool :=
  t.accountId = accountId && scheduled t

/-- The audit row of an operator cancellation,
`src/orchestrator/domain/operational_outreach.py:139–153`. -/
def operatorCancelledRow (account : Account) (reason : String) (correlationId : Nat)
    (task : OutreachTask × Nat) : AuditEvent where
  entityType := .outreachTask
  entityId := task.2
  eventType := .outreachCancelled
  actorType := .apiClient
  actorId := some "operational-api"
  correlationId := correlationId
  payload := { reason := some reason, accountExternalId := some account.externalId,
               channel := some task.1.channel, cancelledBy := some "operational_api" }

/-- One iteration of the operator's loop, which counts and audits a task only when its
update hit the row, `src/orchestrator/domain/operational_outreach.py:127–153`. -/
def operatorCancelTask (row : OutreachTask × Nat → AuditEvent) (acc : Store × Nat)
    (task : OutreachTask × Nat) : Store × Nat :=
  let updated := Table.updateWhere acc.1.outreachTasks task.2 scheduled OutreachTask.cancel
  if updated.2 = 1 then
    ({ acc.1 with outreachTasks := updated.1 }.appendAuditEvent (row task), acc.2 + 1)
  else acc

/-- `cancel_scheduled_account_outreach`,
`src/orchestrator/domain/operational_outreach.py:107–154`. -/
def cancelScheduledAccountOutreach (s : Store) (accountId : Nat) (account : Account)
    (reason : String) (correlationId : Nat) : Store × Nat :=
  (Table.select (operatorCancellable accountId) s.outreachTasks).foldl
    (operatorCancelTask (operatorCancelledRow account reason correlationId)) (s, 0)

/-- The cancel-outreach route, `src/orchestrator/api/accounts.py:36–61`: an unknown
account is a 404 and changes nothing. -/
def cancelAccountOutreach (s : Store) (accountExternalId reason : String)
    (correlationId : Nat) : Option (Store × Nat) := do
  let accountId ← s.accountByExternalId accountExternalId
  let account ← s.accounts[accountId]?
  some (cancelScheduledAccountOutreach s accountId account reason correlationId)

/-- A text is refused for its length or for a U+0000 in it. -/
theorem lastErrorRefused_eq_none {lastError : Option String} : lastErrorRefused lastError = none ↔
    fitsStringOption 1000 lastError = true ∧ lastError.all nulFree = true := by
  unfold lastErrorRefused
  cases fitsStringOption 1000 lastError <;> cases lastError.all nulFree <;> simp

/-- A refused text raises one of two errors. -/
theorem lastErrorRefused_eq_some {lastError : Option String} {e : Failure}
    (h : lastErrorRefused lastError = some e) :
    e = .dataError "last_error" ∨ e = .characterNotInRepertoire "last_error" := by
  unfold lastErrorRefused at h
  split at h
  · exact Or.inl (Option.some.inj h).symm
  · split at h
    · exact Or.inr (Option.some.inj h).symm
    · cases h

/-- A committed manual result replaced the status that the request had loaded. -/
theorem recordManualDeliveryResult_ok {s s' : Store} {taskId : Nat}
    {previousStatus : OutreachTaskStatus} {body : DeliveryResultRequest}
    (h : recordManualDeliveryResult s taskId previousStatus body = .ok s') :
    ∃ t, s.outreachTasks[taskId]? = some t ∧ t.status = previousStatus ∧
      allowedManualDeliverySourceStatus t.status = true ∧
      s' = { s with outreachTasks :=
          s.outreachTasks.modify taskId (manualWrite body) }.appendAuditEvent
        (deliveryResultRecorded taskId t t.status body) := by
  unfold recordManualDeliveryResult at h
  split at h
  · next hallowed =>
    cases ht : s.outreachTasks[taskId]? with
    | none => simp [ht] at h
    | some t =>
      simp only [ht] at h
      rcases Table.updateWhere_cases s.outreachTasks taskId
        (fun t => t.status = previousStatus) (manualWrite body) with ⟨r, hr, hp, hu⟩ | hu
      · obtain rfl : t = r := by
          rw [ht] at hr
          exact Option.some.inj hr
        have hp : t.status = previousStatus := of_decide_eq_true hp
        simp only [hu, ↓reduceIte] at h
        split at h
        · cases h
          exact ⟨t, rfl, hp, by rw [hp]; exact hallowed, by rw [hp]⟩
        · cases h
      · simp [hu] at h
  · cases h

/-- An operator cancels scheduled tasks only. -/
theorem operatorCancellable_scheduled (accountId : Nat) {t : OutreachTask}
    (h : operatorCancellable accountId t = true) : t.status = .scheduled := by
  simp only [operatorCancellable, scheduled, Bool.and_eq_true, decide_eq_true_eq] at h
  exact h.2

private theorem foldl_operatorCancelTask (row : OutreachTask × Nat → AuditEvent)
    (tasks : List (OutreachTask × Nat)) (acc : Store × Nat)
    (hkeys : (tasks.map Prod.snd).Nodup)
    (hsel : ∀ x ∈ tasks, ∃ t, acc.1.outreachTasks[x.2]? = some t ∧ scheduled t = true) :
    tasks.foldl (operatorCancelTask row) acc = ({ acc.1 with
      outreachTasks :=
        Table.updateEach acc.1.outreachTasks (tasks.map Prod.snd) OutreachTask.cancel
      auditEvents := acc.1.auditEvents ++ tasks.map row }, acc.2 + tasks.length) := by
  induction tasks generalizing acc with
  | nil => simp [Table.updateEach]
  | cons x tasks ih =>
    rw [List.map_cons, List.nodup_cons] at hkeys
    obtain ⟨t, ht, hp⟩ := hsel x List.mem_cons_self
    have hhit : operatorCancelTask row acc x = ({ acc.1 with
        outreachTasks := acc.1.outreachTasks.modify x.2 OutreachTask.cancel }.appendAuditEvent
          (row x), acc.2 + 1) := by
      simp [operatorCancelTask, Table.updateWhere, ht, hp]
    have hrest : ∀ y ∈ tasks, ∃ t, (operatorCancelTask row acc x).1.outreachTasks[y.2]? = some t ∧
        scheduled t = true := by
      intro y hy
      have hne : x.2 ≠ y.2 := by
        intro he
        exact hkeys.1 (he ▸ List.mem_map_of_mem hy)
      obtain ⟨u, hu, hq⟩ := hsel y (List.mem_cons_of_mem x hy)
      exact ⟨u, by simp [hhit, hne, hu], hq⟩
    rw [List.foldl_cons, ih _ hkeys.2 hrest, hhit]
    simp [Table.updateEach, Nat.add_comm, Nat.add_left_comm]

/-- An operator request that runs alone cancels every scheduled task of the account and
appends one row for each, and its count is the number of both. -/
theorem cancelScheduledAccountOutreach_eq (s : Store) (accountId : Nat) (account : Account)
    (reason : String) (correlationId : Nat) :
    cancelScheduledAccountOutreach s accountId account reason correlationId = ({ s with
      outreachTasks := s.outreachTasks.map
        (OutreachTask.cancelWhere (operatorCancellable accountId))
      auditEvents := s.auditEvents ++ (Table.select (operatorCancellable accountId)
        s.outreachTasks).map (operatorCancelledRow account reason correlationId) },
      s.outreachTasks.countP (operatorCancellable accountId)) := by
  rw [cancelScheduledAccountOutreach, foldl_operatorCancelTask]
  · simp only [Table.updateEach_select, Table.length_select, Nat.zero_add]
    rfl
  · exact Table.nodup_keys_select _ _
  · rintro ⟨t, k⟩ hx
    obtain ⟨ht, hp⟩ := Table.mem_select.mp hx
    rw [operatorCancellable, Bool.and_eq_true] at hp
    exact ⟨t, ht, hp.2⟩

/-- A cancel-outreach request for a stored account. -/
theorem cancelAccountOutreach_eq_some {s s' : Store} {accountExternalId reason : String}
    {correlationId n : Nat}
    (h : cancelAccountOutreach s accountExternalId reason correlationId = some (s', n)) :
    ∃ accountId account, s.accountByExternalId accountExternalId = some accountId ∧
      s.accounts[accountId]? = some account ∧
      (s', n) = cancelScheduledAccountOutreach s accountId account reason correlationId := by
  obtain ⟨accountId, hid, h⟩ := Option.bind_eq_some_iff.mp h
  obtain ⟨account, hrow, h⟩ := Option.bind_eq_some_iff.mp h
  exact ⟨accountId, account, hid, hrow, (Option.some.inj h).symm⟩

end Orchestrator.Domain
