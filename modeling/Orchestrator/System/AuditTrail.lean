import Orchestrator.System.Evolution

/-!
# The audit trail replays to the task state

Folding a task's committed audit rows over the status edges that they record gives the
task's status. Every write of a status commits one row with the status it replaced, so
the fold is carried from commit to commit.
-/

namespace Orchestrator.System

open Base Domain Orchestration Workers

/-- The status edge that an audit row of a task records. -/
def auditEdge (a : AuditEvent) : Option (OutreachTaskStatus × OutreachTaskStatus) :=
  match a.eventType with
  | .dispatchStarted => some (.scheduled, .dispatching)
  | .dispatchSucceeded => some (.dispatching, .sent)
  | .dispatchFailed => a.payload.finalStatus.map fun final => (.dispatching, final)
  | .outreachCancelled => some (.scheduled, .cancelled)
  | .deliveryResultRecorded => do
    let previous ← a.payload.previousStatus
    let new ← a.payload.newStatus
    some (previous, new)
  | _ => none

/-- One row of the fold, refused unless its source is the status reached so far. -/
def replayRow (status : OutreachTaskStatus) (a : AuditEvent) : Option OutreachTaskStatus :=
  (auditEdge a).bind fun edge => if edge.1 = status then some edge.2 else none

/-- The fold of a task's audit rows, in commit order and starting from scheduled. -/
def replayStatus (log : List AuditEvent) (taskId : Nat) : Option OutreachTaskStatus :=
  (taskRows log taskId).foldlM replayRow .scheduled

/-- Operations of the workers. -/
def Op.byWorker : Op → Bool
  | .startPass _ _ | .claim _ | .settle _ _ | .crash _ => true
  | .tick _ | .ingestEvent _ | .recordDeliveryResult _ _ _ | .cancelOutreach _ _ _ => false

/-- Every write records the edge that it takes. -/
theorem RowWrite.replays {taskId : Nat} {t t' : OutreachTask} {a : AuditEvent}
    (h : RowWrite taskId t t' a) : replayRow t.status a = some t'.status := by
  cases h with
  | claim now workerId hdue =>
    have hs := scheduled_of_due hdue
    simp [replayRow, auditEdge, dispatchStarted, claimWrite, hs]
  | success copy result workerId hd =>
    simp [replayRow, auditEdge, dispatchSucceeded, successWrite, hd]
  | failure copy error config hd =>
    simp [replayRow, auditEdge, dispatchFailed, failureWrite, hd]
  | manual body hallowed =>
    simp [replayRow, auditEdge, deliveryResultRecorded, manualWrite]
  | cancel hs _ htype =>
    simp [replayRow, auditEdge, htype, OutreachTask.cancel, hs]

/-- A task that was sent or has failed is only ever written by hand again. -/
theorem RowWrite.manual_of_ended {taskId : Nat} {t t' : OutreachTask} {a : AuditEvent}
    (h : RowWrite taskId t t' a) (hended : t.status = .sent ∨ t.status = .failed) :
    ∃ body, t' = manualWrite body t ∧ a = deliveryResultRecorded taskId t t.status body := by
  cases h with
  | claim now workerId hdue =>
    rcases hended with he | he <;> rw [scheduled_of_due hdue] at he <;> cases he
  | success _ _ _ hd => rcases hended with he | he <;> rw [hd] at he <;> cases he
  | failure _ _ _ hd => rcases hended with he | he <;> rw [hd] at he <;> cases he
  | manual body _ => exact ⟨body, rfl, rfl⟩
  | cancel hs _ _ => rcases hended with he | he <;> rw [hs] at he <;> cases he

/-- A task with a recorded manual result is sent or failed. -/
def HandSettled (rows : List AuditEvent) (t : OutreachTask) : Prop :=
  (∃ a ∈ rows, a.eventType = .deliveryResultRecorded) → t.status = .sent ∨ t.status = .failed

private theorem handSettled_write {k : Nat} {rows : List AuditEvent} {t t' : OutreachTask}
    {a : AuditEvent} (h : HandSettled rows t) (hw : RowWrite k t t' a) :
    HandSettled (rows ++ [a]) t' := by
  have hmanual (body : DeliveryResultRequest) (t : OutreachTask) :
      (manualWrite body t).status = .sent ∨ (manualWrite body t).status = .failed := by
    cases hb : body.status <;> simp [manualWrite, DeliveryStatus.toStatus, hb]
  rintro ⟨b, hb, htype⟩
  rcases List.mem_append.mp hb with hb | hb
  · obtain ⟨body, rfl, -⟩ := hw.manual_of_ended (h ⟨b, hb, htype⟩)
    exact hmanual body t
  · rw [List.mem_singleton.mp hb] at htype
    cases hw with
    | manual body _ => exact hmanual body t
    | claim => cases htype
    | success => cases htype
    | failure => cases htype
    | cancel _ _ hcancelled =>
      rw [hcancelled] at htype
      cases htype

/-- A worker leaves a sent or failed task as it is. -/
theorem step_worker_ended (rt : Runtime) {s : Sys} {op : Op} (hop : op.byWorker = true)
    {k : Nat} {t : OutreachTask} (ht : s.store.outreachTasks[k]? = some t)
    (hended : t.status = .sent ∨ t.status = .failed) :
    (step rt s op).store.outreachTasks[k]? = some t := by
  have hother {taskId : Nat} {old new : OutreachTask} {a : AuditEvent}
      (hrow : s.store.outreachTasks[taskId]? = some old)
      (hne : old.status ≠ .sent ∧ old.status ≠ .failed) :
      (writeRow s.store taskId new a).outreachTasks[k]? = some t := by
    have hk : taskId ≠ k := by
      rintro rfl
      obtain rfl : old = t := Option.some.inj (hrow.symm.trans ht)
      rcases hended with he | he
      · exact hne.1 he
      · exact hne.2 he
    simp [writeRow, hk, ht]
  have hstep := step_spec rt s op
  generalize step rt s op = s' at hstep ⊢
  cases hstep with
  | idle store _ _ => rwa [store]
  | claimed pass row hdue =>
    exact hother row (by simp [scheduled_of_due hdue])
  | settled pass row hd hs => exact hother row (by simp [hd])
  | ingested => cases hop
  | recorded => cases hop
  | operatorCancelled => cases hop

/-- In every reachable state the audit rows of a task replay to its status, and no
worker step changes a task with a recorded manual result. -/
theorem audit_trail_replays (rt : Runtime) (clock : Int) (ops : List Op) (taskId : Nat)
    (t : OutreachTask)
    (ht : (run (step rt) (start clock) ops).store.outreachTasks[taskId]? = some t) :
    let s := run (step rt) (start clock) ops
    replayStatus s.store.auditEvents taskId = some t.status ∧
      ((∃ a ∈ taskRows s.store.auditEvents taskId, a.eventType = .deliveryResultRecorded) →
        ∀ op : Op, op.byWorker = true → (step rt s op).store.outreachTasks[taskId]? = some t) := by
  intro s
  have hreplay : replayStatus s.store.auditEvents taskId = some t.status := by
    refine run_rows_law (P := fun _ rows t => rows.foldlM replayRow .scheduled =
      some t.status) ?_ ?_ clock ops ht
    · intros
      rfl
    · intro k rows t t' a h hw
      rw [List.foldlM_append, h]
      simpa using hw.replays
  have hsettled : HandSettled (taskRows s.store.auditEvents taskId) t :=
    run_rows_law (P := fun _ rows t => HandSettled rows t)
      (by rintro _ _ _ _ _ _ ⟨a, ha, -⟩; cases ha)
      (fun _ _ _ _ _ => handSettled_write) clock ops ht
  exact ⟨hreplay, fun hmanual op hop => step_worker_ended rt hop ht (hsettled hmanual)⟩

/-- The email in flight is marked sent by hand, and its worker then fails. -/
theorem audit_trail_replays_manual :
    let s := run (step demoRuntime) (start 0)
      (demoInFlight ++ [.recordDeliveryResult 0 .dispatching ⟨.sent, none, []⟩])
    replayStatus s.store.auditEvents 0 = some .sent ∧
      (step demoRuntime s (.settle 0 (.raised "timeout"))).store.outreachTasks[0]? =
        some { demoDispatching with status := .sent } := by
  have h := audit_trail_replays demoRuntime 0
    (demoInFlight ++ [.recordDeliveryResult 0 .dispatching ⟨.sent, none, []⟩]) 0
    { demoDispatching with status := .sent } (by decide +kernel)
  exact ⟨h.1, h.2 (by decide +kernel) _ rfl⟩

end Orchestrator.System
