import Orchestrator.Concurrency.StatusMachine

/-!
# Status, attempts and error text

What the columns of a task say about each other, whatever the workers, the operational
API, the planner and its event-driven cancellations interleave. The failing settlement
computes its values from a copy of the row that is as old as the claim; it is right
because no other writer of a dispatching row touches the columns that it copies.
-/

namespace Orchestrator.Concurrency

open Base Domain Orchestration Workers

/-- Tasks as planning leaves them, which have no error text either. -/
structure FreshTasks extends PlannedTasks where
  clean : ∀ t ∈ rows, t.lastError = none

/-- A failed attempt of a task, with its number, pass and error text. -/
structure FailedAttempt where
  taskId : Nat
  number : Nat
  config : PassConfig
  error : String
  deriving DecidableEq, Repr

/-- The failed attempt that a statement commits. -/
def failed (s : State) : Statement → List FailedAttempt
  | .commit w =>
    match s.sessions w with
    | .pass config _ (.settling taskId task (.raised error)) =>
      [⟨taskId, task.attemptCount, config, error⟩]
    | _ => []
  | _ => []

/-- The tasks that a statement commits as its planning pass has inserted them. -/
def inserted (s : State) : Statement → List OutreachTask
  | .commit w =>
    if (s.sessions w).committed.isSome then (s.db.txns w).filterMap Change.added else []
  | _ => []

/-- The last failed attempt of a task. -/
def lastFailure (failures : List FailedAttempt) (taskId : Nat) : Option FailedAttempt :=
  (failures.filter fun f => f.taskId = taskId).getLast?

/-- The columns of a task that was planned as `planned`. -/
structure Coherent (planned t : OutreachTask) : Prop where
  sent : t.status = .sent → t.lastError = none
  failed : t.status = .failed → t.lastError.isSome = true
  scheduled : t.status = .scheduled → (t.lastError.isSome = true ↔ 1 ≤ t.attemptCount)
  dispatching : t.status = .dispatching → 1 ≤ t.attemptCount
  unattempted : t.attemptCount = 0 → t.scheduledAt = planned.scheduledAt

/-- A task that waits for another attempt waits for its last failure's retry delay. -/
def Retried (failures : List FailedAttempt) (taskId : Nat) (t : OutreachTask) : Prop :=
  t.status = .scheduled → 1 ≤ t.attemptCount →
    ∃ f, lastFailure failures taskId = some f ∧ f.number = t.attemptCount ∧
      t.lastError = some f.error ∧ t.scheduledAt = f.config.now + f.config.retryDelay

/-! ### Single writes -/

/-- A new task is coherent. -/
theorem NewTask.coherent {t : OutreachTask} {a : AuditEvent} (h : NewTask t a) : Coherent t t := by
  cases h
  constructor <;> simp [taskRow]

/-- A failing manual result always leaves an error text. -/
theorem manualLastError_of_failed {body : DeliveryResultRequest} (h : body.status = .failed) :
    (manualLastError body).isSome = true := by
  simp only [manualLastError, h]
  split <;> rfl

/-- Every write keeps a task coherent. -/
theorem Coherent.write {planned t t' : OutreachTask} {k : Nat} {a : AuditEvent}
    (h : Coherent planned t) (hw : TaskWrite k t t' a) : Coherent planned t' := by
  cases hw with
  | claim now workerId hdue => constructor <;> simp [claimWrite]
  | settle config copy outcome hd copies =>
    have hpos := h.dispatching hd
    have hattempted (hzero : t.attemptCount = 0) : False := by omega
    cases outcome with
    | delivered result =>
      exact ⟨fun _ => rfl, by simp [settleWrite, successWrite],
        by simp [settleWrite, successWrite], by simp [settleWrite, successWrite],
        fun hzero => (hattempted hzero).elim⟩
    | raised error =>
      refine ⟨fun hs => ?_, fun _ => rfl, fun _ => ?_, fun hs => ?_,
        fun hzero => (hattempted hzero).elim⟩
      · simp only [settleWrite, failureWrite, finalStatus] at hs
        split at hs <;> cases hs
      · exact ⟨fun _ => hpos, fun _ => rfl⟩
      · exact hpos
  | close hw =>
    cases hw with
    | manual task body hs hallowed =>
      cases hb : body.status with
      | sent =>
        refine ⟨?_, ?_, ?_, ?_, h.unattempted⟩ <;>
          simp [manualWrite, DeliveryStatus.toStatus, manualLastError, hb]
      | failed =>
        have herror := manualLastError_of_failed hb
        refine ⟨?_, ?_, ?_, ?_, h.unattempted⟩ <;>
          simp [manualWrite, DeliveryStatus.toStatus, hb, herror]
    | operator | event =>
      refine ⟨?_, ?_, ?_, ?_, h.unattempted⟩ <;> simp [OutreachTask.cancel]

/-- The audit row of a settlement and the copy of the row tell what was written. -/
theorem TaskWrite.settled {k : Nat} {t t' task : OutreachTask} {config : PassConfig}
    {outcome : SendOutcome} (h : TaskWrite k t t' (settleRow config k task outcome))
    (hcopies : Copies task t) : t' = settleWrite config task outcome t := by
  generalize ha : settleRow config k task outcome = a at h
  cases h with
  | claim => cases outcome <;> simp [settleRow, dispatchSucceeded, dispatchFailed,
      dispatchStarted] at ha
  | settle config' copy outcome' _ copies =>
    have hscheduled : copy.scheduledAt = task.scheduledAt := copies.2.2.trans hcopies.2.2.symm
    cases outcome <;> cases outcome' <;>
      simp [settleRow, dispatchSucceeded, dispatchFailed] at ha
    · rfl
    · obtain ⟨-, -, herror, -, hretry, hfinal⟩ := ha
      simp [settleWrite, failureWrite, herror, hretry, hfinal, hscheduled]
  | close h => cases outcome <;> cases h <;> simp [settleRow, dispatchSucceeded, dispatchFailed,
      deliveryResultRecorded, operatorCancelledRow, cancelledRow, plannerAudit] at ha

/-- What the commit of a settlement publishes. -/
theorem Sound.settled {s : State} (h : Sound s.db s.sessions) {w k : Nat} {config : PassConfig}
    {queue : List Nat} {task : OutreachTask} {outcome : SendOutcome}
    (session : s.sessions w = .pass config queue (.settling k task outcome)) :
    ∃ t, s.db.rows[k]? = some t ∧ Copies task t ∧
      (s.db.commit w).rows = s.db.rows.set k (settleWrite config task outcome t) := by
  obtain ⟨-, u, hu, -, hcopies⟩ := h.attempts w k task (by rw [session]; rfl)
  have hg := h.grounded w
  have hfits := h.fits w
  generalize hc : s.db.txns w = cs at hg hfits
  rw [session] at hfits
  cases hfits with
  | quiet hquiet => cases hquiet
  | settling =>
    obtain ⟨t, row, hw⟩ := hg.head
    obtain rfl : t = u := Option.some.inj (row.symm.trans hu)
    refine ⟨t, row, hcopies, ?_⟩
    rw [Db.rows_commit, hc, ← hw.settled hcopies]
    rfl

/-! ### Commits -/

/-- The rows that a due commit leaves. -/
theorem rows_commit {s : State} {w : Nat} {p : Session} (h : (s.sessions w).committed = some p) :
    (step s (.commit w)).db.rows = (s.db.commit w).rows := by
  simp only [step, commit, h, State.execute]

/-- Every statement keeps the tasks coherent with what was planned so far. -/
theorem step_coherent (s : State) (planned : List OutreachTask) (st : Statement)
    (hs : Sound s.db s.sessions) (h : Descends Coherent planned s.db.rows) :
    Descends Coherent (planned ++ inserted s st) (step s st).db.rows := by
  rcases step_rows s st with ⟨w, p, rfl, hp⟩ | ⟨hrows, hdue⟩
  · have hinserted : inserted s (.commit w) = (s.db.txns w).filterMap Change.added := by
      simp [inserted, hp]
    rw [rows_commit hp, hinserted]
    exact (hs.grounded w).descends (fun _ _ _ _ _ hc hw => hc.write hw) (fun _ _ hn => hn.coherent)
      (fun _ _ hr => hr) h
  · have hinserted : inserted s st = [] := by
      cases st with
      | commit w => simp [inserted, hdue w rfl]
      | _ => rfl
    rwa [hrows, hinserted, List.append_nil]

private theorem lastFailure_concat (failures : List FailedAttempt) (f : FailedAttempt) (k : Nat) :
    lastFailure (failures ++ [f]) k =
      if f.taskId = k then some f else lastFailure failures k := by
  unfold lastFailure
  by_cases hk : f.taskId = k <;> simp [List.filter_append, hk]

/-- A row that waits for no attempt needs no failure. -/
private theorem Retried.of_status {failures : List FailedAttempt} {k : Nat} {t : OutreachTask}
    (h : t.status ≠ .scheduled) : Retried failures k t := fun hs => absurd hs h

/-- Every due commit keeps the retries at their last failures. -/
private theorem commit_retried {s : State} (hs : Sound s.db s.sessions)
    {failures : List FailedAttempt} {w : Nat} {p : Session}
    (hp : (s.sessions w).committed = some p)
    (h : ∀ (k : Nat) (t : OutreachTask), s.db.rows[k]? = some t → Retried failures k t) :
    ∀ (k : Nat) (t : OutreachTask), (s.db.commit w).rows[k]? = some t →
      Retried (failures ++ failed s (.commit w)) k t := by
  cases hs.publishes hp with
  | claim session _ row _ rows _ =>
    intro k t ht
    rw [rows] at ht
    have hnone : failed s (.commit w) = [] := by simp [failed, session]
    rw [hnone, List.append_nil]
    rcases row_set row ht with ⟨-, rfl⟩ | ⟨-, ht⟩
    · exact .of_status (by simp [claimWrite])
    · exact h k t ht
  | @settle config _ _ i task _ _ outcome session =>
    obtain ⟨u, row, hcopies, rows⟩ := hs.settled session
    intro k t ht
    rw [rows] at ht
    cases outcome with
    | delivered result =>
      have hnone : failed s (.commit w) = [] := by simp [failed, session]
      rw [hnone, List.append_nil]
      rcases row_set row ht with ⟨-, rfl⟩ | ⟨-, ht⟩
      · exact .of_status (by simp [settleWrite, successWrite])
      · exact h k t ht
    | raised error =>
      have hfailed : failed s (.commit w) = [⟨i, task.attemptCount, config, error⟩] := by
        simp [failed, session]
      rw [hfailed, Retried, lastFailure_concat]
      rcases row_set row ht with ⟨rfl, rfl⟩ | ⟨hk, ht⟩
      · intro hstatus _
        rw [if_pos rfl]
        refine ⟨_, rfl, hcopies.1, rfl, ?_⟩
        simp only [settleWrite, failureWrite, finalStatus] at hstatus
        split at hstatus
        · next hretry => simp [settleWrite, failureWrite, retryScheduledAt, hretry]
        · cases hstatus
      · rw [if_neg (Ne.symm hk)]
        exact h k t ht
  | close before _ grounded =>
    have hnone : failed s (.commit w) = [] := by
      simp only [failed]
      split
      · next session =>
        rw [session] at before
        cases before
      · rfl
    rw [hnone, List.append_nil]
    refine grounded.commit_induction (l := s.db.log)
      (P := fun rows _ => ∀ (k : Nat) (t : OutreachTask), rows[k]? = some t → Retried failures k t)
      ?_ ?_ (fun _ _ hr => hr) h
    · intro rows log i u u' a hrows hu hw k t ht
      rcases row_set hu ht with ⟨-, rfl⟩ | ⟨-, ht⟩
      · exact .of_status hw.closes.1
      · exact hrows k t ht
    · intro rows log u a hrows hn k t ht
      rw [List.getElem?_append] at ht
      split at ht
      · exact hrows k t ht
      · obtain rfl := List.mem_singleton.mp (List.mem_of_getElem? ht)
        cases hn
        intro _ hpos
        cases hpos

/-- Every statement keeps the retries at the last failures so far. -/
theorem step_retried (s : State) (failures : List FailedAttempt) (st : Statement)
    (hs : Sound s.db s.sessions)
    (h : ∀ (k : Nat) (t : OutreachTask), s.db.rows[k]? = some t → Retried failures k t) :
    ∀ (k : Nat) (t : OutreachTask), (step s st).db.rows[k]? = some t →
      Retried (failures ++ failed s st) k t := by
  rcases step_rows s st with ⟨w, p, rfl, hp⟩ | ⟨hrows, hdue⟩
  · rw [rows_commit hp]
    exact commit_retried hs hp h
  · have hnone : failed s st = [] := by
      cases st with
      | commit w =>
        have hw := hdue w rfl
        simp only [failed]
        split
        · next session =>
          rw [session] at hw
          cases hw
        · rfl
      | _ => rfl
    rwa [hrows, hnone, List.append_nil]

/-- In every interleaving the status, the attempts, the error text and the time of every
task agree with each other, with its planning pass and with its last failed attempt. -/
theorem tasks_coherent (planned : FreshTasks) (sts : List Statement) (k : Nat) (t : OutreachTask)
    (ht : (run step (start planned.toPlannedTasks) sts).db.rows[k]? = some t) :
    (∃ task, (planned.rows ++ collect step inserted (start planned.toPlannedTasks) sts)[k]? =
        some task ∧ Coherent task t) ∧
      Retried (collect step failed (start planned.toPlannedTasks) sts) k t := by
  have hstart := start_sound planned.toPlannedTasks
  have hfresh (i : Nat) (u : OutreachTask) (hu : planned.rows[i]? = some u) :
      u.status = .scheduled ∧ u.attemptCount = 0 ∧ u.lastError = none :=
    have hmem := List.mem_of_getElem? hu
    ⟨planned.scheduled u hmem, planned.unattempted u hmem, planned.clean u hmem⟩
  constructor
  · have hrun := collect_invariant (P := fun s rows => Sound s.db s.sessions ∧
      Descends Coherent rows s.db.rows) (fun s rows st hs => ⟨step_sound s st hs.1,
        step_coherent s rows st hs.1 hs.2⟩) (start planned.toPlannedTasks) planned.rows
      ⟨hstart, rfl, fun i u hu => ?_⟩ sts
    · exact hrun.2.row k t ht
    · obtain ⟨hs, hzero, hclean⟩ := hfresh i u hu
      refine ⟨u, hu, ?_⟩
      constructor <;> simp [hs, hzero, hclean]
  · have hrun := collect_invariant (P := fun s failures => Sound s.db s.sessions ∧
      ∀ (i : Nat) (u : OutreachTask), s.db.rows[i]? = some u → Retried failures i u)
      (fun s failures st hs => ⟨step_sound s st hs.1, step_retried s failures st hs.1 hs.2⟩)
      (start planned.toPlannedTasks) [] ⟨hstart, fun i u hu => ?_⟩ sts
    · exact hrun.2 k t ht
    · intro _ hpos
      have hzero := (hfresh i u hu).2.1
      omega

/-! ### A run on a small deployment -/

/-- A worker's first attempt at the planned email fails. -/
def demoFailure : List Statement :=
  demoPlanned ++ [.startPass 2 demoPass, .claim 2, .commit 2, .callProvider 2,
    .providerReturns 2 (.raised "timeout"), .settle 2, .commit 2]

/-- The email as the failure leaves it. -/
def demoRetrying : OutreachTask :=
  { System.demoDispatching with
    status := .scheduled
    scheduledAt := demoPass.now + demoPass.retryDelay
    lastError := some "timeout" }

/-- The email waits for its second attempt. -/
theorem tasks_coherent_demo :
    (∃ task, ([] ++ collect step inserted (start .none) demoFailure)[0]? = some task ∧
      Coherent task demoRetrying) ∧
      Retried (collect step failed (start .none) demoFailure) 0 demoRetrying :=
  tasks_coherent ⟨.none, by simp [PlannedTasks.none]⟩ demoFailure 0 demoRetrying (by decide +kernel)

end Orchestrator.Concurrency
