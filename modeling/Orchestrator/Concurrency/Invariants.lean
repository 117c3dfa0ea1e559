import Mathlib.Tactic.Common
import Orchestrator.Concurrency.Sessions

/-!
# Invariants of the sessions

What holds of the committed tasks and of every session in memory, under any
interleaving: uncommitted writes are writes of the committed rows, the
`dispatch_started` rows of a task number its attempts, and an unsettled attempt has one
owner, whose copy of the row still agrees with it in the columns that settling reads.
-/

namespace Orchestrator.Concurrency

open Base Domain Orchestration Workers

/-- The columns that a settlement reads from its copy of the row. -/
def Copies (copy t : OutreachTask) : Prop :=
  copy.attemptCount = t.attemptCount ∧ copy.maxAttempts = t.maxAttempts ∧
    copy.scheduledAt = t.scheduledAt

/-- The writes that end a task without a claim: manual results and cancellations. -/
inductive ClosingWrite (taskId : Nat) : OutreachTask → OutreachTask → AuditEvent → Prop where
  | manual {t : OutreachTask} (task : OutreachTask) (body : DeliveryResultRequest)
      (hs : t.status = task.status) (h : allowedManualDeliverySourceStatus t.status = true) :
      ClosingWrite taskId t (manualWrite body t)
        (deliveryResultRecorded taskId task task.status body)
  | operator {t : OutreachTask} (account : Account) (reason : String) (correlationId : Nat)
      (task : OutreachTask) (h : t.status = .scheduled) :
      ClosingWrite taskId t t.cancel
        (operatorCancelledRow account reason correlationId (task, taskId))
  | event {t : OutreachTask} (ctx : EventContext) (task : OutreachTask) :
      ClosingWrite taskId t t.cancel (cancelledRow ctx (task, taskId))

/-- Every write of a task row, with its audit row. The event-driven cancellation has no
condition on the row that it replaces. -/
inductive TaskWrite (taskId : Nat) : OutreachTask → OutreachTask → AuditEvent → Prop where
  | claim {t : OutreachTask} (now : Int) (workerId : WorkerId) (h : due now t = true) :
      TaskWrite taskId t (claimWrite t) (dispatchStarted workerId taskId (claimWrite t))
  | settle {t : OutreachTask} (config : PassConfig) (copy : OutreachTask) (outcome : SendOutcome)
      (h : t.status = .dispatching) (copies : Copies copy t) :
      TaskWrite taskId t (settleWrite config copy outcome t)
        (settleRow config taskId copy outcome)
  | close {t t' : OutreachTask} {a : AuditEvent} (h : ClosingWrite taskId t t' a) :
      TaskWrite taskId t t' a

/-- Every insert of a task row, with its audit row. -/
inductive NewTask : OutreachTask → AuditEvent → Prop where
  | intro (ctx : EventContext) (channel : OutreachChannel) (policyDecisionId : Nat)
      (instant clock : Int) (scheduledAt : Datetime) :
      NewTask (taskRow ctx channel policyDecisionId instant clock)
        (taskScheduledRow ctx channel scheduledAt)

/-- A session without uncommitted changes. A manual request has passed its status check. -/
def Session.quiet : Session → Bool
  | .idle | .returned _ | .pass _ _ .ready | .pass _ _ (.claimed _ _)
  | .pass _ _ (.sending _ _) | .pass _ _ (.sent _ _ _) => true
  | .manual _ task _ => allowedManualDeliverySourceStatus task.status
  | _ => false

/-- The uncommitted changes that a session can have. -/
inductive Fits : Session → List (Change OutreachTask AuditEvent) → Prop where
  | quiet {p : Session} (h : p.quiet = true) : Fits p []
  | claiming {config : PassConfig} {queue : List Nat} {taskId : Nat} {task : OutreachTask} :
      Fits (.pass config queue (.claiming taskId task))
        [.write taskId task (dispatchStarted config.workerId taskId task)]
  | settling {config : PassConfig} {queue : List Nat} {taskId : Nat} {task t' : OutreachTask}
      {outcome : SendOutcome} :
      Fits (.pass config queue (.settling taskId task outcome))
        [.write taskId t' (settleRow config taskId task outcome)]
  | planning {ctx : EventContext} {cs : List (Change OutreachTask AuditEvent)}
      (h : ∀ c ∈ cs, c.key = none) : Fits (.planning ctx) cs
  | cancelling {ctx : EventContext} {tasks : List (OutreachTask × Nat)} {count : Nat}
      {cs : List (Change OutreachTask AuditEvent)}
      (h : ∀ c ∈ cs, c.entry.eventType = .outreachCancelled) : Fits (.cancelling ctx tasks count) cs
  | operator {account : Account} {reason : String} {correlationId count : Nat}
      {tasks : List (OutreachTask × Nat)} {cs : List (Change OutreachTask AuditEvent)}
      (h : ∀ c ∈ cs, c.entry.eventType = .outreachCancelled) :
      Fits (.operator account reason correlationId tasks count) cs
  | recorded {taskId : Nat} {t' task : OutreachTask} {status : OutreachTaskStatus}
      {body : DeliveryResultRequest} :
      Fits (.recorded taskId)
        [.write taskId t' (deliveryResultRecorded taskId task status body)]

theorem quiet_of_free {p : Session} (h : p.free = true) : p.quiet = true := by
  unfold Session.free at h
  split at h <;> first | rfl | cases h

/-- A quiet session has nothing to commit. -/
theorem Fits.eq_nil {p : Session} {cs : List (Change OutreachTask AuditEvent)} (h : Fits p cs)
    (hp : p.quiet = true) : cs = [] := by
  cases h with
  | quiet => rfl
  | _ => cases hp

/-- The status check of a manual request. -/
theorem Fits.manual {k : Nat} {task : OutreachTask} {body : DeliveryResultRequest}
    {cs : List (Change OutreachTask AuditEvent)} (h : Fits (.manual k task body) cs) :
    cs = [] ∧ allowedManualDeliverySourceStatus task.status = true := by
  cases h with
  | quiet h => exact ⟨rfl, h⟩

private theorem Fits.inserts {ctx : EventContext} {cs : List (Change OutreachTask AuditEvent)}
    (h : Fits (.planning ctx) cs) : ∀ c ∈ cs, c.key = none := by
  cases h with
  | quiet h => cases h
  | planning h => exact h

private theorem Fits.cancels {ctx : EventContext} {tasks : List (OutreachTask × Nat)}
    {count : Nat} {cs : List (Change OutreachTask AuditEvent)}
    (h : Fits (.cancelling ctx tasks count) cs) :
    ∀ c ∈ cs, c.entry.eventType = .outreachCancelled := by
  cases h with
  | quiet h => cases h
  | cancelling h => exact h

private theorem Fits.operatorCancels {account : Account} {reason : String}
    {correlationId count : Nat} {tasks : List (OutreachTask × Nat)}
    {cs : List (Change OutreachTask AuditEvent)}
    (h : Fits (.operator account reason correlationId tasks count) cs) :
    ∀ c ∈ cs, c.entry.eventType = .outreachCancelled := by
  cases h with
  | quiet h => cases h
  | operator h => exact h

private theorem forall_mem_concat {α : Type} {P : α → Prop} {l : List α} {x : α}
    (h : ∀ y ∈ l, P y) (hx : P x) : ∀ y ∈ l ++ [x], P y := by
  intro y hy
  rcases List.mem_append.mp hy with hy | hy
  · exact h y hy
  · exact List.mem_singleton.mp hy ▸ hx

/-- `dispatch_started` rows of a task. -/
def started (taskId : Nat) (a : AuditEvent) : Bool :=
  a.entityType = .outreachTask && a.entityId = taskId && a.eventType = .dispatchStarted

/-- The attempt numbers that the `dispatch_started` rows of a task carry. -/
def attemptNumbers (log : List AuditEvent) (taskId : Nat) : List (Option Nat) :=
  (log.filter (started taskId)).map fun a => a.payload.attemptCount

/-- Stored `attempt_count`, zero for a task that is not stored. -/
def attemptCount (rows : List OutreachTask) (taskId : Nat) : Nat :=
  (rows[taskId]?).elim 0 OutreachTask.attemptCount

/-- The rows of a task number its attempts, and its attempts are bounded. -/
structure Counted (rows : List OutreachTask) (log : List AuditEvent) : Prop where
  numbers : ∀ k, attemptNumbers log k = (List.range' 1 (attemptCount rows k)).map some
  bounded : ∀ (k : Nat) (t : OutreachTask), rows[k]? = some t → t.attemptCount ≤ t.maxAttempts
  retryable : ∀ (k : Nat) (t : OutreachTask), rows[k]? = some t → t.status = .scheduled →
    t.attemptCount < t.maxAttempts

/-- The row of an unsettled attempt. -/
def Attempted (rows : List OutreachTask) (taskId : Nat) (copy : OutreachTask) : Prop :=
  1 ≤ copy.attemptCount ∧
    ∃ t, rows[taskId]? = some t ∧ t.status ≠ .scheduled ∧ Copies copy t

/-- The invariant of the database and the sessions. -/
structure Sound (db : Db OutreachTask AuditEvent) (sessions : Nat → Session) : Prop where
  grounded : db.Grounded TaskWrite NewTask
  fits : ∀ w, Fits (sessions w) (db.txns w)
  counted : Counted db.rows db.log
  attempts : ∀ w k copy, (sessions w).attempt = some (k, copy) → Attempted db.rows k copy
  unique : ∀ v w k copy copy', (sessions v).attempt = some (k, copy) →
    (sessions w).attempt = some (k, copy') → v = w

/-! ### Single writes -/

/-- A closing write keeps the columns of an attempt and leaves no scheduled or
dispatching row. -/
theorem ClosingWrite.closes {taskId : Nat} {t t' : OutreachTask} {a : AuditEvent}
    (h : ClosingWrite taskId t t' a) :
    t'.status ≠ .scheduled ∧ t'.status ≠ .dispatching ∧ Copies t t' ∧
      started taskId a = false := by
  cases h with
  | manual task body _ _ =>
    refine ⟨?_, ?_, ⟨rfl, rfl, rfl⟩, by simp [started, deliveryResultRecorded]⟩
    · cases hb : body.status <;> simp [manualWrite, DeliveryStatus.toStatus, hb]
    · cases hb : body.status <;> simp [manualWrite, DeliveryStatus.toStatus, hb]
  | operator | event =>
    exact ⟨by simp [OutreachTask.cancel], by simp [OutreachTask.cancel], ⟨rfl, rfl, rfl⟩, by
      simp [started, operatorCancelledRow, cancelledRow, plannerAudit]⟩

/-- Every audit row of a write is a row of its own task. -/
theorem TaskWrite.entity {taskId : Nat} {t t' : OutreachTask} {a : AuditEvent}
    (h : TaskWrite taskId t t' a) : a.entityType = .outreachTask ∧ a.entityId = taskId := by
  cases h with
  | claim => exact ⟨rfl, rfl⟩
  | settle config copy outcome _ _ => cases outcome <;> exact ⟨rfl, rfl⟩
  | close h => cases h <;> exact ⟨rfl, rfl⟩

private theorem started_other {taskId k : Nat} {a : AuditEvent} (h : a.entityId = taskId)
    (hk : k ≠ taskId) : started k a = false := by
  simp [started, h, Ne.symm hk]

/-- Settling keeps the counters, and a task that it reschedules has an attempt left. -/
theorem settleWrite_cases (config : PassConfig) {copy t : OutreachTask} (outcome : SendOutcome)
    (copies : Copies copy t) :
    (settleWrite config copy outcome t).attemptCount = t.attemptCount ∧
      (settleWrite config copy outcome t).maxAttempts = t.maxAttempts ∧
      ((settleWrite config copy outcome t).status = .scheduled →
        t.attemptCount < t.maxAttempts ∧ ∃ error, outcome = .raised error) := by
  cases outcome with
  | delivered result => exact ⟨rfl, rfl, by simp [settleWrite, successWrite]⟩
  | raised error =>
    refine ⟨rfl, rfl, fun hs => ⟨?_, error, rfl⟩⟩
    simp only [settleWrite, failureWrite, finalStatus] at hs
    split at hs
    · next hr =>
      rw [← copies.1, ← copies.2.1]
      exact of_decide_eq_true hr
    · cases hs

/-- What a write does to the counters and to its task's `dispatch_started` rows. -/
theorem TaskWrite.counters {taskId : Nat} {t t' : OutreachTask} {a : AuditEvent}
    (h : TaskWrite taskId t t' a) :
    t'.maxAttempts = t.maxAttempts ∧
      ((t.status = .scheduled ∧ t'.attemptCount = t.attemptCount + 1 ∧
          t'.status = .dispatching ∧ started taskId a = true ∧
          a.payload.attemptCount = some (t.attemptCount + 1)) ∨
        (t'.attemptCount = t.attemptCount ∧ started taskId a = false ∧
          (t'.status = .scheduled → t.attemptCount < t.maxAttempts))) := by
  cases h with
  | claim now workerId hdue =>
    have hs := scheduled_of_due hdue
    exact ⟨rfl, Or.inl ⟨hs, rfl, rfl, by simp [started, dispatchStarted], rfl⟩⟩
  | settle config copy outcome _ copies =>
    obtain ⟨hcount, hmax, hretry⟩ := settleWrite_cases config outcome copies
    refine ⟨hmax, Or.inr ⟨hcount, ?_, fun hs => (hretry hs).1⟩⟩
    cases outcome <;> simp [started, settleRow, dispatchSucceeded, dispatchFailed]
  | close h =>
    obtain ⟨hs, -, copies, hstarted⟩ := h.closes
    exact ⟨copies.2.1.symm, Or.inr ⟨copies.1.symm, hstarted, fun h' => absurd h' hs⟩⟩

@[simp] theorem attemptNumbers_concat (log : List AuditEvent) (a : AuditEvent) (k : Nat) :
    attemptNumbers (log ++ [a]) k =
      attemptNumbers log k ++ if started k a then [a.payload.attemptCount] else [] := by
  unfold attemptNumbers
  by_cases h : started k a = true <;> simp [List.filter_append, h]

theorem attemptCount_of_row {rows : List OutreachTask} {k : Nat} {t : OutreachTask}
    (h : rows[k]? = some t) : attemptCount rows k = t.attemptCount := by
  rw [attemptCount, h, Option.elim_some]

theorem attemptCount_set {rows : List OutreachTask} {k : Nat} {t t' : OutreachTask}
    (h : rows[k]? = some t) (i : Nat) :
    attemptCount (rows.set k t') i = if i = k then t'.attemptCount else attemptCount rows i := by
  by_cases hi : i = k
  · subst hi
    have hlt := (List.getElem?_eq_some_iff.mp h).1
    simp [attemptCount, hlt]
  · simp [attemptCount, hi, Ne.symm hi]

/-- A row of an updated table is the new version or another row. -/
theorem row_set {rows : List OutreachTask} {k i : Nat} {t t' u : OutreachTask}
    (h : rows[k]? = some t) (hi : (rows.set k t')[i]? = some u) :
    i = k ∧ u = t' ∨ i ≠ k ∧ rows[i]? = some u := by
  by_cases hik : i = k
  · subst hik
    rw [List.getElem?_set_self (List.getElem?_eq_some_iff.mp h).1] at hi
    exact Or.inl ⟨rfl, (Option.some.inj hi).symm⟩
  · rw [List.getElem?_set_ne (Ne.symm hik)] at hi
    exact Or.inr ⟨hik, hi⟩

/-- Every single write keeps the attempts counted. -/
theorem Counted.write {rows : List OutreachTask} {log : List AuditEvent} {k : Nat}
    {t t' : OutreachTask} {a : AuditEvent} (h : Counted rows log) (row : rows[k]? = some t)
    (hw : TaskWrite k t t' a) : Counted (rows.set k t') (log ++ [a]) := by
  obtain ⟨hmax, hcases⟩ := hw.counters
  have hbound := h.bounded k t row
  refine ⟨fun i => ?_, fun i u hu => ?_, fun i u hu hs => ?_⟩
  · rw [attemptNumbers_concat, h.numbers, attemptCount_set row]
    by_cases hi : i = k
    · subst hi
      rw [attemptCount_of_row row, ite_cond_eq_true _ _ (eq_self i)]
      rcases hcases with ⟨-, hcount, -, hstarted, hnumber⟩ | ⟨hcount, hstarted, -⟩
      · rw [hcount, hstarted, hnumber, List.range'_concat]
        simp [Nat.add_comm]
      · simp [hcount, hstarted]
    · simp [hi, started_other hw.entity.2 hi]
  · rcases row_set row hu with ⟨-, rfl⟩ | ⟨-, hu⟩
    · rcases hcases with ⟨hs, hcount, -⟩ | ⟨hcount, -⟩
      · have hlt := h.retryable k t row hs
        omega
      · omega
    · exact h.bounded i u hu
  · rcases row_set row hu with ⟨-, rfl⟩ | ⟨-, hu⟩
    · rcases hcases with ⟨-, -, hd, -⟩ | ⟨hcount, -, hretry⟩
      · rw [hd] at hs
        cases hs
      · have hlt := hretry hs
        omega
    · exact h.retryable i u hu hs

/-- A row without attempts counts like no row. -/
theorem attemptCount_append (rows : List OutreachTask) {t : OutreachTask}
    (ht : t.attemptCount = 0) (i : Nat) : attemptCount (rows ++ [t]) i = attemptCount rows i := by
  unfold attemptCount
  by_cases hi : i < rows.length
  · rw [List.getElem?_append_left hi]
  · rw [List.getElem?_eq_none (by omega : rows.length ≤ i), List.getElem?_append_right (by omega)]
    cases hz : [t][i - rows.length]? with
    | none => rfl
    | some u =>
      obtain rfl := List.mem_singleton.mp (List.mem_of_getElem? hz)
      exact ht

/-- A new task has no attempts. -/
theorem Counted.insert {rows : List OutreachTask} {log : List AuditEvent} {t : OutreachTask}
    {a : AuditEvent} (h : Counted rows log) (hn : NewTask t a) :
    Counted (rows ++ [t]) (log ++ [a]) := by
  have hnew : t.attemptCount = 0 ∧ t.attemptCount < t.maxAttempts := by
    cases hn
    exact ⟨rfl, by simp [taskRow]⟩
  have hrow : ∀ (i : Nat) (u : OutreachTask), (rows ++ [t])[i]? = some u →
      rows[i]? = some u ∨ u = t := by
    intro i u hu
    rw [List.getElem?_append] at hu
    split at hu
    · exact Or.inl hu
    · exact Or.inr (List.mem_singleton.mp (List.mem_of_getElem? hu))
  refine ⟨fun i => ?_, fun i u hu => ?_, fun i u hu hs => ?_⟩
  · have hstarted : started i a = false := by
      cases hn
      simp [started, taskScheduledRow, plannerAudit]
    have hcount := attemptCount_append rows hnew.1 i
    simp [hstarted, hcount, h.numbers]
  · rcases hrow i u hu with hu | rfl
    · exact h.bounded i u hu
    · omega
  · rcases hrow i u hu with hu | rfl
    · exact h.retryable i u hu hs
    · exact hnew.2

/-! ### Commits -/

/-- What a commit publishes: one claim, one settlement, or closing writes and new tasks. -/
inductive Publishes (s : State) (w : Nat) (p : Session) : Prop where
  | claim {config : PassConfig} {queue : List Nat} {k : Nat} {t : OutreachTask}
      (session : s.sessions w = .pass config queue (.claiming k (claimWrite t)))
      (next : p = .pass config queue (.claimed k (claimWrite t)))
      (row : s.db.rows[k]? = some t) (hs : t.status = .scheduled)
      (rows : (s.db.commit w).rows = s.db.rows.set k (claimWrite t))
      (log : (s.db.commit w).log =
        s.db.log ++ [dispatchStarted config.workerId k (claimWrite t)])
  | settle {config config' : PassConfig} {queue : List Nat} {k : Nat}
      {task t copy : OutreachTask} {outcome : SendOutcome}
      (session : s.sessions w = .pass config queue (.settling k task outcome))
      (next : p = .pass config queue .ready) (row : s.db.rows[k]? = some t)
      (hd : t.status = .dispatching) (copies : Copies copy t)
      (rows : (s.db.commit w).rows = s.db.rows.set k (settleWrite config' copy outcome t))
      (log : (s.db.commit w).log = s.db.log ++ [settleRow config k task outcome])
  | close (before : (s.sessions w).attempt = none) (after : p = .idle ∨ ∃ n, p = .returned n)
      (grounded : Grounded ClosingWrite NewTask (fun k => s.db.rows[k]?) (s.db.txns w))

private theorem dispatchStarted_inv {k : Nat} {t t' task : OutreachTask} {workerId : WorkerId}
    (h : TaskWrite k t t' (dispatchStarted workerId k task)) :
    t' = claimWrite t ∧ t.status = .scheduled := by
  generalize ha : dispatchStarted workerId k task = a at h
  cases h with
  | claim now _ hdue =>
    exact ⟨rfl, scheduled_of_due hdue⟩
  | settle _ _ outcome => cases outcome <;> simp [dispatchStarted, settleRow, dispatchSucceeded,
      dispatchFailed] at ha
  | close h => cases h <;> simp [dispatchStarted, deliveryResultRecorded, operatorCancelledRow,
      cancelledRow, plannerAudit] at ha

private theorem settleRow_inv {k : Nat} {t t' task : OutreachTask} {config : PassConfig}
    {outcome : SendOutcome} (h : TaskWrite k t t' (settleRow config k task outcome)) :
    t.status = .dispatching ∧ ∃ config' copy, Copies copy t ∧
      t' = settleWrite config' copy outcome t := by
  generalize ha : settleRow config k task outcome = a at h
  cases h with
  | claim => cases outcome <;> simp [settleRow, dispatchSucceeded, dispatchFailed,
      dispatchStarted] at ha
  | settle config' copy outcome' hd copies =>
    have ho : settleWrite config' copy outcome' t = settleWrite config' copy outcome t := by
      cases outcome <;> cases outcome' <;>
        simp [settleRow, dispatchSucceeded, dispatchFailed, settleWrite] at ha ⊢
      rw [ha.2.2.1]
    exact ⟨hd, config', copy, copies, ho⟩
  | close h => cases outcome <;> cases h <;> simp [settleRow, dispatchSucceeded, dispatchFailed,
      deliveryResultRecorded, operatorCancelledRow, cancelledRow, plannerAudit] at ha

private theorem TaskWrite.closing {k : Nat} {t t' : OutreachTask} {a : AuditEvent}
    (h : TaskWrite k t t' a)
    (ha : a.eventType = .outreachCancelled ∨ a.eventType = .deliveryResultRecorded) :
    ClosingWrite k t t' a := by
  cases h with
  | claim => simp [dispatchStarted] at ha
  | settle _ _ outcome => cases outcome <;> simp [settleRow, dispatchSucceeded,
      dispatchFailed] at ha
  | close h => exact h

/-- Every commit publishes one of these. -/
theorem Sound.publishes {s : State} (h : Sound s.db s.sessions) {w : Nat} {p : Session}
    (hp : (s.sessions w).committed = some p) : Publishes s w p := by
  have hg := h.grounded w
  have hfits := h.fits w
  generalize hc : s.db.txns w = cs at hg hfits
  generalize hsession : s.sessions w = session at hp hfits
  cases hfits with
  | quiet hquiet =>
    have hnone : session.committed = none := by
      unfold Session.quiet at hquiet
      split at hquiet <;> first | rfl | cases hquiet
    rw [hnone] at hp
    cases hp
  | @claiming config queue k task =>
    cases hp
    obtain ⟨t, row, hw⟩ := hg.head
    obtain ⟨rfl, hs⟩ := dispatchStarted_inv hw
    exact .claim hsession rfl row hs (by simp [hc, Change.rows]) (by simp [hc, Change.entry])
  | @settling config queue k task t' outcome =>
    cases hp
    obtain ⟨t, row, hw⟩ := hg.head
    obtain ⟨hd, config', copy, copies, rfl⟩ := settleRow_inv hw
    have hrows : (s.db.commit w).rows = s.db.rows.set k (settleWrite config' copy outcome t) := by
      simp [hc, Change.rows]
    exact .settle hsession rfl row hd copies hrows (by simp [hc, Change.entry])
  | planning hkeys =>
    cases hp
    refine .close (by rw [hsession]; rfl) (Or.inl rfl) (hc ▸ hg.strengthen hkeys ?_ ?_)
    · intro k r r' e _ hkey
      cases hkey
    · exact fun _ _ hn _ => hn
  | @cancelling _ tasks _ _ hevents =>
    cases tasks with
    | nil =>
      cases hp
      refine .close (by rw [hsession]; rfl) (Or.inr ⟨_, rfl⟩) (hc ▸ hg.strengthen hevents ?_ ?_)
      · exact fun _ _ _ _ hw he => hw.closing (Or.inl he)
      · exact fun _ _ hn _ => hn
    | cons => cases hp
  | @operator _ _ _ _ tasks _ hevents =>
    cases tasks with
    | nil =>
      cases hp
      refine .close (by rw [hsession]; rfl) (Or.inr ⟨_, rfl⟩) (hc ▸ hg.strengthen hevents ?_ ?_)
      · exact fun _ _ _ _ hw he => hw.closing (Or.inl he)
      · exact fun _ _ hn _ => hn
    | cons => cases hp
  | @recorded _ _ task status body =>
    cases hp
    obtain ⟨t, row, hw⟩ := hg.head
    have hclose : Grounded ClosingWrite NewTask (fun k => s.db.rows[k]?) _ :=
      .write row (hw.closing (Or.inr rfl)) .nil
    exact .close (by rw [hsession]; rfl) (Or.inl rfl) (hc ▸ hclose)

/-! ### Preservation -/

/-- Only a commit that is due changes the committed rows. -/
theorem step_rows (s : State) (st : Statement) :
    (∃ w p, st = .commit w ∧ (s.sessions w).committed = some p) ∨
      ((step s st).db.rows = s.db.rows ∧
        ∀ w, st = .commit w → (s.sessions w).committed = none) := by
  by_cases hdue : ∃ w p, st = .commit w ∧ (s.sessions w).committed = some p
  · exact Or.inl hdue
  · refine Or.inr ⟨?_, fun w hw => Option.eq_none_iff_forall_ne_some.mpr fun p hp =>
      hdue ⟨w, p, hw, hp⟩⟩
    have hstep := step_spec s st
    generalize step s st = s' at hstep
    cases hstep with
    | committed session => exact absurd ⟨_, _, rfl, session⟩ hdue
    | _ => rfl

/-- A statement that commits nothing keeps the invariant if the session that moves keeps
its attempt or has none. -/
theorem Sound.move {db db' : Db OutreachTask AuditEvent} {sessions : Nat → Session} {w : Nat}
    {p : Session} (h : Sound db sessions) (hrows : db'.rows = db.rows) (hlog : db'.log = db.log)
    (hg : db'.Grounded TaskWrite NewTask) (htxns : ∀ v, v ≠ w → db'.txns v = db.txns v)
    (hfits : Fits p (db'.txns w)) (hp : p.attempt = none ∨ p.attempt = (sessions w).attempt) :
    Sound db' (Function.update sessions w p) := by
  have hattempt : ∀ v a, (Function.update sessions w p v).attempt = some a →
      (sessions v).attempt = some a := by
    intro v a ha
    by_cases hv : v = w
    · subst hv
      rw [Function.update_self] at ha
      rcases hp with hp | hp
      · rw [hp] at ha
        cases ha
      · rw [← hp, ha]
    · rwa [Function.update_of_ne hv] at ha
  refine ⟨hg, fun v => ?_, by rw [hrows, hlog]; exact h.counted, fun v k copy ha => ?_,
    fun v v' k copy copy' ha ha' => ?_⟩
  · by_cases hv : v = w
    · subst hv
      rwa [Function.update_self]
    · rw [Function.update_of_ne hv, htxns v hv]
      exact h.fits v
  · rw [hrows]
    exact h.attempts v k copy (hattempt v _ ha)
  · exact h.unique v v' k copy copy' (hattempt v _ ha) (hattempt v' _ ha')

private theorem update_txns_of_ne {db db' : Db OutreachTask AuditEvent} {w : Nat}
    {cs : List (Change OutreachTask AuditEvent)} (h : db'.txns = Function.update db.txns w cs) :
    ∀ v, v ≠ w → db'.txns v = db.txns v := by
  intro v hv
  rw [h, Function.update_of_ne hv]

/-- A session outside the database moves on. -/
theorem Sound.become {db : Db OutreachTask AuditEvent} {sessions : Nat → Session} {w : Nat}
    {p : Session} (h : Sound db sessions) (hfits : Fits p (db.txns w))
    (hp : p.attempt = none ∨ p.attempt = (sessions w).attempt) :
    Sound db (Function.update sessions w p) :=
  h.move rfl rfl h.grounded (fun _ _ => rfl) hfits hp

/-- A session rolls back. -/
theorem Sound.rollback {db : Db OutreachTask AuditEvent} {sessions : Nat → Session} {w : Nat}
    {p : Session} (h : Sound db sessions)
    (hclean : p = .idle ∨ ∃ config queue, p = .pass config queue .ready) :
    Sound (db.rollback w) (Function.update sessions w p) := by
  refine h.move rfl rfl (h.grounded.rollback w) (update_txns_of_ne rfl) ?_ ?_
  · rw [Db.txns_rollback, Function.update_self]
    rcases hclean with rfl | ⟨config, queue, rfl⟩ <;> exact .quiet rfl
  · rcases hclean with rfl | ⟨config, queue, rfl⟩ <;> exact Or.inl rfl

/-- A session writes a row. -/
theorem Sound.write {db : Db OutreachTask AuditEvent} {sessions : Nat → Session} {w k : Nat}
    {p : Session} {t t' : OutreachTask} {a : AuditEvent} (h : Sound db sessions)
    (row : db.view w k = some t) (hw : TaskWrite k t t' a) (free : db.free w k = true)
    (hfits : Fits p (db.txns w ++ [.write k t' a]))
    (hp : p.attempt = none ∨ p.attempt = (sessions w).attempt) :
    Sound (db.write w k t' a free) (Function.update sessions w p) := by
  refine h.move rfl rfl (h.grounded.write row hw free) (update_txns_of_ne rfl) ?_ hp
  rwa [Db.txns_write, Function.update_self]

/-- A session adds a row. -/
theorem Sound.insert {db : Db OutreachTask AuditEvent} {sessions : Nat → Session} {w : Nat}
    {p : Session} {t : OutreachTask} {a : AuditEvent} (h : Sound db sessions) (hn : NewTask t a)
    (hfits : Fits p (db.txns w ++ [.insert t a]))
    (hp : p.attempt = none ∨ p.attempt = (sessions w).attempt) :
    Sound (db.insert w t a) (Function.update sessions w p) := by
  refine h.move rfl rfl (h.grounded.insert w hn) (update_txns_of_ne rfl) ?_ hp
  rwa [Db.txns_insert, Function.update_self]

/-- Closing writes of other sessions keep an attempt. -/
private theorem Attempted.close {db : Db OutreachTask AuditEvent} {w k : Nat}
    {copy : OutreachTask} (h : Attempted db.rows k copy)
    (hg : Grounded ClosingWrite NewTask (fun k => db.rows[k]?) (db.txns w)) :
    Attempted (db.commit w).rows k copy := by
  refine hg.commit_induction (P := fun rows _ => Attempted rows k copy) (l := db.log) ?_ ?_
    (fun _ _ hr => hr) h
  · rintro rows log i t t' a ⟨hpos, u, hu, hs, hcopy⟩ ht hw
    refine ⟨hpos, ?_⟩
    by_cases hi : k = i
    · subst hi
      obtain rfl : t = u := Option.some.inj (ht.symm.trans hu)
      obtain ⟨hs', -, ⟨h₁, h₂, h₃⟩, -⟩ := hw.closes
      have hlt := (List.getElem?_eq_some_iff.mp ht).1
      exact ⟨t', List.getElem?_set_self hlt, hs', hcopy.1.trans h₁, hcopy.2.1.trans h₂,
        hcopy.2.2.trans h₃⟩
    · exact ⟨u, by rw [List.getElem?_set_ne (Ne.symm hi)]; exact hu, hs, hcopy⟩
  · rintro rows log t a ⟨hpos, u, hu, hs, hcopy⟩ -
    refine ⟨hpos, u, ?_, hs, hcopy⟩
    rw [List.getElem?_append_left (List.getElem?_eq_some_iff.mp hu).1]
    exact hu

/-- The write of another task keeps an attempt. -/
private theorem Attempted.set {rows : List OutreachTask} {k i : Nat} {copy t' : OutreachTask}
    (h : Attempted rows k copy) (hi : k ≠ i) : Attempted (rows.set i t') k copy := by
  obtain ⟨hpos, u, hu, hs, hcopy⟩ := h
  exact ⟨hpos, u, by rw [List.getElem?_set_ne (Ne.symm hi)]; exact hu, hs, hcopy⟩

/-- Every commit keeps the attempts counted. -/
theorem Sound.commit_counted {db : Db OutreachTask AuditEvent} {sessions : Nat → Session}
    (h : Sound db sessions) (w : Nat) : Counted (db.commit w).rows (db.commit w).log :=
  h.grounded.commit_induction w (fun _ _ _ _ _ _ hc row hw => hc.write row hw)
    (fun _ _ _ _ hc hn => hc.insert hn) h.counted

private theorem fits_committed {q p : Session} (h : q.committed = some p) : Fits p [] := by
  cases q with
  | pass config queue phase =>
    cases phase <;> cases h <;> exact .quiet rfl
  | cancelling _ tasks => cases tasks <;> cases h; exact .quiet rfl
  | operator _ _ _ tasks => cases tasks <;> cases h; exact .quiet rfl
  | planning | recorded => cases h; exact .quiet rfl
  | idle | manual | returned => cases h

/-- A session that comes out of a commit with an attempt has claimed a scheduled task. -/
theorem Publishes.claimed {s : State} {w : Nat} {p : Session} (h : Publishes s w p) {k : Nat}
    {copy : OutreachTask} (ha : p.attempt = some (k, copy)) :
    ∃ t, s.db.rows[k]? = some t ∧ t.status = .scheduled := by
  cases h with
  | claim _ next row hs _ _ =>
    subst next
    cases ha
    exact ⟨_, row, hs⟩
  | settle _ next _ _ _ _ _ =>
    subst next
    cases ha
  | close _ after _ => rcases after with rfl | ⟨n, rfl⟩ <;> cases ha

/-- Every commit keeps the invariant. -/
theorem Sound.commit {s : State} (h : Sound s.db s.sessions) {w : Nat} {p : Session}
    (hp : (s.sessions w).committed = some p) :
    Sound (s.db.commit w) (Function.update s.sessions w p) := by
  have hothers : ∀ v k copy, (Function.update s.sessions w p v).attempt = some (k, copy) →
      v = w ∨ v ≠ w ∧ (s.sessions v).attempt = some (k, copy) := by
    intro v k copy ha
    by_cases hv : v = w
    · exact Or.inl hv
    · rw [Function.update_of_ne hv] at ha
      exact Or.inr ⟨hv, ha⟩
  have hfits : ∀ v, Fits (Function.update s.sessions w p v) ((s.db.commit w).txns v) := by
    intro v
    rw [Db.txns_commit]
    by_cases hv : v = w
    · subst hv
      rw [Function.update_self, Function.update_self]
      exact fits_committed hp
    · rw [Function.update_of_ne hv, Function.update_of_ne hv]
      exact h.fits v
  refine ⟨h.grounded.commit w, hfits, h.commit_counted w, fun v k copy ha => ?_,
    fun v v' k copy copy' ha ha' => ?_⟩
  · cases h.publishes hp with
    | @claim config queue i t session next row hs rows log =>
      rw [rows]
      rcases hothers v k copy ha with rfl | ⟨-, ha⟩
      · rw [Function.update_self, next] at ha
        cases ha
        have hlt := (List.getElem?_eq_some_iff.mp row).1
        exact ⟨Nat.le_add_left 1 _, _, List.getElem?_set_self hlt, by simp [claimWrite],
          rfl, rfl, rfl⟩
      · have hattempted := h.attempts v k copy ha
        apply hattempted.set
        rintro rfl
        obtain ⟨-, u, hu, hs', -⟩ := hattempted
        obtain rfl : t = u := Option.some.inj (row.symm.trans hu)
        exact hs' hs
    | @settle config config' queue i task t copy' outcome session next row hd copies rows log =>
      rw [rows]
      rcases hothers v k copy ha with rfl | ⟨hv, ha⟩
      · rw [Function.update_self, next] at ha
        cases ha
      · apply (h.attempts v k copy ha).set
        rintro rfl
        exact hv (h.unique v w k copy task ha (by rw [session]; rfl))
    | close before after grounded =>
      rcases hothers v k copy ha with rfl | ⟨-, ha⟩
      · rw [Function.update_self] at ha
        rcases after with rfl | ⟨n, rfl⟩ <;> cases ha
      · exact (h.attempts v k copy ha).close grounded
  · have hfresh : ∀ {v k copy copy'}, (s.sessions v).attempt = some (k, copy) →
        p.attempt = some (k, copy') → False := by
      intro v k copy copy' ha ha'
      obtain ⟨-, t, ht, hs, -⟩ := h.attempts v k copy ha
      obtain ⟨u, hu, hs'⟩ := (h.publishes hp).claimed ha'
      obtain rfl : t = u := Option.some.inj (ht.symm.trans hu)
      exact hs hs'
    rcases hothers v k copy ha with rfl | ⟨-, hold⟩
    · rcases hothers v' k copy' ha' with rfl | ⟨-, hold'⟩
      · rfl
      · rw [Function.update_self] at ha
        exact (hfresh hold' ha).elim
    · rcases hothers v' k copy' ha' with rfl | ⟨-, hold'⟩
      · rw [Function.update_self] at ha'
        exact (hfresh hold ha').elim
      · exact h.unique v v' k copy copy' hold hold'

/-- Every statement keeps the invariant. -/
theorem step_sound (s : State) (st : Statement) (h : Sound s.db s.sessions) :
    Sound (step s st).db (step s st).sessions := by
  have hstep := step_spec s st
  generalize step s st = s' at hstep
  have hquiet : ∀ {w : Nat} {p : Session}, s.sessions w = p → p.quiet = true →
      s.db.txns w = [] := by
    rintro w _ rfl hq
    exact (h.fits w).eq_nil hq
  cases hstep with
  | idle => exact h
  | @started _ w p free opening =>
    have htxns : s.db.txns w = [] := by
      exact (h.fits w).eq_nil (quiet_of_free free)
    apply h.become _ (Or.inl (by cases opening <;> rfl))
    rw [htxns]
    cases opening with
    | pass | manual => exact .quiet (by first | rfl | assumption)
    | planning => exact .planning (by simp)
    | cancelling => exact .cancelling (by simp)
    | operator => exact .operator (by simp)
  | dropped clean => exact h.rollback clean
  | @claiming w taskId config queue t session row hdue free =>
    apply h.write row (.claim config.now config.workerId hdue) free _ (Or.inl rfl)
    rw [hquiet session rfl]
    exact .claiming
  | @called w taskId config queue task session =>
    apply h.become _ (Or.inr (by rw [session]; rfl))
    rw [hquiet session rfl]
    exact .quiet rfl
  | @delivered w taskId config queue task result session =>
    apply h.become _ (Or.inr (by rw [session]; rfl))
    rw [hquiet session rfl]
    exact .quiet rfl
  | @raised _ w taskId config queue task error session =>
    have htxns : s.db.txns w = [] := by
      rcases session with session | session <;> exact hquiet session rfl
    apply h.become _ (Or.inr (by rcases session with session | session <;> rw [session] <;> rfl))
    rw [htxns]
    exact .quiet rfl
  | @settling w taskId config queue task t outcome session row hd free =>
    have htxns := hquiet session rfl
    obtain ⟨-, u, hu, -, copies⟩ := h.attempts w taskId task (by rw [session]; rfl)
    rw [Db.view_of_txns_eq_nil htxns] at row
    obtain rfl : t = u := Option.some.inj (row.symm.trans hu)
    apply h.write (by rw [Db.view_of_txns_eq_nil htxns]; exact row)
      (.settle config task outcome hd copies) free _ (Or.inr (by rw [session]; rfl))
    rw [htxns]
    exact .settling
  | @inserted w ctx channel policyDecisionId scheduledAt instant clock session hinstant =>
    have hfits := h.fits w
    rw [session] at hfits
    apply h.insert ⟨ctx, channel, policyDecisionId, instant, clock, scheduledAt⟩ _ (Or.inl rfl)
    exact .planning (forall_mem_concat hfits.inserts rfl)
  | @eventCancelled w count ctx task tasks t session row free =>
    have hfits := h.fits w
    rw [session] at hfits
    apply h.write row (.close (.event ctx task.1)) free _ (Or.inl rfl)
    exact .cancelling (forall_mem_concat hfits.cancels rfl)
  | @operatorCancelled w count correlationId account reason task tasks t session row hs free =>
    have hfits := h.fits w
    rw [session] at hfits
    apply h.write row (.close (.operator account reason correlationId task.1 hs)) free _
      (Or.inl rfl)
    exact .operator (forall_mem_concat hfits.operatorCancels rfl)
  | @operatorSkipped w count correlationId account reason task tasks session =>
    have hfits := h.fits w
    rw [session] at hfits
    exact h.become (.operator hfits.operatorCancels) (Or.inl rfl)
  | @recorded w taskId task t body session row hs free =>
    have hfits := h.fits w
    rw [session] at hfits
    obtain ⟨htxns, hallowed⟩ := hfits.manual
    apply h.write row (.close (.manual task body hs (hs ▸ hallowed))) free _ (Or.inl rfl)
    rw [htxns]
    exact .recorded
  | @committed w p session => exact h.commit session

/-- The invariant holds before the first statement. -/
theorem start_sound (planned : PlannedTasks) :
    Sound (start planned).db (start planned).sessions where
  grounded := Db.grounded_ofRows planned.rows
  fits := fun _ => .quiet rfl
  counted := by
    have hzero (k : Nat) (t : OutreachTask) (ht : planned.rows[k]? = some t) : t.attemptCount = 0 :=
      planned.unattempted t (List.mem_of_getElem? ht)
    refine ⟨fun k => ?_, fun k t ht => ?_, fun k t ht _ => ?_⟩
    · have hcount : attemptCount planned.rows k = 0 := by
        rw [attemptCount]
        cases ht : planned.rows[k]? with
        | none => rfl
        | some t => exact hzero k t ht
      show attemptNumbers [] k = (List.range' 1 (attemptCount planned.rows k)).map some
      rw [hcount]
      rfl
    · have hcount := hzero k t ht
      omega
    · have hcount := hzero k t ht
      have hmax := planned.attemptable t (List.mem_of_getElem? ht)
      omega
  attempts := by simp [start, Session.attempt]
  unique := by simp [start, Session.attempt]

/-- The invariant holds in every reachable state. -/
theorem run_sound (planned : PlannedTasks) (sts : List Statement) :
    Sound (run step (start planned) sts).db (run step (start planned) sts).sessions :=
  @run_invariant _ _ step (fun s => Sound s.db s.sessions) step_sound (start planned)
    (start_sound planned) sts

end Orchestrator.Concurrency
