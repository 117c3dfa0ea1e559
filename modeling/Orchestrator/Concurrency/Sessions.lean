import Orchestrator.Base.RowLocks
import Orchestrator.Base.Run
import Orchestrator.Domain.OperationalOutreach
import Orchestrator.Orchestration.Planner
import Orchestrator.Workers.Dispatch

/-!
# Database sessions

The writers of `outreach_tasks` statement by statement, in any number and any order.
A statement is a `SELECT` of committed rows, one `UPDATE` or `INSERT` with the audit row
of the same iteration, a provider call, or a `COMMIT`. A session that crashes, or that
the database aborts, loses its uncommitted changes. Ingestion's statements on other
tables neither read nor lock task rows and are left out, as are the values that the
planner computes from them: any account, customer and event may be planned or cancelled
for, and any task row may be inserted that `_plan_policy_event` can build.
-/

namespace Orchestrator.Concurrency

open Base Domain Orchestration Workers

/-- Where `dispatch_due_tasks` is within one iteration,
`src/orchestrator/workers/dispatch.py:64–123`. -/
inductive WorkerPhase where
  | ready
  | claiming (taskId : Nat) (task : OutreachTask)
  | claimed (taskId : Nat) (task : OutreachTask)
  | sending (taskId : Nat) (task : OutreachTask)
  | sent (taskId : Nat) (task : OutreachTask) (outcome : SendOutcome)
  | settling (taskId : Nat) (task : OutreachTask) (outcome : SendOutcome)
  deriving DecidableEq, Repr

/-- What a session is executing and what it holds in memory. -/
inductive Session where
  | idle
  | pass (config : PassConfig) (queue : List Nat) (phase : WorkerPhase)
  | planning (ctx : EventContext)
  | cancelling (ctx : EventContext) (tasks : List (OutreachTask × Nat)) (count : Nat)
  | operator (account : Account) (reason : String) (correlationId : Nat)
      (tasks : List (OutreachTask × Nat)) (count : Nat)
  | manual (taskId : Nat) (task : OutreachTask) (body : DeliveryResultRequest)
  | recorded (taskId : Nat)
  | returned (count : Nat)

/-- A session that may start another call. -/
def Session.free : Session → Bool
  | .idle | .returned _ | .pass _ [] .ready => true
  | _ => false

/-- The database, every session, and the provider calls: their tasks and attempt
numbers, in call order, and those that returned a result. -/
structure State where
  db : Db OutreachTask AuditEvent
  sessions : Nat → Session
  calls : List (Nat × Nat)
  deliveries : List (Nat × Nat)

/-- Tasks as planning leaves them. -/
structure PlannedTasks where
  rows : List OutreachTask
  scheduled : ∀ t ∈ rows, t.status = .scheduled
  unattempted : ∀ t ∈ rows, t.attemptCount = 0
  attemptable : ∀ t ∈ rows, 1 ≤ t.maxAttempts

/-- No tasks. -/
def PlannedTasks.none : PlannedTasks := ⟨[], by simp, by simp, by simp⟩

/-- Committed tasks of earlier planning passes, and no sessions. -/
def start (planned : PlannedTasks) : State := ⟨.ofRows planned.rows, fun _ => .idle, [], []⟩

namespace State

/-- The committed tasks and audit rows as tables of a store. -/
def store (s : State) : Store :=
  { Store.empty with outreachTasks := s.db.rows, auditEvents := s.db.log }

/-- One session moves on. -/
def become (s : State) (w : Nat) (p : Session) : State :=
  { s with sessions := Function.update s.sessions w p }

/-- One session moves on with the effect of its statement. -/
def execute (s : State) (w : Nat) (db : Db OutreachTask AuditEvent) (p : Session) : State :=
  { s with db := db, sessions := Function.update s.sessions w p }

end State

/-- Statements. -/
inductive Statement where
  | startPass (w : Nat) (config : PassConfig)
  | claim (w : Nat)
  | callProvider (w : Nat)
  | providerReturns (w : Nat) (outcome : SendOutcome)
  | noAdapter (w : Nat)
  | settle (w : Nat)
  | startPlanning (w : Nat) (ctx : EventContext)
  | insertTask (w : Nat) (channel : OutreachChannel) (policyDecisionId : Nat)
      (scheduledAt : Datetime) (clock : Int)
  | startCancelling (w : Nat) (ctx : EventContext)
  | startOperator (w accountId : Nat) (account : Account) (reason : String) (correlationId : Nat)
  | cancelNext (w : Nat)
  | loadTask (w taskId : Nat) (body : DeliveryResultRequest)
  | writeResult (w : Nat)
  | commit (w : Nat)
  | crash (w : Nat)

/-- A free session starts a call. -/
def startCall (s : State) (w : Nat) (p : Session) : State :=
  if (s.sessions w).free then s.become w p else s

/-- The claiming update, the refreshed copy and the `dispatch_started` row,
`src/orchestrator/workers/dispatch.py:65–97`. -/
def claim (s : State) (w : Nat) : State :=
  match s.sessions w with
  | .pass config (taskId :: queue) .ready =>
    match s.db.update w taskId (due config.now) claimWrite
        (fun t => dispatchStarted config.workerId taskId (claimWrite t)) with
    | .waits => s
    | .misses => s.execute w (s.db.rollback w) (.pass config queue .ready)
    | .hits t db => s.execute w db (.pass config queue (.claiming taskId (claimWrite t)))
  | _ => s

/-- `adapter.send(task)` begins, `src/orchestrator/workers/dispatch.py:107`. -/
def callProvider (s : State) (w : Nat) : State :=
  match s.sessions w with
  | .pass config queue (.claimed taskId task) =>
    { s.become w (.pass config queue (.sending taskId task)) with
      calls := s.calls ++ [(taskId, task.attemptCount)] }
  | _ => s

/-- `adapter.send(task)` returns or raises. -/
def providerReturns (s : State) (w : Nat) (outcome : SendOutcome) : State :=
  match s.sessions w, outcome with
  | .pass config queue (.sending taskId task), .delivered result =>
    { s.become w (.pass config queue (.sent taskId task (.delivered result))) with
      deliveries := s.deliveries ++ [(taskId, task.attemptCount)] }
  | .pass config queue (.sending taskId task), .raised error =>
    s.become w (.pass config queue (.sent taskId task (.raised error)))
  | _, _ => s

/-- A channel without adapter fails the attempt without a provider call. -/
def noAdapter (s : State) (w : Nat) : State :=
  match s.sessions w with
  | .pass config queue (.claimed taskId task) =>
    s.become w (.pass config queue (.sent taskId task (.raised (noAdapterError task.channel))))
  | _ => s

/-- The row that a settlement writes. -/
def settleWrite (config : PassConfig) (task : OutreachTask) :
    SendOutcome → OutreachTask → OutreachTask
  | .delivered _ => successWrite
  | .raised error => failureWrite task error config

/-- The audit row of a settlement. -/
def settleRow (config : PassConfig) (taskId : Nat) (task : OutreachTask) : SendOutcome → AuditEvent
  | .delivered result => dispatchSucceeded config.workerId taskId task result
  | .raised error => dispatchFailed taskId task error config

/-- An outcome whose error text fits its column. -/
def outcomeFits : SendOutcome → Bool
  | .delivered _ => true
  | .raised error => fitsString 1000 error

/-- The settling update and its audit row,
`src/orchestrator/workers/dispatch.py:128–209`. A refused error text ends the pass. -/
def settle (s : State) (w : Nat) : State :=
  match s.sessions w with
  | .pass config queue (.sent taskId task outcome) =>
    match s.db.update w taskId dispatching (settleWrite config task outcome)
        (fun _ => settleRow config taskId task outcome) with
    | .waits => s
    | .misses => s.execute w (s.db.rollback w) (.pass config queue .ready)
    | .hits _ db =>
      if outcomeFits outcome then
        s.execute w db (.pass config queue (.settling taskId task outcome))
      else s.execute w (s.db.rollback w) .idle
  | _ => s

/-- The insert of one task and its audit row,
`src/orchestrator/orchestration/planner.py:297–323`. -/
def insertTask (s : State) (w : Nat) (channel : OutreachChannel) (policyDecisionId : Nat)
    (scheduledAt : Datetime) (clock : Int) : State :=
  match s.sessions w, scheduledAt.timestamptz with
  | .planning ctx, some instant =>
    s.execute w (s.db.insert w (taskRow ctx channel policyDecisionId instant clock)
      (taskScheduledRow ctx channel scheduledAt)) (.planning ctx)
  | _, _ => s

/-- The update of the next selected task and its audit row: by primary key alone in
`src/orchestrator/orchestration/planner.py:382–395`, conditional in
`src/orchestrator/domain/operational_outreach.py:127–153`. -/
def cancelNext (s : State) (w : Nat) : State :=
  match s.sessions w with
  | .cancelling ctx (task :: tasks) count =>
    match s.db.update w task.2 (fun _ => true) OutreachTask.cancel
        (fun _ => cancelledRow ctx task) with
    | .waits => s
    | .misses => s.execute w (s.db.rollback w) .idle
    | .hits _ db => s.execute w db (.cancelling ctx tasks count)
  | .operator account reason correlationId (task :: tasks) count =>
    match s.db.update w task.2 scheduled OutreachTask.cancel
        (fun _ => operatorCancelledRow account reason correlationId task) with
    | .waits => s
    | .misses => s.become w (.operator account reason correlationId tasks count)
    | .hits _ db => s.execute w db (.operator account reason correlationId tasks (count + 1))
  | _ => s

/-- The load and the status check of a manual result,
`src/orchestrator/api/tasks.py:126–140` and
`src/orchestrator/domain/operational_outreach.py:55–59`. -/
def loadTask (s : State) (w taskId : Nat) (body : DeliveryResultRequest) : State :=
  match s.db.rows[taskId]? with
  | some task =>
    if allowedManualDeliverySourceStatus task.status then startCall s w (.manual taskId task body)
    else s
  | none => s

/-- The compare-and-set of a manual result and its audit row,
`src/orchestrator/domain/operational_outreach.py:70–97`. -/
def writeResult (s : State) (w : Nat) : State :=
  match s.sessions w with
  | .manual taskId task body =>
    match s.db.update w taskId (fun t => t.status = task.status) (manualWrite body)
        (fun _ => deliveryResultRecorded taskId task task.status body) with
    | .waits => s
    | .misses => s.execute w (s.db.rollback w) .idle
    | .hits _ db =>
      if (lastErrorRefused (manualLastError body)).isNone then
        s.execute w db (.recorded taskId)
      else s.execute w (s.db.rollback w) .idle
  | _ => s

/-- The session after its `COMMIT`, when that is its next statement. -/
def Session.committed : Session → Option Session
  | .pass config queue (.claiming taskId task) => some (.pass config queue (.claimed taskId task))
  | .pass config queue (.settling _ _ _) => some (.pass config queue .ready)
  | .planning _ => some .idle
  | .cancelling _ [] count => some (.returned count)
  | .operator _ _ _ [] count => some (.returned count)
  | .recorded _ => some .idle
  | _ => none

/-- `COMMIT`. -/
def commit (s : State) (w : Nat) : State :=
  match (s.sessions w).committed with
  | some p => s.execute w (s.db.commit w) p
  | none => s

/-- One statement. -/
def step (s : State) : Statement → State
  | .startPass w config =>
    startCall s w (.pass config (dueTaskIds s.store config.now config.limit) .ready)
  | .claim w => claim s w
  | .callProvider w => callProvider s w
  | .providerReturns w outcome => providerReturns s w outcome
  | .noAdapter w => noAdapter s w
  | .settle w => settle s w
  | .startPlanning w ctx => startCall s w (.planning ctx)
  | .insertTask w channel policyDecisionId scheduledAt clock =>
    insertTask s w channel policyDecisionId scheduledAt clock
  | .startCancelling w ctx =>
    let tasks := Table.select (cancellable ctx) s.db.rows
    startCall s w (.cancelling ctx tasks tasks.length)
  | .startOperator w accountId account reason correlationId =>
    startCall s w (.operator account reason correlationId
      (Table.select (operatorCancellable accountId) s.db.rows) 0)
  | .cancelNext w => cancelNext s w
  | .loadTask w taskId body => loadTask s w taskId body
  | .writeResult w => writeResult s w
  | .commit w => commit s w
  | .crash w => s.execute w (s.db.rollback w) .idle

/-! ### Statements by their effect -/

/-- The claim of a pass that is committed and not yet settled: the task and the copy of
its row that the worker holds. -/
def WorkerPhase.attempt : WorkerPhase → Option (Nat × OutreachTask)
  | .ready | .claiming _ _ => none
  | .claimed taskId task | .sending taskId task | .sent taskId task _
  | .settling taskId task _ => some (taskId, task)

/-- The attempt of a session. -/
def Session.attempt : Session → Option (Nat × OutreachTask)
  | .pass _ _ phase => phase.attempt
  | _ => none

/-- A session at the start of a call. -/
inductive Session.Opening : Session → Prop where
  | pass (config : PassConfig) (queue : List Nat) : Opening (.pass config queue .ready)
  | planning (ctx : EventContext) : Opening (.planning ctx)
  | cancelling (ctx : EventContext) (tasks : List (OutreachTask × Nat)) :
      Opening (.cancelling ctx tasks tasks.length)
  | operator (account : Account) (reason : String) (correlationId : Nat)
      (tasks : List (OutreachTask × Nat)) : Opening (.operator account reason correlationId tasks 0)
  | manual {taskId : Nat} {task : OutreachTask} {body : DeliveryResultRequest}
      (h : allowedManualDeliverySourceStatus task.status = true) :
      Opening (.manual taskId task body)

/-- Every statement changes nothing, starts a call, rolls one back, moves a session on
without the database, writes or inserts a row, or commits. -/
inductive Step (s : State) : Statement → State → Prop where
  | idle {st : Statement} : Step s st s
  | started {st : Statement} {w : Nat} {p : Session} (free : (s.sessions w).free = true)
      (opening : p.Opening) : Step s st (s.become w p)
  | dropped {st : Statement} {w : Nat} {p : Session}
      (clean : p = .idle ∨ ∃ config queue, p = .pass config queue .ready) :
      Step s st (s.execute w (s.db.rollback w) p)
  | claiming {w taskId : Nat} {config : PassConfig} {queue : List Nat} {t : OutreachTask}
      (session : s.sessions w = .pass config (taskId :: queue) .ready)
      (row : s.db.view w taskId = some t) (hdue : due config.now t = true)
      (free : s.db.free w taskId = true) :
      Step s (.claim w) (s.execute w (s.db.write w taskId (claimWrite t)
        (dispatchStarted config.workerId taskId (claimWrite t)) free)
        (.pass config queue (.claiming taskId (claimWrite t))))
  | called {w taskId : Nat} {config : PassConfig} {queue : List Nat} {task : OutreachTask}
      (session : s.sessions w = .pass config queue (.claimed taskId task)) :
      Step s (.callProvider w) { s.become w (.pass config queue (.sending taskId task)) with
        calls := s.calls ++ [(taskId, task.attemptCount)] }
  | delivered {w taskId : Nat} {config : PassConfig} {queue : List Nat} {task : OutreachTask}
      {result : DeliveryResult}
      (session : s.sessions w = .pass config queue (.sending taskId task)) :
      Step s (.providerReturns w (.delivered result))
        { s.become w (.pass config queue (.sent taskId task (.delivered result))) with
          deliveries := s.deliveries ++ [(taskId, task.attemptCount)] }
  | raised {st : Statement} {w taskId : Nat} {config : PassConfig} {queue : List Nat}
      {task : OutreachTask} {error : String}
      (session : s.sessions w = .pass config queue (.claimed taskId task) ∨
        s.sessions w = .pass config queue (.sending taskId task)) :
      Step s st (s.become w (.pass config queue (.sent taskId task (.raised error))))
  | settling {w taskId : Nat} {config : PassConfig} {queue : List Nat} {task t : OutreachTask}
      {outcome : SendOutcome}
      (session : s.sessions w = .pass config queue (.sent taskId task outcome))
      (row : s.db.view w taskId = some t) (hd : t.status = .dispatching)
      (free : s.db.free w taskId = true) :
      Step s (.settle w) (s.execute w (s.db.write w taskId (settleWrite config task outcome t)
        (settleRow config taskId task outcome) free)
        (.pass config queue (.settling taskId task outcome)))
  | inserted {w : Nat} {ctx : EventContext} {channel : OutreachChannel} {policyDecisionId : Nat}
      {scheduledAt : Datetime} {instant clock : Int} (session : s.sessions w = .planning ctx)
      (hinstant : scheduledAt.timestamptz = some instant) :
      Step s (.insertTask w channel policyDecisionId scheduledAt clock)
        (s.execute w (s.db.insert w (taskRow ctx channel policyDecisionId instant clock)
          (taskScheduledRow ctx channel scheduledAt)) (.planning ctx))
  | eventCancelled {w count : Nat} {ctx : EventContext} {task : OutreachTask × Nat}
      {tasks : List (OutreachTask × Nat)} {t : OutreachTask}
      (session : s.sessions w = .cancelling ctx (task :: tasks) count)
      (row : s.db.view w task.2 = some t) (free : s.db.free w task.2 = true) :
      Step s (.cancelNext w) (s.execute w
        (s.db.write w task.2 t.cancel (cancelledRow ctx task) free)
        (.cancelling ctx tasks count))
  | operatorCancelled {w count correlationId : Nat} {account : Account} {reason : String}
      {task : OutreachTask × Nat} {tasks : List (OutreachTask × Nat)} {t : OutreachTask}
      (session : s.sessions w = .operator account reason correlationId (task :: tasks) count)
      (row : s.db.view w task.2 = some t) (hs : t.status = .scheduled)
      (free : s.db.free w task.2 = true) :
      Step s (.cancelNext w) (s.execute w (s.db.write w task.2 t.cancel
        (operatorCancelledRow account reason correlationId task) free)
        (.operator account reason correlationId tasks (count + 1)))
  | operatorSkipped {w count correlationId : Nat} {account : Account} {reason : String}
      {task : OutreachTask × Nat} {tasks : List (OutreachTask × Nat)}
      (session : s.sessions w = .operator account reason correlationId (task :: tasks) count) :
      Step s (.cancelNext w) (s.become w (.operator account reason correlationId tasks count))
  | recorded {w taskId : Nat} {task t : OutreachTask} {body : DeliveryResultRequest}
      (session : s.sessions w = .manual taskId task body) (row : s.db.view w taskId = some t)
      (hs : t.status = task.status) (free : s.db.free w taskId = true) :
      Step s (.writeResult w) (s.execute w (s.db.write w taskId (manualWrite body t)
        (deliveryResultRecorded taskId task task.status body) free) (.recorded taskId))
  | committed {w : Nat} {p : Session} (session : (s.sessions w).committed = some p) :
      Step s (.commit w) (s.execute w (s.db.commit w) p)

private theorem startCall_spec {s : State} {st : Statement} (w : Nat) {p : Session}
    (h : p.Opening) : Step s st (startCall s w p) := by
  unfold startCall
  split
  · next hfree => exact .started hfree h
  · exact .idle

private theorem claim_spec (s : State) (w : Nat) : Step s (.claim w) (claim s w) := by
  unfold claim
  split
  · next config taskId queue hs =>
    split
    · exact .idle
    · exact .dropped (Or.inr ⟨config, queue, rfl⟩)
    · next t db hu =>
      obtain ⟨row, hdue, hfree, rfl⟩ := Db.update_eq_hits hu
      exact .claiming hs row hdue hfree
  · exact .idle

private theorem providerReturns_spec (s : State) (w : Nat) (outcome : SendOutcome) :
    Step s (.providerReturns w outcome) (providerReturns s w outcome) := by
  unfold providerReturns
  split
  · next hs => exact .delivered hs
  · next hs => exact .raised (Or.inr hs)
  · exact .idle

private theorem settle_spec (s : State) (w : Nat) : Step s (.settle w) (settle s w) := by
  unfold settle
  split
  · next config queue taskId task outcome hs =>
    split
    · exact .idle
    · exact .dropped (Or.inr ⟨config, queue, rfl⟩)
    · next t db hu =>
      obtain ⟨row, hd, hfree, rfl⟩ := Db.update_eq_hits hu
      split
      · exact .settling hs row (of_decide_eq_true hd) hfree
      · exact .dropped (Or.inl rfl)
  · exact .idle

private theorem cancelNext_spec (s : State) (w : Nat) :
    Step s (.cancelNext w) (cancelNext s w) := by
  unfold cancelNext
  split
  · next hs =>
    split
    · exact .idle
    · exact .dropped (Or.inl rfl)
    · next hu =>
      obtain ⟨row, -, hfree, rfl⟩ := Db.update_eq_hits hu
      exact .eventCancelled hs row hfree
  · next hs =>
    split
    · exact .idle
    · exact .operatorSkipped hs
    · next hu =>
      obtain ⟨row, hp, hfree, rfl⟩ := Db.update_eq_hits hu
      exact .operatorCancelled hs row (of_decide_eq_true hp) hfree
  · exact .idle

private theorem writeResult_spec (s : State) (w : Nat) :
    Step s (.writeResult w) (writeResult s w) := by
  unfold writeResult
  split
  · next hs =>
    split
    · exact .idle
    · exact .dropped (Or.inl rfl)
    · next hu =>
      obtain ⟨row, hp, hfree, rfl⟩ := Db.update_eq_hits hu
      split
      · exact .recorded hs row (of_decide_eq_true hp) hfree
      · exact .dropped (Or.inl rfl)
  · exact .idle

/-- The statement is one of the steps. -/
theorem step_spec (s : State) (st : Statement) : Step s st (step s st) := by
  cases st with
  | startPass w config => exact startCall_spec w (.pass config _)
  | claim w => exact claim_spec s w
  | callProvider w =>
    simp only [step, callProvider]
    split
    · next hs => exact .called hs
    · exact .idle
  | providerReturns w outcome => exact providerReturns_spec s w outcome
  | noAdapter w =>
    simp only [step, noAdapter]
    split
    · next hs => exact .raised (Or.inl hs)
    · exact .idle
  | settle w => exact settle_spec s w
  | startPlanning w ctx => exact startCall_spec w (.planning ctx)
  | insertTask w channel policyDecisionId scheduledAt clock =>
    simp only [step, insertTask]
    split
    · next hs hinstant => exact .inserted hs hinstant
    · exact .idle
  | startCancelling w ctx => exact startCall_spec w (.cancelling ctx _)
  | startOperator w accountId account reason correlationId =>
    exact startCall_spec w (.operator account reason correlationId _)
  | cancelNext w => exact cancelNext_spec s w
  | loadTask w taskId body =>
    simp only [step, loadTask]
    split
    · split
      · next h => exact startCall_spec w (.manual h)
      · exact .idle
    · exact .idle
  | writeResult w => exact writeResult_spec s w
  | commit w =>
    simp only [step, commit]
    split
    · next hs => exact .committed hs
    · exact .idle
  | crash w => exact .dropped (Or.inl rfl)

end Orchestrator.Concurrency
