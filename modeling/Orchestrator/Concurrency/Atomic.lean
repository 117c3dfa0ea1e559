import Orchestrator.Concurrency.Alone

/-!
# Operations in one step

The operations of the writers of `outreach_tasks`, each of which runs in one step: a
claim, a settlement, a manual result, the inserts of a planning pass and the loops of
both cancellations. An interleaving of statements ends operations one after the other;
it is serial if these, run in one step in that order, explain its tables and answers.
-/

namespace Orchestrator.Concurrency

open Base Domain Orchestration Workers

deriving instance DecidableEq for Session

/-! ### The sequential operations -/

/-- A task row that a planning pass can insert for its event, with its audit row,
`src/orchestrator/orchestration/planner.py:297–323`. -/
inductive Planned (ctx : EventContext) : OutreachTask × AuditEvent → Prop where
  | intro (channel : OutreachChannel) (policyDecisionId : Nat) {scheduledAt : Datetime}
      {instant : Int} (clock : Int) (h : scheduledAt.timestamptz = some instant) :
      Planned ctx (taskRow ctx channel policyDecisionId instant clock,
        taskScheduledRow ctx channel scheduledAt)

/-- The insert of one task and its audit row. -/
def insertPlanned (s : Store) (inserted : OutreachTask × AuditEvent) : Store :=
  { s with outreachTasks := s.outreachTasks ++ [inserted.1] }.appendAuditEvent inserted.2

/-- The loop of an operator over the tasks that it selected from one of the tables, which come
latest first: of those that it has visited it passed over the ones that were no longer scheduled
in tables committed since the selection. -/
def Swept (past : List Store) (selection visited reached : List (OutreachTask × Nat)) : Prop :=
  ∃ (since before : List Store) (x : Store), past = since ++ x :: before ∧
    (∃ accountId, selection = Table.select (operatorCancellable accountId) x.outreachTasks) ∧
    reached.Sublist visited ∧ ∀ task ∈ visited, task ∉ reached →
      ∃ y ∈ since, (y.outreachTasks[task.2]?).any scheduled = false

/-- An operation that runs in one step on the tables `s`, the latest of `past`: the memory of its
session before it, the tables after it, and the memory that its answer leaves. An operator's loop
runs over the tasks of its selection that it did not pass over, and cancels each. -/
inductive Atomic (past : List Store) (s : Store) : Session → Store → Session → Prop where
  | claim (queue : List Nat) {config : PassConfig} {taskId : Nat} {s' : Store}
      {task : Option OutreachTask}
      (h : claimTask s taskId config.now config.workerId = (s', task)) :
      Atomic past s (.pass config (taskId :: queue) .ready) s'
        (.pass config queue (task.elim .ready (WorkerPhase.claimed taskId)))
  | settle (queue : List Nat) {config : PassConfig} {taskId : Nat} {task : OutreachTask}
      {outcome : SendOutcome} {s' : Store}
      (h : settleAttempt s taskId task outcome config = .ok s') :
      Atomic past s (.pass config queue (.sent taskId task outcome)) s' (.pass config queue .ready)
  | refuse (queue : List Nat) {config : PassConfig} {taskId : Nat} {task : OutreachTask}
      {outcome : SendOutcome} {error : Failure}
      (h : settleAttempt s taskId task outcome config = .error error) :
      Atomic past s (.pass config queue (.sent taskId task outcome)) s .idle
  | record (taskId : Nat) (task : OutreachTask) (body : DeliveryResultRequest) :
      Atomic past s (.manual taskId task body)
        (committedOr s (recordManualDeliveryResult s taskId task.status body)) .idle
  | plan {ctx : EventContext} {inserted : List (OutreachTask × AuditEvent)}
      (h : ∀ x ∈ inserted, Planned ctx x) :
      Atomic past s (.planning ctx) (inserted.foldl insertPlanned s) .idle
  | cancel (ctx : EventContext) (tasks : List (OutreachTask × Nat)) :
      Atomic past s (.cancelling ctx tasks tasks.length) (tasks.foldl (cancelTask ctx) s)
        (.returned tasks.length)
  | operator {account : Account} {reason : String} {correlationId : Nat}
      {tasks reached : List (OutreachTask × Nat)} {s' : Store}
      (swept : Swept past tasks tasks reached)
      (h : reached.foldl
        (operatorCancelTask (operatorCancelledRow account reason correlationId)) (s, 0) =
          (s', reached.length)) :
      Atomic past s (.operator account reason correlationId tasks 0) s' (.returned reached.length)

/-- What a session holds has been read from one of the given tables. -/
def Session.ReadFrom (past : List Store) : Session → Prop
  | .pass config queue phase =>
    (∃ x ∈ past, queue <:+ dueTaskIds x config.now config.limit) ∧
      ∀ taskId task, phase.attempt = some (taskId, task) →
        ∃ x ∈ past, x.outreachTasks[taskId]? = some task
  | .cancelling ctx tasks _ => ∃ x ∈ past, tasks = Table.select (cancellable ctx) x.outreachTasks
  | .operator _ _ _ tasks _ =>
    ∃ x ∈ past, ∃ accountId, tasks = Table.select (operatorCancellable accountId) x.outreachTasks
  | .manual taskId task _ => ∃ x ∈ past, x.outreachTasks[taskId]? = some task
  | _ => True

/-! ### The operations of an interleaving -/

/-- The session of a statement that can end an operation. -/
def Statement.caller : Statement → Option Nat
  | .claim w | .settle w | .writeResult w | .commit w => some w
  | _ => none

/-- The session whose operation a statement ends: it moves on and has no uncommitted
changes. -/
def concluding (s : State) (st : Statement) : Option Nat :=
  st.caller.filter fun w =>
    decide ((step s st).sessions w ≠ s.sessions w) && ((step s st).db.txns w).isEmpty

/-- A session in the loop of an operator's cancellation. -/
def Session.operates : Session → Bool
  | .operator _ _ _ _ _ => true
  | _ => false

/-- The memory of every session when its operation began: an operator's with the selection, any
other with its open transaction. -/
def opened (memory : Nat → Session) (s : State) (w : Nat) : Session :=
  if (s.db.txns w).isEmpty && !((memory w).operates && (s.sessions w).operates) then s.sessions w
  else memory w

/-- The end of an operation, with its session's memory before and after it. -/
structure Conclusion where
  session : Nat
  before : Session
  after : Session

/-- The operations that the statements end, in order. -/
def conclusions (memory : Nat → Session) (s : State) : List Statement → List Conclusion
  | [] => []
  | st :: sts =>
    let s' := step s st
    ((concluding s st).toList.map fun w => ⟨w, memory w, s'.sessions w⟩) ++
      conclusions (opened memory s') s' sts

/-- The operations run one after the other from the first of the tables, which come
latest first, and each was given what was read from these. -/
inductive Serial : List Store → List Conclusion → Store → Prop where
  | nil {s : Store} {past : List Store} : Serial (s :: past) [] s
  | cons {s s' final : Store} {past : List Store} {c : Conclusion} {cs : List Conclusion}
      (reads : c.before.ReadFrom (s :: past)) (atomic : Atomic (s :: past) s c.before s' c.after)
      (rest : Serial (s' :: s :: past) cs final) : Serial (s :: past) (c :: cs) final

end Orchestrator.Concurrency
