import Orchestrator.Base.Fallible
import Orchestrator.Workers.Dispatch

/-!
# A whole worker pass

`dispatch_due_tasks` run alone, from its `SELECT` to its return or the exception that
leaves it. The `SELECT` may answer with due rows of equal order in any sequence. A
provider call is a function of the number of attempts made before it in the pass and of
the claimed row, so that an adapter may answer differently every time.
-/

namespace Orchestrator.Workers

open Base

/-- Arguments of `dispatch_due_tasks` as the caller gives them,
`src/orchestrator/workers/dispatch.py:33–41`. -/
structure PassArgs where
  now : Datetime
  limit : Int := 10
  retryDelay : Int := 5 * minute
  workerId : WorkerId := dispatchWorker

/-- The adapters of a pass by channel. -/
abbrev Adapters := OutreachChannel → Option (Nat → OutreachTask × Nat → SendOutcome)

namespace PassArgs

/-- The instant of `now + retry_delay`; undefined where the addition or the conversion of
the sum to a `timestamptz` parameter raises, `src/orchestrator/workers/dispatch.py:173`. -/
def retryAt (args : PassArgs) : Option Int :=
  (args.now.add args.retryDelay).bind Datetime.timestamptz

/-- The arguments in instants. The delay is the one between `now` and `now + retry_delay`,
which differs from `retry_delay` where the offset of `now` changes in between. -/
def config (args : PassArgs) : PassConfig where
  now := args.now.instant
  limit := args.limit.toNat
  retryDelay := args.retryAt.getD args.now.instant - args.now.instant
  workerId := args.workerId

end PassArgs

/-- The answers that the `SELECT` of due tasks may give,
`src/orchestrator/workers/dispatch.py:54–62`. -/
def DueAnswer (s : Store) (now : Int) (limit : Nat) (ids : List Nat) : Prop :=
  ∃ rows : List (OutreachTask × Nat), rows.Perm (Table.select (due now) s.outreachTasks) ∧
    rows.Pairwise (fun x y => dispatchOrder x y = true) ∧ ids = (rows.take limit).map Prod.snd

/-- How the attempt of a claimed task ends, `src/orchestrator/workers/dispatch.py:101–123`. -/
def sendOutcome (adapters : Adapters) (attempted taskId : Nat) (task : OutreachTask) :
    SendOutcome :=
  match adapters task.channel with
  | some send => send attempted (task, taskId)
  | none => .raised (noAdapterError task.channel)

/-- The settlement with `now + retry_delay` evaluated before the update,
`src/orchestrator/workers/dispatch.py:172–190`. -/
def settleTask (args : PassArgs) (s : Store) (taskId : Nat) (task : OutreachTask)
    (outcome : SendOutcome) : Except Failure Store :=
  match outcome with
  | .delivered _ => settleAttempt s taskId task outcome args.config
  | .raised _ =>
    if willRetry task && args.retryAt.isNone then .error .overflow
    else settleAttempt s taskId task outcome args.config

/-- One iteration, `src/orchestrator/workers/dispatch.py:64–123`. An exception ends the pass
with what is committed by then. -/
def attemptTask (adapters : Adapters) (args : PassArgs) (acc : Store × Except Failure Nat)
    (taskId : Nat) : Store × Except Failure Nat :=
  match acc with
  | (s, .error e) => (s, .error e)
  | (s, .ok attempted) =>
    match claimTask s taskId args.now.instant args.workerId with
    | (s, none) => (s, .ok attempted)
    | (s, some task) =>
      match settleTask args s taskId task (sendOutcome adapters attempted taskId task) with
      | .ok s => (s, .ok (attempted + 1))
      | .error e => (s, .error e)

/-- `dispatch_due_tasks` with the answer of its `SELECT`: the committed store and the
returned count or the exception, `src/orchestrator/workers/dispatch.py:33–125`. The
`SELECT` refuses a negative limit and a time that is no `timestamptz`. -/
def dispatchDueTasks (adapters : Adapters) (args : PassArgs) (s : Store) (ids : List Nat) :
    Store × Except Failure Nat :=
  if args.now.timestamptz.isNone then (s, .error .overflow)
  else if args.limit < 0 then (s, .error (.dataError "limit"))
  else ids.foldl (attemptTask adapters args) (s, .ok 0)

/-! ### One attempt -/

/-- The row that an attempt leaves where the task was `t` before. -/
def attemptedRow (retryAt : Option Int) (t : OutreachTask) : SendOutcome → OutreachTask
  | .delivered _ =>
    { t with status := .sent, attemptCount := t.attemptCount + 1, lastError := none }
  | .raised error =>
    if t.attemptCount + 1 < t.maxAttempts then
      { t with
        status := .scheduled
        attemptCount := t.attemptCount + 1
        scheduledAt := retryAt.getD t.scheduledAt
        lastError := some error }
    else
      { t with
        status := .failed
        attemptCount := t.attemptCount + 1
        lastError := some error }

/-- The audit row of the result of an attempt. -/
def resultRow (args : PassArgs) (taskId : Nat) (task : OutreachTask) : SendOutcome → AuditEvent
  | .delivered result => dispatchSucceeded args.workerId taskId task result
  | .raised error => dispatchFailed taskId task error args.config

/-- Whether the result of an attempt can be written: the text of an exception fits its
column, and the time of a retry exists where there is a retry. -/
def Storable (args : PassArgs) (task : OutreachTask) : SendOutcome → Prop
  | .delivered _ => True
  | .raised error => fitsString 1000 error = true ∧
      (willRetry task = true → args.retryAt.isSome = true)

/-- The two audit rows of the attempt on one task. -/
def attemptAudits (adapters : Adapters) (args : PassArgs) (s : Store) (attempted taskId : Nat) :
    List AuditEvent :=
  (s.outreachTasks[taskId]?).toList.flatMap fun t =>
    [dispatchStarted args.workerId taskId (claimWrite t),
      resultRow args taskId (claimWrite t) (sendOutcome adapters attempted taskId (claimWrite t))]

variable {adapters : Adapters} {args : PassArgs}

/-- An attempt changes its row. -/
private theorem attemptedRow_ne (retryAt : Option Int) (t : OutreachTask)
    (outcome : SendOutcome) : attemptedRow retryAt t outcome ≠ t := by
  have hcount : (attemptedRow retryAt t outcome).attemptCount = t.attemptCount + 1 := by
    cases outcome with
    | delivered result => rfl
    | raised error =>
      by_cases hretry : t.attemptCount + 1 < t.maxAttempts <;> simp [attemptedRow, hretry]
  intro he
  rw [he] at hcount
  omega

/-- The settling write of a claimed row, as the code composes it. -/
private theorem attemptedRow_eq (args : PassArgs) (t : OutreachTask) (outcome : SendOutcome)
    (h : Storable args (claimWrite t) outcome) :
    attemptedRow args.retryAt t outcome = match outcome with
      | .delivered _ => successWrite (claimWrite t)
      | .raised error => failureWrite (claimWrite t) error args.config (claimWrite t) := by
  cases outcome with
  | delivered result => rfl
  | raised error =>
    by_cases hretry : t.attemptCount + 1 < t.maxAttempts
    · obtain ⟨at', hat⟩ := Option.isSome_iff_exists.mp (h.2 (decide_eq_true hretry))
      have htime : args.config.now + args.config.retryDelay = at' := by
        simp only [PassArgs.config, hat, Option.getD_some]
        omega
      simp [attemptedRow, failureWrite, finalStatus, retryScheduledAt, willRetry, claimWrite,
        hretry, hat, htime]
    · simp [attemptedRow, failureWrite, finalStatus, retryScheduledAt, willRetry, claimWrite,
        hretry]

/-- A due task is claimed and stays dispatching until its settlement. -/
private theorem claimTask_due {s : Store} {k : Nat} {t : OutreachTask} {now : Int}
    (hrow : s.outreachTasks[k]? = some t) (hdue : due now t = true) (workerId : WorkerId) :
    claimTask s k now workerId =
      ({ s with outreachTasks := s.outreachTasks.modify k claimWrite }.appendAuditEvent
        (dispatchStarted workerId k (claimWrite t)), some (claimWrite t)) := by
  unfold claimTask
  simp [Table.updateWhere, hrow, hdue]

/-- The settlement of a claimed row that can be written. -/
private theorem settleTask_storable {s : Store} {k : Nat} {t : OutreachTask}
    {outcome : SendOutcome} (hrow : s.outreachTasks[k]? = some (claimWrite t))
    (h : Storable args (claimWrite t) outcome) :
    settleTask args s k (claimWrite t) outcome =
      .ok ({ s with outreachTasks :=
          s.outreachTasks.set k (attemptedRow args.retryAt t outcome) }.appendAuditEvent
        (resultRow args k (claimWrite t) outcome)) := by
  have hd : dispatching (claimWrite t) = true := rfl
  rw [attemptedRow_eq args t outcome h]
  cases outcome with
  | delivered result =>
    rw [← Table.modify_eq_set hrow]
    simp [settleTask, settleAttempt, recordSuccess, Table.updateWhere, hrow, hd, resultRow,
      PassArgs.config]
  | raised error =>
    have hguard : (willRetry (claimWrite t) && args.retryAt.isNone) = false := by
      by_cases hretry : willRetry (claimWrite t) = true
      · simp [h.2 hretry]
      · simp [hretry]
    have hfit : fitsString 1000 error = true := h.1
    dsimp only
    rw [← Table.modify_eq_set (f := failureWrite (claimWrite t) error args.config) hrow]
    simp [settleTask, hguard, settleAttempt, recordFailure, Table.updateWhere, hrow, hd, hfit,
      resultRow]

/-- The settlement of a claimed row that cannot be written raises. -/
private theorem settleTask_not_storable {s : Store} {k : Nat} {t : OutreachTask}
    {outcome : SendOutcome} (hrow : s.outreachTasks[k]? = some (claimWrite t))
    (h : ¬Storable args (claimWrite t) outcome) :
    ∃ e, settleTask args s k (claimWrite t) outcome = .error e := by
  have hd : dispatching (claimWrite t) = true := rfl
  cases outcome with
  | delivered result => exact absurd trivial h
  | raised error =>
    by_cases hguard : (willRetry (claimWrite t) && args.retryAt.isNone) = true
    · exact ⟨.overflow, by simp only [settleTask, hguard, ↓reduceIte]⟩
    · have hfit : ¬fitsString 1000 error = true := by
        intro hfit
        apply h
        refine ⟨hfit, fun hretry => ?_⟩
        cases hat : args.retryAt with
        | none => exact absurd (by simp [hretry, hat]) hguard
        | some at' => rfl
      refine ⟨.dataError "last_error", ?_⟩
      simp only [settleTask, hguard, settleAttempt, recordFailure, Table.updateWhere, hrow,
        Option.any_some, hd, hfit, Bool.false_eq_true, ↓reduceIte]

/-- The store after a settled attempt. -/
private def attemptStore (adapters : Adapters) (args : PassArgs) (attempted : Nat) (s : Store)
    (k : Nat) (t : OutreachTask) : Store :=
  { s with
    outreachTasks := s.outreachTasks.set k
      (attemptedRow args.retryAt t (sendOutcome adapters attempted k (claimWrite t)))
    auditEvents := s.auditEvents ++ attemptAudits adapters args s attempted k }

private theorem claimed_row {s : Store} {k : Nat} {t : OutreachTask}
    (hrow : s.outreachTasks[k]? = some t) (row : AuditEvent) :
    ({ s with outreachTasks := s.outreachTasks.modify k claimWrite }.appendAuditEvent
      row).outreachTasks[k]? = some (claimWrite t) := by
  simp [hrow]

/-- One iteration on a due task whose result can be written. -/
private theorem attemptTask_storable {s : Store} {k n : Nat} {t : OutreachTask}
    (hrow : s.outreachTasks[k]? = some t) (hdue : due args.now.instant t = true)
    (h : Storable args (claimWrite t) (sendOutcome adapters n k (claimWrite t))) :
    attemptTask adapters args (s, .ok n) k = (attemptStore adapters args n s k t, .ok (n + 1)) := by
  have hsettle := settleTask_storable
    (claimed_row hrow (dispatchStarted args.workerId k (claimWrite t))) h
  simp only [attemptTask, claimTask_due hrow hdue, hsettle]
  simp only [attemptStore, Store.appendAuditEvent, attemptAudits, hrow, Option.toList_some,
    List.flatMap_singleton, Table.modify_eq_set hrow, List.set_set, List.append_assoc,
    List.singleton_append]

/-- One iteration on a due task whose result cannot be written leaves the task dispatching. -/
private theorem attemptTask_not_storable {s : Store} {k n : Nat} {t : OutreachTask}
    (hrow : s.outreachTasks[k]? = some t) (hdue : due args.now.instant t = true)
    (h : ¬Storable args (claimWrite t) (sendOutcome adapters n k (claimWrite t))) :
    ∃ s' e, attemptTask adapters args (s, .ok n) k = (s', .error e) ∧
      s'.outreachTasks[k]? = some (claimWrite t) := by
  obtain ⟨e, he⟩ := settleTask_not_storable
    (claimed_row hrow (dispatchStarted args.workerId k (claimWrite t))) h
  refine ⟨_, e, ?_, claimed_row hrow (dispatchStarted args.workerId k (claimWrite t))⟩
  simp only [attemptTask, claimTask_due hrow hdue, he]

/-! ### The pass -/

/-- Each answered id is the key of a due row and occurs once. -/
structure DueIds (s : Store) (now : Int) (ids : List Nat) : Prop where
  nodup : ids.Nodup
  row : ∀ k ∈ ids, ∃ t, s.outreachTasks[k]? = some t ∧ due now t = true

/-- An answer holds ids of due rows, each once. -/
theorem DueAnswer.dueIds {s : Store} {now : Int} {limit : Nat} {ids : List Nat}
    (h : DueAnswer s now limit ids) : DueIds s now ids := by
  obtain ⟨rows, hperm, -, rfl⟩ := h
  constructor
  · have hall : (rows.map Prod.snd).Nodup :=
      (hperm.map Prod.snd).nodup_iff.mpr (Table.nodup_keys_select _ _)
    exact ((List.take_sublist limit rows).map Prod.snd).nodup hall
  · intro k hk
    rw [← Table.mem_keys_select]
    have hsub : k ∈ rows.map Prod.snd := ((List.take_sublist limit rows).map Prod.snd).subset hk
    exact (hperm.map Prod.snd).mem_iff.mp hsub

/-- An attempt on one task leaves the other ids due. -/
private theorem DueIds.tail {s : Store} {k n : Nat} {ids : List Nat} {t : OutreachTask}
    (h : DueIds s args.now.instant (k :: ids)) :
    DueIds (attemptStore adapters args n s k t) args.now.instant ids := by
  obtain ⟨hk, hids⟩ := List.nodup_cons.mp h.nodup
  constructor
  · exact hids
  · intro j hj
    have hne : k ≠ j := fun he => hk (he ▸ hj)
    simpa [attemptStore, hne] using h.row j (List.mem_cons_of_mem k hj)

/-- What a pass over `ids` leaves behind, where `attempted` attempts came before it. -/
structure PassEffect (adapters : Adapters) (args : PassArgs) (attempted : Nat) (s : Store)
    (ids : List Nat) (s' : Store) : Prop where
  rows : ∀ i k, ids[i]? = some k → ∃ t, s.outreachTasks[k]? = some t ∧
    s'.outreachTasks[k]? = some (attemptedRow args.retryAt t
      (sendOutcome adapters (attempted + i) k (claimWrite t)))
  otherRows : ∀ k, k ∉ ids → s'.outreachTasks[k]? = s.outreachTasks[k]?
  audits : s'.auditEvents = s.auditEvents ++
    (ids.zipIdx attempted).flatMap (fun x => attemptAudits adapters args s x.2 x.1)
  customers : s'.customers = s.customers
  accounts : s'.accounts = s.accounts
  inboundEvents : s'.inboundEvents = s.inboundEvents
  policyDecisions : s'.policyDecisions = s.policyDecisions

/-- The first attempt followed by the rest of the pass. -/
private theorem PassEffect.cons {s s' : Store} {k n : Nat} {ids : List Nat} {t : OutreachTask}
    (hrow : s.outreachTasks[k]? = some t) (hk : k ∉ ids)
    (h : PassEffect adapters args (n + 1) (attemptStore adapters args n s k t) ids s') :
    PassEffect adapters args n s (k :: ids) s' := by
  have hlt : k < s.outreachTasks.length := (List.getElem?_eq_some_iff.mp hrow).1
  have hother (j : Nat) (hj : j ≠ k) :
      (attemptStore adapters args n s k t).outreachTasks[j]? = s.outreachTasks[j]? := by
    simp [attemptStore, hj.symm]
  have hne (j : Nat) (hj : j ∈ ids) : j ≠ k := fun he => hk (he ▸ hj)
  constructor
  case rows =>
    intro i j hi
    cases i with
    | zero =>
      obtain rfl : k = j := by simpa using hi
      refine ⟨t, hrow, ?_⟩
      rw [h.otherRows k hk]
      simp [attemptStore, hlt]
    | succ i =>
      rw [List.getElem?_cons_succ] at hi
      obtain ⟨t', ht', hrow'⟩ := h.rows i j hi
      rw [hother j (hne j (List.mem_of_getElem? hi))] at ht'
      refine ⟨t', ht', ?_⟩
      rw [hrow', Nat.add_assoc, Nat.add_comm 1 i]
  case otherRows =>
    intro j hj
    rw [List.mem_cons, not_or] at hj
    rw [h.otherRows j hj.2, hother j hj.1]
  case audits =>
    have hrest : (ids.zipIdx (n + 1)).flatMap (fun x =>
          attemptAudits adapters args (attemptStore adapters args n s k t) x.2 x.1) =
        (ids.zipIdx (n + 1)).flatMap (fun x => attemptAudits adapters args s x.2 x.1) := by
      apply List.flatMap_congr
      intro x hx
      rw [attemptAudits, attemptAudits, hother x.1 (hne x.1 (List.fst_mem_of_mem_zipIdx hx))]
    rw [h.audits, hrest, List.zipIdx_cons, List.flatMap_cons, ← List.append_assoc]
    rfl
  case customers => exact h.customers
  case accounts => exact h.accounts
  case inboundEvents => exact h.inboundEvents
  case policyDecisions => exact h.policyDecisions

/-- The result of every attempt of a pass can be written: the text of every exception fits,
and the time of a retry exists where a failing task has attempts left. -/
def Recordable (adapters : Adapters) (args : PassArgs) (attempted : Nat) (s : Store)
    (ids : List Nat) : Prop :=
  ∀ i k t, ids[i]? = some k → s.outreachTasks[k]? = some t →
    Storable args (claimWrite t) (sendOutcome adapters (attempted + i) k (claimWrite t))

/-- The results after the first attempt. -/
private theorem recordable_cons {s : Store} {k n : Nat} {ids : List Nat} {t : OutreachTask}
    (hrow : s.outreachTasks[k]? = some t) (hk : k ∉ ids) :
    Recordable adapters args n s (k :: ids) ↔
      Storable args (claimWrite t) (sendOutcome adapters n k (claimWrite t)) ∧
        Recordable adapters args (n + 1) (attemptStore adapters args n s k t) ids := by
  have hother (i j : Nat) (hj : ids[i]? = some j) :
      (attemptStore adapters args n s k t).outreachTasks[j]? = s.outreachTasks[j]? := by
    have hne : j ≠ k := fun he => hk (he ▸ List.mem_of_getElem? hj)
    simp [attemptStore, hne.symm]
  constructor
  · intro h
    refine ⟨h 0 k t rfl hrow, fun i j t' hi ht' => ?_⟩
    rw [hother i j hi] at ht'
    simpa [Nat.add_assoc, Nat.add_comm 1 i] using h (i + 1) j t' (by simpa using hi) ht'
  · rintro ⟨hhead, htail⟩ i j t' hi ht'
    cases i with
    | zero =>
      obtain rfl : k = j := by simpa using hi
      rw [hrow] at ht'
      cases ht'
      exact hhead
    | succ i =>
      rw [List.getElem?_cons_succ] at hi
      have ht'' := (hother i j hi).trans ht'
      simpa [Nat.add_assoc, Nat.add_comm 1 i] using htail i j t' hi ht''

/-- An exception ends the pass. -/
private theorem foldl_error (adapters : Adapters) (args : PassArgs) (s : Store) (e : Failure)
    (ids : List Nat) : ids.foldl (attemptTask adapters args) (s, .error e) = (s, .error e) := by
  induction ids with
  | nil => rfl
  | cons k ids ih => exact ih

/-- A pass whose results can all be written handles every task. -/
private theorem foldl_recordable {s : Store} {n : Nat} {ids : List Nat}
    (hids : DueIds s args.now.instant ids) (h : Recordable adapters args n s ids) :
    ∃ s', ids.foldl (attemptTask adapters args) (s, .ok n) = (s', .ok (n + ids.length)) ∧
      PassEffect adapters args n s ids s' := by
  induction ids generalizing s n with
  | nil => exact ⟨s, rfl, by constructor <;> simp⟩
  | cons k ids ih =>
    obtain ⟨t, hrow, hdue⟩ := hids.row k List.mem_cons_self
    have hk : k ∉ ids := (List.nodup_cons.mp hids.nodup).1
    obtain ⟨hhead, htail⟩ := (recordable_cons hrow hk).mp h
    obtain ⟨s', hrun, heffect⟩ := ih hids.tail htail
    refine ⟨s', ?_, heffect.cons hrow hk⟩
    rw [List.foldl_cons, attemptTask_storable hrow hdue hhead, hrun, List.length_cons,
      Nat.add_assoc, Nat.add_comm 1]

/-- A result that cannot be written ends the pass and leaves its task dispatching. -/
private theorem foldl_not_recordable {s : Store} {n : Nat} {ids : List Nat}
    (hids : DueIds s args.now.instant ids) (h : ¬Recordable adapters args n s ids) :
    ∃ s' e, ids.foldl (attemptTask adapters args) (s, .ok n) = (s', .error e) ∧
      ∃ k ∈ ids, ∃ t, s'.outreachTasks[k]? = some t ∧ t.status = .dispatching := by
  induction ids generalizing s n with
  | nil => exact absurd (by simp [Recordable]) h
  | cons k ids ih =>
    obtain ⟨t, hrow, hdue⟩ := hids.row k List.mem_cons_self
    have hk : k ∉ ids := (List.nodup_cons.mp hids.nodup).1
    rw [List.foldl_cons]
    by_cases hhead : Storable args (claimWrite t) (sendOutcome adapters n k (claimWrite t))
    · have htail : ¬Recordable adapters args (n + 1) (attemptStore adapters args n s k t) ids :=
        fun hrest => h ((recordable_cons hrow hk).mpr ⟨hhead, hrest⟩)
      obtain ⟨s', e, hrun, j, hj, hleft⟩ := ih hids.tail htail
      rw [attemptTask_storable hrow hdue hhead]
      exact ⟨s', e, hrun, j, List.mem_cons_of_mem k hj, hleft⟩
    · obtain ⟨s', e, he, hleft⟩ := attemptTask_not_storable hrow hdue hhead
      rw [he, foldl_error]
      exact ⟨s', e, rfl, k, List.mem_cons_self, claimWrite t, hleft, rfl⟩

/-- Whether the `SELECT` of due tasks takes its parameters. -/
def PassArgs.Accepted (args : PassArgs) : Prop := InRange args.now.instant ∧ 0 ≤ args.limit

/-- A pass whose `SELECT` succeeds is the loop over its answer. -/
private theorem dispatchDueTasks_accepted (h : args.Accepted) (s : Store) (ids : List Nat) :
    dispatchDueTasks adapters args s ids = ids.foldl (attemptTask adapters args) (s, .ok 0) := by
  have hnow : args.now.timestamptz.isNone = false := by
    rw [← Option.not_isSome, Datetime.timestamptz_isSome.mpr h.1]
    rfl
  have hlimit : ¬args.limit < 0 := not_lt.mpr h.2
  simp only [dispatchDueTasks, hnow, hlimit, Bool.false_eq_true, ↓reduceIte]

/-- A refused `SELECT` raises. -/
private theorem dispatchDueTasks_refused (adapters : Adapters) (h : ¬args.Accepted) (s : Store)
    (ids : List Nat) :
    ∃ e, dispatchDueTasks adapters args s ids = (s, .error e) := by
  unfold dispatchDueTasks
  by_cases hnow : args.now.timestamptz.isNone = true
  · exact ⟨.overflow, if_pos hnow⟩
  · rw [if_neg hnow]
    by_cases hlimit : args.limit < 0
    · exact ⟨.dataError "limit", if_pos hlimit⟩
    · refine absurd ⟨Datetime.timestamptz_isSome.mp ?_, not_lt.mp hlimit⟩ h
      rwa [← Option.not_isSome, Bool.not_eq_true', Bool.not_eq_false] at hnow

/-- `dispatchOrder` compares any two rows. -/
private theorem dispatchOrder_total (x y : OutreachTask × Nat) :
    dispatchOrder x y = true ∨ dispatchOrder y x = true := by
  simp only [dispatchOrder, Bool.or_eq_true, Bool.and_eq_true, decide_eq_true_eq]
  omega

/-- `dispatchOrder` is transitive. -/
private theorem dispatchOrder_trans {x y z : OutreachTask × Nat} (hxy : dispatchOrder x y = true)
    (hyz : dispatchOrder y z = true) : dispatchOrder x z = true := by
  simp only [dispatchOrder, Bool.or_eq_true, Bool.and_eq_true, decide_eq_true_eq] at hxy hyz ⊢
  omega

/-- The answer that breaks ties by insertion order is one that the `SELECT` may give. -/
theorem dueAnswer_dueTaskIds (s : Store) (now : Int) (limit : Nat) :
    DueAnswer s now limit (dueTaskIds s now limit) := by
  refine ⟨_, List.perm_insertionSort _ _, ?_, rfl⟩
  have htotal : Std.Total (fun x y : OutreachTask × Nat => dispatchOrder x y = true) :=
    ⟨dispatchOrder_total⟩
  have htrans : IsTrans _ (fun x y : OutreachTask × Nat => dispatchOrder x y = true) :=
    ⟨fun _ _ _ => dispatchOrder_trans⟩
  exact List.pairwise_insertionSort _ _

/-- The answer holds as many ids as the limit and the due rows allow. -/
theorem DueAnswer.length {s : Store} {now : Int} {limit : Nat} {ids : List Nat}
    (h : DueAnswer s now limit ids) :
    ids.length = min limit (s.outreachTasks.countP (due now)) := by
  obtain ⟨rows, hperm, -, rfl⟩ := h
  rw [List.length_map, List.length_take, hperm.length_eq, Table.length_select]

/-- Text of the missing adapter fits. -/
private theorem fits_noAdapterError (channel : OutreachChannel) :
    fitsString 1000 (noAdapterError channel) = true := by
  cases channel <;> decide

/-- Messages that fit and retry times that exist make every result writable. -/
theorem recordable_of_fits {s : Store} {ids : List Nat}
    (htext : ∀ channel send attempted row error, adapters channel = some send →
      send attempted row = .raised error → error.length ≤ 1000)
    (hretry : ∀ i k t error, ids[i]? = some k → s.outreachTasks[k]? = some t →
      sendOutcome adapters i k (claimWrite t) = .raised error →
      t.attemptCount + 1 < t.maxAttempts → args.retryAt.isSome = true) :
    Recordable adapters args 0 s ids := by
  intro i k t hi hrow
  rw [Nat.zero_add]
  cases houtcome : sendOutcome adapters i k (claimWrite t) with
  | delivered result => trivial
  | raised error =>
    constructor
    · unfold sendOutcome at houtcome
      cases hsend : adapters (claimWrite t).channel with
      | some send =>
        rw [hsend] at houtcome
        exact decide_eq_true (htext _ send i _ error hsend houtcome)
      | none =>
        rw [hsend] at houtcome
        cases houtcome
        exact fits_noAdapterError _
    · intro hwill
      exact hretry i k t error hi hrow houtcome (of_decide_eq_true hwill)

/-- A pass that returns has attempted every task of its answer. -/
theorem dispatchDueTasks_returned {s s' : Store} {n : Nat} {ids : List Nat}
    (hids : DueAnswer s args.now.instant args.limit.toNat ids)
    (h : dispatchDueTasks adapters args s ids = (s', .ok n)) :
    n = ids.length ∧ Recordable adapters args 0 s ids ∧ PassEffect adapters args 0 s ids s' := by
  by_cases hargs : args.Accepted
  · rw [dispatchDueTasks_accepted hargs] at h
    by_cases hfit : Recordable adapters args 0 s ids
    · obtain ⟨s₁, hrun, heffect⟩ := foldl_recordable hids.dueIds hfit
      rw [hrun, Nat.zero_add, Prod.mk.injEq, Except.ok.injEq] at h
      obtain ⟨rfl, rfl⟩ := h
      exact ⟨rfl, hfit, heffect⟩
    · obtain ⟨s₁, e, hfail, -⟩ := foldl_not_recordable hids.dueIds hfit
      rw [hfail] at h
      simp at h
  · obtain ⟨e, hfail⟩ := dispatchDueTasks_refused adapters hargs s ids
    rw [hfail] at h
    simp at h

/-- A pass with accepted arguments and writable results returns. -/
theorem dispatchDueTasks_returns {s : Store} {ids : List Nat} (hargs : args.Accepted)
    (hids : DueAnswer s args.now.instant args.limit.toNat ids)
    (hfit : Recordable adapters args 0 s ids) :
    ∃ s', dispatchDueTasks adapters args s ids = (s', .ok ids.length) := by
  obtain ⟨s', hrun, -⟩ := foldl_recordable hids.dueIds hfit
  refine ⟨s', ?_⟩
  rw [dispatchDueTasks_accepted hargs, hrun, Nat.zero_add]

/-- The attempted tasks are the ones that a pass stamps as updated, each at the time when its
result is written. -/
private theorem PassEffect.touched_eq {s s' : Store} {n : Nat} {ids : List Nat}
    (h : PassEffect adapters args n s ids s') (clock updatedAt : Nat → Int) (k : Nat) :
    touched (clock k) s.outreachTasks s'.outreachTasks updatedAt k =
      if k ∈ ids then clock k else updatedAt k := by
  unfold touched
  by_cases hk : k ∈ ids
  · obtain ⟨i, hi⟩ := List.getElem?_of_mem hk
    obtain ⟨t, hrow, hrow'⟩ := h.rows i k hi
    rw [if_pos hk, if_neg]
    rw [hrow', hrow, Option.some.injEq]
    exact attemptedRow_ne args.retryAt t _
  · rw [if_neg hk, if_pos (h.otherRows k hk)]

/-- Effect of a pass run alone: the first `limit` due tasks are attempted once each, every
result is written, and nothing else changes but the time of the last update of these tasks,
which is the time `clock k` when the result of task `k` is written. -/
theorem dispatchDueTasks_effect {adapters : Adapters} {args : PassArgs} {s : Store}
    {ids : List Nat} (hnow : InRange args.now.instant) (hlimit : 0 ≤ args.limit)
    (hids : DueAnswer s args.now.instant args.limit.toNat ids)
    (htext : ∀ channel send attempted row error, adapters channel = some send →
      send attempted row = .raised error → error.length ≤ 1000)
    (hretry : ∀ i k t error, ids[i]? = some k → s.outreachTasks[k]? = some t →
      sendOutcome adapters i k (claimWrite t) = .raised error →
      t.attemptCount + 1 < t.maxAttempts → args.retryAt.isSome = true) :
    ids.Nodup ∧
      ids.length = min args.limit.toNat (s.outreachTasks.countP (due args.now.instant)) ∧
      ∃ s', dispatchDueTasks adapters args s ids = (s', .ok ids.length) ∧
        PassEffect adapters args 0 s ids s' ∧
        ∀ (clock updatedAt : Nat → Int) (k : Nat),
          touched (clock k) s.outreachTasks s'.outreachTasks updatedAt k =
            if k ∈ ids then clock k else updatedAt k := by
  obtain ⟨s', hrun, heffect⟩ := foldl_recordable hids.dueIds (recordable_of_fits htext hretry)
  refine ⟨hids.dueIds.nodup, hids.length, s', ?_, heffect, heffect.touched_eq⟩
  rw [dispatchDueTasks_accepted ⟨hnow, hlimit⟩, hrun, Nat.zero_add]

/-- A customer, an account and a task that is due at `at'`. -/
def dueStore (at' : Int) : Store where
  customers := [⟨"cust-1", "Ada", "UTC", none, none, true, true, true, false⟩]
  accounts := [⟨"acct-1", 0, .delinquent, 5000, 10⟩]
  inboundEvents := []
  policyDecisions := []
  outreachTasks := [⟨0, 0, .email, 0, .scheduled, at', 0, 3, ⟨0, .email⟩, none, none, at'⟩]
  auditEvents := []

/-- An email adapter that always raises `error`. -/
def failingEmail (error : String) : Adapters
  | .email => some fun _ _ => .raised error
  | .sms | .call => none

/-- A pass at a UTC reading. -/
def passAt (u : Int) (h : InRange u) : PassArgs where
  now := ⟨u, false, .offset 0 utcOffset_mem, h⟩

/-- Three tasks, due one minute after the other until `at'`. -/
def queueStore (at' : Int) : Store :=
  { dueStore at' with
    outreachTasks := [
      ⟨0, 0, .email, 0, .scheduled, at' - 2 * minute, 0, 3, ⟨0, .email⟩, none, none, at' - hour⟩,
      ⟨0, 0, .sms, 1, .scheduled, at' - minute, 0, 3, ⟨1, .sms⟩, none, none, at' - hour⟩,
      ⟨0, 0, .email, 2, .scheduled, at', 0, 3, ⟨2, .email⟩, none, none, at' - hour⟩] }

/-- Emails are delivered, and texts fail with `error`. -/
def failingSms (error : String) : Adapters
  | .email => some fun _ _ => .delivered ⟨"message-1", []⟩
  | .sms => some fun _ _ => .raised error
  | .call => none

/-- A pass at a UTC reading with room for two of the three tasks. -/
def pairAt (u : Int) (h : InRange u) : PassArgs := { passAt u h with limit := 2 }

private theorem failingSms_text {text : String} (h : text.length ≤ 1000) :
    ∀ channel send attempted row error, failingSms text channel = some send →
      send attempted row = .raised error → error.length ≤ 1000 := by
  intro channel send attempted row error hsend hraised
  cases channel <;> simp only [failingSms, Option.some.injEq, reduceCtorEq] at hsend
  · subst hsend
    cases hraised
    exact h
  · subst hsend
    cases hraised

/-- Of three due tasks the first two are attempted: one is sent, the other is retried. -/
theorem dispatchDueTasks_effect_demo :
    let args := pairAt day (by decide)
    (queueStore day).outreachTasks.countP (due args.now.instant) = 3 ∧
    ([0, 1] : List Nat).Nodup ∧
      ([0, 1] : List Nat).length =
        min 2 ((queueStore day).outreachTasks.countP (due args.now.instant)) ∧
      ∃ s', dispatchDueTasks (failingSms "bounced") args (queueStore day) [0, 1] = (s', .ok 2) ∧
        PassEffect (failingSms "bounced") args 0 (queueStore day) [0, 1] s' ∧
        ∀ (clock updatedAt : Nat → Int) (k : Nat),
          touched (clock k) (queueStore day).outreachTasks s'.outreachTasks updatedAt k =
            if k ∈ [0, 1] then clock k else updatedAt k := by
  intro args
  have hnow : InRange args.now.instant := by decide
  have hlimit : 0 ≤ args.limit := by decide
  have hlength : "bounced".length ≤ 1000 := by decide
  have hretry : args.retryAt.isSome = true := by decide
  exact ⟨by decide, dispatchDueTasks_effect hnow hlimit
    (dueAnswer_dueTaskIds (queueStore day) _ 2) (failingSms_text hlength)
    (fun _ _ _ _ _ _ _ _ => hretry)⟩

/-- Close to the end of the datetime range the time of a retry does not exist, and the
failed task is neither rescheduled nor failed. A pass that does write its result writes a
further column: it stamps its task, last updated at its insert, as updated. -/
theorem dispatchDueTasks_overflow_and_timestamp :
    (InRange (passAt (wallEnd - 1) (by decide)).now.instant ∧
      DueAnswer (dueStore day) (passAt (wallEnd - 1) (by decide)).now.instant 10 [0] ∧
      (dispatchDueTasks (failingEmail "bounced") (passAt (wallEnd - 1) (by decide))
        (dueStore day) [0]).2 = .error .overflow ∧
      ((dispatchDueTasks (failingEmail "bounced") (passAt (wallEnd - 1) (by decide))
        (dueStore day) [0]).1.outreachTasks[0]?).map OutreachTask.status = some .dispatching) ∧
    DueAnswer (dueStore day) (passAt day (by decide)).now.instant 10 [0] ∧
      touched (day + minute) (dueStore day).outreachTasks (dispatchDueTasks
        (failingEmail "bounced") (passAt day (by decide)) (dueStore day) [0]).1.outreachTasks
        (fun _ => day) 0 ≠ day :=
  ⟨⟨by decide, dueAnswer_dueTaskIds (dueStore day) _ 10, by rfl, by rfl⟩,
    dueAnswer_dueTaskIds (dueStore day) _ 10, by decide +kernel⟩

/-- A pass that strands no task and aborts nowhere: it handles every selected task and
returns, and each of them ends sent, scheduled for a retry or failed. -/
def Finishes (adapters : Adapters) (args : PassArgs) (s : Store) (ids : List Nat) : Prop :=
  ∃ s', dispatchDueTasks adapters args s ids = (s', .ok ids.length) ∧
    ∀ k ∈ ids, ∃ t, s'.outreachTasks[k]? = some t ∧
      (t.status = .sent ∨ t.status = .scheduled ∨ t.status = .failed)

/-- An attempt leaves a task sent, scheduled or failed. -/
private theorem attemptedRow_status (retryAt : Option Int) (t : OutreachTask)
    (outcome : SendOutcome) :
    (attemptedRow retryAt t outcome).status = .sent ∨
      (attemptedRow retryAt t outcome).status = .scheduled ∨
      (attemptedRow retryAt t outcome).status = .failed := by
  cases outcome with
  | delivered result => exact Or.inl rfl
  | raised error =>
    by_cases hretry : t.attemptCount + 1 < t.maxAttempts
    · exact Or.inr (Or.inl (by simp [attemptedRow, hretry]))
    · exact Or.inr (Or.inr (by simp [attemptedRow, hretry]))

/-- A pass finishes exactly when its `SELECT` takes its parameters and the result of every
attempt can be written; the text of an exception that does not fit its column strands the
task. -/
theorem finishes_iff {adapters : Adapters} {args : PassArgs} {s : Store} {ids : List Nat}
    (hids : DueAnswer s args.now.instant args.limit.toNat ids) :
    Finishes adapters args s ids ↔ args.Accepted ∧ Recordable adapters args 0 s ids := by
  constructor
  · rintro ⟨s', hrun, -⟩
    by_cases hargs : args.Accepted
    · refine ⟨hargs, ?_⟩
      by_contra hfit
      obtain ⟨s₁, e, hfail, -⟩ := foldl_not_recordable hids.dueIds hfit
      rw [dispatchDueTasks_accepted hargs, hfail] at hrun
      simp at hrun
    · obtain ⟨e, hfail⟩ := dispatchDueTasks_refused adapters hargs s ids
      rw [hfail] at hrun
      simp at hrun
  · rintro ⟨hargs, hfit⟩
    obtain ⟨s', hrun, heffect⟩ := foldl_recordable hids.dueIds hfit
    refine ⟨s', ?_, fun k hk => ?_⟩
    · rw [dispatchDueTasks_accepted hargs, hrun, Nat.zero_add]
    · obtain ⟨i, hi⟩ := List.getElem?_of_mem hk
      obtain ⟨t, -, hrow⟩ := heffect.rows i k hi
      exact ⟨_, hrow, attemptedRow_status _ _ _⟩

/-- A pass with a delivery and a failure whose message fits finishes. -/
theorem finishes_iff_demo :
    Finishes (failingSms "bounced") (pairAt day (by decide)) (queueStore day) [0, 1] := by
  apply (finishes_iff (dueAnswer_dueTaskIds (queueStore day) _ 2)).mpr
  have hlength : "bounced".length ≤ 1000 := by decide
  have hretry : (pairAt day (by decide)).retryAt.isSome = true := by decide
  constructor
  · constructor <;> decide
  · exact recordable_of_fits (failingSms_text hlength) fun _ _ _ _ _ _ _ _ => hretry

/-- An exception with 1001 characters leaves the pass and strands its task. -/
theorem long_error_strands :
    DueAnswer (dueStore day) (passAt day (by decide)).now.instant 10 [0] ∧
      ¬Finishes (failingEmail (String.ofList (List.replicate 1001 'x')))
        (passAt day (by decide)) (dueStore day) [0] ∧
      ∃ s' e, dispatchDueTasks (failingEmail (String.ofList (List.replicate 1001 'x')))
          (passAt day (by decide)) (dueStore day) [0] = (s', .error e) ∧
        ∃ t, s'.outreachTasks[0]? = some t ∧ t.status = .dispatching := by
  have hids : DueAnswer (dueStore day) (passAt day (by decide)).now.instant 10 [0] :=
    dueAnswer_dueTaskIds (dueStore day) _ 10
  have hargs : (passAt day (by decide)).Accepted := by
    constructor <;> decide
  have hlong : ¬Recordable (failingEmail (String.ofList (List.replicate 1001 'x')))
      (passAt day (by decide)) 0 (dueStore day) [0] := by
    intro h
    have hfit := (h 0 0 _ rfl rfl).1
    rw [fitsString, String.length_ofList, List.length_replicate] at hfit
    exact absurd hfit (by decide)
  obtain ⟨s', e, hrun, k, hk, hleft⟩ := foldl_not_recordable hids.dueIds hlong
  obtain rfl : k = 0 := List.mem_singleton.mp hk
  rw [← dispatchDueTasks_accepted hargs] at hrun
  refine ⟨hids, ?_, s', e, hrun, hleft⟩
  rintro ⟨s₁, hok, -⟩
  rw [hrun] at hok
  simp at hok

end Orchestrator.Workers
