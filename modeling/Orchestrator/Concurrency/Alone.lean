import Orchestrator.Concurrency.Sessions

/-!
# Sessions that run alone

While no other session holds a row lock, the statements of one call up to its commit
compute what the function computes that runs in one step: the claim and the settlement of
a pass, a manual result, a planned task and both cancellations. The interleaved writers
are therefore the sequential ones, taken apart.
-/

namespace Orchestrator.Concurrency

open Base Domain Orchestration Workers

/-- A write of one task with its audit row. -/
def writeTask (s : Store) (k : Nat) (f : OutreachTask → OutreachTask) (row : AuditEvent) : Store :=
  { s with outreachTasks := s.outreachTasks.modify k f }.appendAuditEvent row

/-- The tables as a session's commit would leave them. -/
def publishedBy (w : Nat) (db : Db OutreachTask AuditEvent) : Store :=
  { Store.empty with outreachTasks := (db.commit w).rows, auditEvents := (db.commit w).log }

/-- The same after one more write. -/
theorem publishedBy_write {w k : Nat} {db db' : Db OutreachTask AuditEvent}
    {f : OutreachTask → OutreachTask} {row : AuditEvent}
    (hrows : (db'.commit w).rows = (db.commit w).rows.modify k f)
    (hlog : (db'.commit w).log = (db.commit w).log ++ [row]) :
    publishedBy w db' = writeTask (publishedBy w db) k f row := by
  rw [publishedBy, hrows, hlog]
  rfl

namespace State

/-- The tables as a session would leave them if it committed now. -/
def published (s : State) (w : Nat) : Store := publishedBy w s.db

variable {s : State} {w : Nat}

/-- A session without changes would leave the tables as they are. -/
theorem published_of_txns_eq_nil (h : s.db.txns w = []) : s.published w = s.store := by
  simp [published, publishedBy, store, h]

@[simp] theorem sessions_execute (db : Db OutreachTask AuditEvent) (p : Session) :
    (s.execute w db p).sessions w = p := Function.update_self ..

@[simp] theorem sessions_become (p : Session) : (s.become w p).sessions w = p :=
  Function.update_self ..

end State

variable {s : State} {w : Nat}

/-- A commit that is due. -/
theorem step_commit {p : Session} (h : (s.sessions w).committed = some p) :
    step s (.commit w) = s.execute w (s.db.commit w) p := by
  simp only [step, commit, h]

/-- A commit publishes what its session would leave. -/
theorem commit_of_committed {p : Session} (h : (s.sessions w).committed = some p) :
    (step s (.commit w)).store = s.published w ∧ (step s (.commit w)).sessions w = p := by
  rw [step_commit h]
  exact ⟨rfl, State.sessions_execute _ _⟩

/-- A session that has nothing to commit does nothing. -/
theorem commit_of_not_committed (h : (s.sessions w).committed = none) :
    step s (.commit w) = s := by
  simp only [step, commit, h]

/-- A session runs alone and has not changed anything yet. -/
structure State.Quiet (s : State) (w : Nat) : Prop where
  free : ∀ k, s.db.free w k = true
  txns : s.db.txns w = []

/-- What an update of a quiet session does to the committed tables. -/
theorem State.Quiet.update (h : s.Quiet w) (k : Nat) (p : OutreachTask → Bool)
    (f : OutreachTask → OutreachTask) (e : OutreachTask → AuditEvent) :
    (∃ t db, s.store.outreachTasks[k]? = some t ∧ p t = true ∧
        s.db.update w k p f e = .hits t db ∧
        ∀ q, (s.execute w db q).published w = writeTask s.store k f (e t)) ∨
      s.db.update w k p f e = .misses ∧ (s.store.outreachTasks[k]?).any p = false := by
  have hpub := State.published_of_txns_eq_nil h.txns
  have htasks : (s.db.commit w).rows = s.store.outreachTasks :=
    congrArg Store.outreachTasks hpub
  have hupdate := (Db.solo_of_txns_eq_nil h.free h.txns).update k p f e
  rcases hupdate with ⟨t, db, ht, hp, hu, -, hrows, hlog⟩ | ⟨hu, hmiss⟩
  · refine Or.inl ⟨t, db, by rw [← htasks, ht], hp, hu, fun q => ?_⟩
    rw [← hpub]
    exact publishedBy_write hrows hlog
  · exact Or.inr ⟨hu, by rw [← htasks, hmiss]⟩

/-! ### Passes -/

/-- A claim that finds its row due. -/
theorem claimTask_hit {s : Store} {taskId : Nat} {t : OutreachTask} {now : Int}
    (ht : s.outreachTasks[taskId]? = some t) (hdue : due now t = true) (workerId : WorkerId) :
    claimTask s taskId now workerId = (writeTask s taskId claimWrite
      (dispatchStarted workerId taskId (claimWrite t)), some (claimWrite t)) := by
  simp [claimTask, Table.updateWhere, ht, hdue, writeTask]

/-- A claim that does not find its row due. -/
theorem claimTask_miss {s : Store} {taskId : Nat} {now : Int}
    (h : (s.outreachTasks[taskId]?).any (due now) = false) (workerId : WorkerId) :
    claimTask s taskId now workerId = (s, none) := by
  simp [claimTask, Table.updateWhere, h]

/-- A claim alone is `claimTask`. -/
theorem claim_alone (h : s.Quiet w) {config : PassConfig} {taskId : Nat} {queue : List Nat}
    (hs : s.sessions w = .pass config (taskId :: queue) .ready) :
    let s' := run step s [.claim w, .commit w]
    let claimed := claimTask s.store taskId config.now config.workerId
    s'.store = claimed.1 ∧ s'.sessions w = .pass config queue
      (claimed.2.elim .ready (WorkerPhase.claimed taskId)) := by
  intro s' claimed
  have hs' : s' = step (claim s w) (.commit w) := rfl
  rcases h.update taskId (due config.now) claimWrite
      (fun t => dispatchStarted config.workerId taskId (claimWrite t)) with
    ⟨t, db, ht, hdue, hu, hpub⟩ | ⟨hu, hmiss⟩
  · have hclaimed : claimed = (writeTask s.store taskId claimWrite
        (dispatchStarted config.workerId taskId (claimWrite t)), some (claimWrite t)) := by
      simp [claimed, claimTask, Table.updateWhere, ht, hdue, writeTask]
    have hclaim : claim s w =
        s.execute w db (.pass config queue (.claiming taskId (claimWrite t))) := by
      simp only [claim, hs, hu]
    have hcommit := commit_of_committed (s := claim s w) (w := w)
      (p := .pass config queue (.claimed taskId (claimWrite t)))
      (by rw [hclaim, State.sessions_execute]; rfl)
    rw [hs', hclaimed, hcommit.1, hcommit.2, hclaim, hpub]
    exact ⟨rfl, rfl⟩
  · have hclaimed : claimed = (s.store, none) := by
      simp [claimed, claimTask, Table.updateWhere, hmiss]
    have hclaim : claim s w = s.execute w (s.db.rollback w) (.pass config queue .ready) := by
      simp only [claim, hs, hu]
    rw [hs', hclaim, commit_of_not_committed (by rw [State.sessions_execute]; rfl), hclaimed,
      State.sessions_execute]
    exact ⟨rfl, rfl⟩

/-- What an operation commits if it does not raise. -/
def committedOr (s : Store) : Except Failure Store → Store
  | .ok s' => s'
  | .error _ => s

/-- A settlement that finds its row dispatching. -/
theorem settleAttempt_hit {s : Store} {taskId : Nat} {task t : OutreachTask}
    {config : PassConfig} (ht : s.outreachTasks[taskId]? = some t) (hd : dispatching t = true)
    (outcome : SendOutcome) : settleAttempt s taskId task outcome config =
      if outcomeFits outcome then
        .ok (writeTask s taskId (settleWrite config task outcome)
          (settleRow config taskId task outcome))
      else .error (.dataError "last_error") := by
  cases outcome with
  | delivered result =>
    simp [settleAttempt, recordSuccess, Table.updateWhere, ht, hd, outcomeFits, settleWrite,
      settleRow, writeTask]
  | raised error =>
    simp [settleAttempt, recordFailure, Table.updateWhere, ht, hd, outcomeFits, settleWrite,
      settleRow, writeTask]
    rfl

/-- A settlement that has been superseded. -/
theorem settleAttempt_miss {s : Store} {taskId : Nat} (task : OutreachTask)
    (config : PassConfig) (h : (s.outreachTasks[taskId]?).any dispatching = false)
    (outcome : SendOutcome) : settleAttempt s taskId task outcome config = .ok s := by
  cases outcome <;> simp [settleAttempt, recordSuccess, recordFailure, Table.updateWhere, h]

/-- A settlement alone is `settleAttempt`. -/
theorem settle_alone (h : s.Quiet w) {config : PassConfig} {taskId : Nat} {queue : List Nat}
    {task : OutreachTask} {outcome : SendOutcome}
    (hs : s.sessions w = .pass config queue (.sent taskId task outcome)) :
    (run step s [.settle w, .commit w]).store =
      committedOr s.store (settleAttempt s.store taskId task outcome config) := by
  have hs' : run step s [.settle w, .commit w] = step (settle s w) (.commit w) := rfl
  rcases h.update taskId dispatching (settleWrite config task outcome)
      (fun _ => settleRow config taskId task outcome) with
    ⟨t, db, ht, hd, hu, hpub⟩ | ⟨hu, hmiss⟩
  · rw [settleAttempt_hit ht hd]
    by_cases hfits : outcomeFits outcome = true
    · have hsettle : settle s w =
          s.execute w db (.pass config queue (.settling taskId task outcome)) := by
        simp only [settle, hs, hu, hfits, if_true]
      have hcommit := commit_of_committed (s := settle s w) (w := w)
        (p := .pass config queue .ready) (by rw [hsettle, State.sessions_execute]; rfl)
      rw [hs', hcommit.1, hsettle, hpub, if_pos hfits]
      rfl
    · have hsettle : settle s w = s.execute w (s.db.rollback w) .idle := by
        simp only [settle, hs, hu, hfits]
        rfl
      rw [hs', hsettle, commit_of_not_committed (by rw [State.sessions_execute]; rfl),
        if_neg hfits]
      rfl
  · have hsettle : settle s w = s.execute w (s.db.rollback w) (.pass config queue .ready) := by
      simp only [settle, hs, hu]
    rw [hs', hsettle, commit_of_not_committed (by rw [State.sessions_execute]; rfl),
      settleAttempt_miss task config hmiss]
    rfl

/-! ### Manual results -/

/-- A manual result whose row is still as it was loaded. -/
theorem recordManualDeliveryResult_hit {s : Store} {taskId : Nat} {task t : OutreachTask}
    {body : DeliveryResultRequest} (ht : s.outreachTasks[taskId]? = some t)
    (hs : t.status = task.status) (hcorrelation : t.correlationId = task.correlationId)
    (hallowed : allowedManualDeliverySourceStatus task.status = true)
    (hfits : lastErrorRefused (manualLastError body) = none) :
    recordManualDeliveryResult s taskId task.status body =
      .ok (writeTask s taskId (manualWrite body)
        (deliveryResultRecorded taskId task task.status body)) := by
  have hrow : deliveryResultRecorded taskId t task.status body =
      deliveryResultRecorded taskId task task.status body := by
    simp only [deliveryResultRecorded, hcorrelation]
  simp [recordManualDeliveryResult, hallowed, ht, Table.updateWhere, hs, hfits, hrow, writeTask]

/-- A manual result that is not recorded. -/
theorem recordManualDeliveryResult_miss {s : Store} {taskId : Nat} {status : OutreachTaskStatus}
    {body : DeliveryResultRequest}
    (h : (s.outreachTasks[taskId]?).any (fun t => t.status = status) = false ∨
      lastErrorRefused (manualLastError body) ≠ none) :
    committedOr s (recordManualDeliveryResult s taskId status body) = s := by
  unfold recordManualDeliveryResult
  split
  · split
    · rfl
    · next t ht =>
      rw [ht] at h
      rcases h with h | h
      · simp only [Table.updateWhere, ht, h]
        rfl
      · obtain ⟨e, he⟩ := Option.ne_none_iff_exists'.mp h
        simp only [he]
        split <;> rfl
  · rfl

private theorem not_committed_of_free {p : Session} (h : p.free = true) : p.committed = none := by
  unfold Session.free at h
  split at h
  · rfl
  · rfl
  · rfl
  · cases h

private theorem writeResult_of_free (h : (s.sessions w).free = true) : writeResult s w = s := by
  unfold writeResult
  split
  · next hs =>
    rw [hs] at h
    cases h
  · rfl

/-- A manual result alone is `recordManualDeliveryResult` with the status that it loaded. -/
theorem manual_alone (h : s.Quiet w) (hfree : (s.sessions w).free = true) {taskId : Nat}
    {task : OutreachTask} (htask : s.db.rows[taskId]? = some task) (body : DeliveryResultRequest) :
    (run step s [.loadTask w taskId body, .writeResult w, .commit w]).store =
      committedOr s.store (recordManualDeliveryResult s.store taskId task.status body) := by
  have htask' : s.store.outreachTasks[taskId]? = some task := htask
  by_cases hallowed : allowedManualDeliverySourceStatus task.status = true
  · have hload : step s (.loadTask w taskId body) = s.become w (.manual taskId task body) := by
      simp only [step, loadTask, htask, hallowed, startCall, hfree, if_true]
    have hquiet : (s.become w (.manual taskId task body)).Quiet w := ⟨h.free, h.txns⟩
    rcases hquiet.update taskId (fun t => t.status = task.status) (manualWrite body)
        (fun _ => deliveryResultRecorded taskId task task.status body) with
      ⟨t, db, ht, hp, hu, hpub⟩ | ⟨hu, hmiss⟩
    · by_cases hfits : lastErrorRefused (manualLastError body) = none
      · have hwrite : writeResult (s.become w (.manual taskId task body)) w =
            (s.become w (.manual taskId task body)).execute w db (.recorded taskId) := by
          simp only [writeResult, State.sessions_become, hu, hfits, Option.isNone_none,
            if_true]
        have hcommit := commit_of_committed
          (s := writeResult (s.become w (.manual taskId task body)) w) (w := w) (p := .idle)
          (by rw [hwrite, State.sessions_execute]; rfl)
        rw [run_cons, hload]
        refine hcommit.1.trans ?_
        rw [hwrite, hpub]
        rw [recordManualDeliveryResult_hit htask' rfl rfl hallowed hfits]
        rfl
      · have hwrite : writeResult (s.become w (.manual taskId task body)) w =
            (s.become w (.manual taskId task body)).execute w
              ((s.become w (.manual taskId task body)).db.rollback w) .idle := by
          have hrefused := mt Option.isNone_iff_eq_none.mp hfits
          simp only [writeResult, State.sessions_become, hu, hrefused]
          rfl
        have hcommit := commit_of_not_committed
          (s := writeResult (s.become w (.manual taskId task body)) w) (w := w)
          (by rw [hwrite, State.sessions_execute]; rfl)
        rw [run_cons, hload]
        refine (congrArg State.store hcommit).trans ?_
        rw [hwrite]
        rw [recordManualDeliveryResult_miss (Or.inr hfits)]
        rfl
    · change (s.store.outreachTasks[taskId]?).any _ = false at hmiss
      rw [htask'] at hmiss
      simp at hmiss
  · have hload : step s (.loadTask w taskId body) = s := by
      simp only [step, loadTask, htask, hallowed]
      rfl
    have hwrite : step s (.writeResult w) = s := writeResult_of_free hfree
    rw [run_cons, hload, run_cons, hwrite, run_cons,
      commit_of_not_committed (not_committed_of_free hfree)]
    simp [recordManualDeliveryResult, hallowed, committedOr]

/-! ### Plans -/

/-- An insert of a planning session leaves what the schedule exit leaves. -/
theorem insert_alone {ctx : EventContext} (hs : s.sessions w = .planning ctx) {st st' : PlanLoop}
    (hstore : st.store = s.published w) {clock : Int} {decisionId : Nat}
    {channel : OutreachChannel} {scheduledAt : Datetime}
    (hok : st.schedule ctx clock decisionId channel scheduledAt = .ok st') :
    (step s (.insertTask w channel decisionId scheduledAt clock)).published w = st'.store := by
  unfold PlanLoop.schedule at hok
  obtain ⟨instant, hinstant, hok⟩ := bind_eq_ok.mp hok
  have hinsert : step s (.insertTask w channel decisionId scheduledAt clock) =
      s.execute w (s.db.insert w (taskRow ctx channel decisionId instant clock)
        (taskScheduledRow ctx channel scheduledAt)) (.planning ctx) := by
    simp only [step, insertTask, hs, orThrow_eq_ok.mp hinstant]
  dsimp only at hok
  split at hok
  · cases hok
  · cases hok
    rw [hinsert, hstore]
    simp [State.published, publishedBy, State.execute, Store.appendAuditEvent, Change.rows,
      Change.entry]

/-! ### Cancellations -/

/-- One conditional update of an operator's loop alone is `operatorCancelTask`. -/
private theorem operatorNext_alone (h : s.db.Solo w) {account : Account} {reason : String}
    {correlationId : Nat} {task : OutreachTask × Nat} {tasks : List (OutreachTask × Nat)}
    {count : Nat}
    (hs : s.sessions w = .operator account reason correlationId (task :: tasks) count) :
    let s' := step s (.cancelNext w)
    ∃ count', s'.db.Solo w ∧ s'.sessions w = .operator account reason correlationId tasks count' ∧
      operatorCancelTask (operatorCancelledRow account reason correlationId)
        (s.published w, count) task = (s'.published w, count') := by
  intro s'
  rcases h.update task.2 scheduled OutreachTask.cancel
      (fun _ => operatorCancelledRow account reason correlationId task) with
    ⟨t, db, ht, hp, hu, hsolo, hrows, hlog⟩ | ⟨hu, hmiss⟩
  · have hs' : s' = s.execute w db (.operator account reason correlationId tasks (count + 1)) := by
      show cancelNext s w = _
      simp only [cancelNext, hs, hu]
    have hget : (s.published w).outreachTasks[task.2]? = some t := ht
    have hpub : s'.published w = writeTask (s.published w) task.2 OutreachTask.cancel
        (operatorCancelledRow account reason correlationId task) := by
      rw [hs']
      exact publishedBy_write hrows hlog
    refine ⟨count + 1, by rw [hs']; exact hsolo, by rw [hs', State.sessions_execute], ?_⟩
    rw [hpub]
    simp only [operatorCancelTask, Table.updateWhere, hget, Option.any_some, hp, if_true]
    rfl
  · have hs' : s' = s.become w (.operator account reason correlationId tasks count) := by
      show cancelNext s w = _
      simp only [cancelNext, hs, hu]
    have hget : ((s.published w).outreachTasks[task.2]?).any scheduled = false := hmiss
    refine ⟨count, by rw [hs']; exact h, by rw [hs', State.sessions_become], ?_⟩
    simp only [operatorCancelTask, Table.updateWhere, hget, hs']
    rfl

private theorem operatorLoop_alone {account : Account} {reason : String} {correlationId : Nat}
    (tasks : List (OutreachTask × Nat)) {s : State} {count : Nat} (h : s.db.Solo w)
    (hs : s.sessions w = .operator account reason correlationId tasks count) :
    let s' := run step s (List.replicate tasks.length (.cancelNext w))
    ∃ count', s'.sessions w = .operator account reason correlationId [] count' ∧
      tasks.foldl (operatorCancelTask (operatorCancelledRow account reason correlationId))
        (s.published w, count) = (s'.published w, count') := by
  induction tasks generalizing s count with
  | nil => exact ⟨count, hs, rfl⟩
  | cons task tasks ih =>
    obtain ⟨count', hsolo, hs', hstep⟩ := operatorNext_alone h hs
    obtain ⟨count'', hs'', hloop⟩ := ih hsolo hs'
    refine ⟨count'', hs'', ?_⟩
    rw [List.foldl_cons, hstep]
    exact hloop

/-- An operator's cancellation alone is `cancelScheduledAccountOutreach`. -/
theorem operator_alone (h : s.Quiet w) (hfree : (s.sessions w).free = true) (accountId : Nat)
    (account : Account) (reason : String) (correlationId : Nat) :
    let tasks := Table.select (operatorCancellable accountId) s.db.rows
    let s' := run step s (.startOperator w accountId account reason correlationId ::
      (List.replicate tasks.length (.cancelNext w) ++ [.commit w]))
    let cancelled := cancelScheduledAccountOutreach s.store accountId account reason correlationId
    s'.store = cancelled.1 ∧ s'.sessions w = .returned cancelled.2 := by
  intro tasks s' cancelled
  have hstart : step s (.startOperator w accountId account reason correlationId) =
      s.become w (.operator account reason correlationId tasks 0) := by
    simp only [step, startCall, hfree, if_true]
    rfl
  obtain ⟨count, hs, hloop⟩ := operatorLoop_alone tasks
    (s := s.become w (.operator account reason correlationId tasks 0))
    (Db.solo_of_txns_eq_nil h.free h.txns) (State.sessions_become _)
  have hcancelled : cancelled = tasks.foldl
      (operatorCancelTask (operatorCancelledRow account reason correlationId))
      ((s.become w (.operator account reason correlationId tasks 0)).published w, 0) := by
    show _ = tasks.foldl _ (s.published w, 0)
    rw [State.published_of_txns_eq_nil h.txns]
    rfl
  obtain ⟨hstore, hsession⟩ := commit_of_committed (p := .returned count) (by rw [hs]; rfl)
  rw [hcancelled, hloop]
  show (run step s (_ :: _)).store = _ ∧ (run step s (_ :: _)).sessions w = _
  rw [run_cons, hstart, run_concat]
  exact ⟨hstore, hsession⟩

private theorem cancelLoop_alone {ctx : EventContext} (tasks : List (OutreachTask × Nat))
    {s : State} {count : Nat} (h : s.db.Solo w)
    (hrows : ∀ x ∈ tasks, ((s.published w).outreachTasks[x.2]?).isSome = true)
    (hs : s.sessions w = .cancelling ctx tasks count) :
    let s' := run step s (List.replicate tasks.length (.cancelNext w))
    s'.sessions w = .cancelling ctx [] count ∧
      s'.published w = tasks.foldl (cancelTask ctx) (s.published w) := by
  induction tasks generalizing s with
  | nil => exact ⟨hs, rfl⟩
  | cons task tasks ih =>
    rcases h.update task.2 (fun _ => true) OutreachTask.cancel (fun _ => cancelledRow ctx task) with
      ⟨t, db, ht, hp, hu, hsolo, hwritten, hlog⟩ | ⟨hu, hmiss⟩
    · have hnext : step s (.cancelNext w) = s.execute w db (.cancelling ctx tasks count) := by
        show cancelNext s w = _
        simp only [cancelNext, hs, hu]
      have hpub : (s.execute w db (.cancelling ctx tasks count)).published w =
          cancelTask ctx (s.published w) task := publishedBy_write hwritten hlog
      have hrows' : ∀ x ∈ tasks, (((s.execute w db (.cancelling ctx tasks count)).published
          w).outreachTasks[x.2]?).isSome = true := by
        intro x hx
        rw [hpub]
        have hx' := hrows x (List.mem_cons_of_mem task hx)
        simpa [cancelTask, Store.appendAuditEvent] using hx'
      obtain ⟨hs', hloop⟩ := ih (s := s.execute w db (.cancelling ctx tasks count)) hsolo hrows'
        (State.sessions_execute _ _)
      show (run step (step s (.cancelNext w)) _).sessions w = _ ∧
        (run step (step s (.cancelNext w)) _).published w = _
      rw [hnext, List.foldl_cons, ← hpub]
      exact ⟨hs', hloop⟩
    · obtain ⟨t, ht⟩ := Option.isSome_iff_exists.mp (hrows task List.mem_cons_self)
      have ht : (s.db.commit w).rows[task.2]? = some t := ht
      rw [ht] at hmiss
      cases hmiss

/-- An event's cancellation alone is `cancelScheduledTasks`. -/
theorem cancelling_alone (h : s.Quiet w) (hfree : (s.sessions w).free = true)
    (ctx : EventContext) :
    let tasks := Table.select (cancellable ctx) s.db.rows
    let s' := run step s (.startCancelling w ctx ::
      (List.replicate tasks.length (.cancelNext w) ++ [.commit w]))
    let cancelled := cancelScheduledTasks s.store ctx
    s'.store = cancelled.1 ∧ s'.sessions w = .returned cancelled.2 := by
  intro tasks s' cancelled
  have hstart : step s (.startCancelling w ctx) =
      s.become w (.cancelling ctx tasks tasks.length) := by
    simp only [step, startCall, hfree, if_true]
    rfl
  have hpub : (s.become w (.cancelling ctx tasks tasks.length)).published w = s.store :=
    State.published_of_txns_eq_nil h.txns
  have hrows : ∀ x ∈ tasks, (((s.become w (.cancelling ctx tasks tasks.length)).published
      w).outreachTasks[x.2]?).isSome = true := by
    rintro ⟨t, k⟩ hx
    rw [hpub]
    exact Option.isSome_iff_exists.mpr ⟨t, (Table.mem_select.mp hx).1⟩
  obtain ⟨hs, hloop⟩ := cancelLoop_alone tasks
    (s := s.become w (.cancelling ctx tasks tasks.length))
    (Db.solo_of_txns_eq_nil h.free h.txns) hrows (State.sessions_become _)
  obtain ⟨hstore, hsession⟩ := commit_of_committed (p := .returned tasks.length) (by rw [hs]; rfl)
  show (run step s (_ :: _)).store = _ ∧ (run step s (_ :: _)).sessions w = _
  rw [run_cons, hstart, run_concat]
  rw [hloop, hpub] at hstore
  exact ⟨hstore, hsession⟩

end Orchestrator.Concurrency
