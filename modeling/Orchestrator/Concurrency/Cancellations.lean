import Orchestrator.Concurrency.StatusMachine

/-!
# Cancellations counted once

What cancelling requests reply against what they changed. An operator request counts the
rows that its conditional updates hit; an event-driven one counts the rows that its
`SELECT` returned. The two notions agree, and every cancelled task has one
`outreach_cancelled` row, as long as the event-driven updates still find the tasks
scheduled; two events that select the same task both cancel and count it.
-/

namespace Orchestrator.Concurrency

open Base Domain Orchestration Workers

/-- An `outreach_cancelled` row of a task. -/
def cancellation (taskId : Nat) (a : AuditEvent) : Bool :=
  a.entityType = .outreachTask && a.entityId = taskId && a.eventType = .outreachCancelled

/-- The number of `outreach_cancelled` rows of a task. -/
def cancellations (log : List AuditEvent) (taskId : Nat) : Nat := log.countP (cancellation taskId)

/-- A cancelled task. -/
def cancelled (t : OutreachTask) : Bool := t.status = .cancelled

/-- The tasks that a statement takes from scheduled to cancelled in the committed rows. -/
def turned (s : State) (st : Statement) : List Nat :=
  (List.range s.db.rows.length).filter fun k =>
    (s.db.rows[k]?).any scheduled && ((step s st).db.rows[k]?).any cancelled

/-- The `cancelled_tasks` of the response that a statement returns. -/
def replied (s : State) : Statement → Nat
  | .commit w =>
    match (s.sessions w).committed with
    | some (.returned count) => count
    | _ => 0
  | _ => 0

/-- The statement is an event-driven cancellation's row update that executes now and
finds a row that is no longer scheduled. -/
def late (s : State) (st : Statement) : Bool := (eventTarget s st).any fun t => !scheduled t

/-- Every cancelled task has one `outreach_cancelled` row, no task is cancelled twice, and
the responses count the tasks that were. -/
structure CountedOnce (s : State) (requests : List Statement) : Prop where
  audited : ∀ (k : Nat) (t : OutreachTask), (run step s requests).db.rows[k]? = some t →
    t.status = .cancelled → cancellations (run step s requests).db.log k = 1
  changes : (collect step turned s requests).Nodup
  replies : total step replied s requests = (collect step turned s requests).length

/-! ### Single writes -/

/-- The log has one `outreach_cancelled` row for a cancelled task and none for another. -/
def Audited (rows : List OutreachTask) (log : List AuditEvent) : Prop :=
  ∀ k, cancellations log k = if (rows[k]?).any cancelled then 1 else 0

@[simp] theorem cancellations_concat (log : List AuditEvent) (a : AuditEvent) (k : Nat) :
    cancellations (log ++ [a]) k = cancellations log k + if cancellation k a then 1 else 0 := by
  simp [cancellations, List.countP_append, List.countP_singleton]

/-- A write that finds its row scheduled, if it cancels, audits the change or makes none. -/
theorem TaskWrite.cancels {k : Nat} {t t' : OutreachTask} {a : AuditEvent}
    (h : TaskWrite k t t' a) (hc : CancelsFrom (fun x => x = .scheduled) k t t' a) :
    (a.eventType = .outreachCancelled ∧ t.status = .scheduled ∧ t'.status = .cancelled) ∨
      (a.eventType ≠ .outreachCancelled ∧ t.status ≠ .cancelled ∧ t'.status ≠ .cancelled) := by
  cases h with
  | claim now workerId hdue =>
    have hs := scheduled_of_due hdue
    exact Or.inr ⟨by simp [dispatchStarted], by simp [hs], by simp [claimWrite]⟩
  | settle config copy outcome hd _ =>
    refine Or.inr ⟨?_, by simp [hd], ?_⟩
    · cases outcome <;> simp [settleRow, dispatchSucceeded, dispatchFailed]
    · cases outcome with
      | delivered => simp [settleWrite, successWrite]
      | raised =>
        simp only [settleWrite, failureWrite, finalStatus]
        split <;> simp
  | close h =>
    cases h with
    | manual task body hs hallowed =>
      refine Or.inr ⟨by simp [deliveryResultRecorded], ?_, ?_⟩
      · intro hcancelled
        rw [hcancelled] at hallowed
        cases hallowed
      · cases hb : body.status <;> simp [manualWrite, DeliveryStatus.toStatus, hb]
    | operator account reason correlationId task hs => exact Or.inl ⟨rfl, hs, rfl⟩
    | event ctx task => exact Or.inl ⟨rfl, hc rfl, rfl⟩

/-- Every such write keeps the log in step with the rows. -/
theorem Audited.write {rows : List OutreachTask} {log : List AuditEvent} {k : Nat}
    {t t' : OutreachTask} {a : AuditEvent} (h : Audited rows log) (row : rows[k]? = some t)
    (hw : TaskWrite k t t' a) (hc : CancelsFrom (fun x => x = .scheduled) k t t' a) :
    Audited (rows.set k t') (log ++ [a]) := by
  intro i
  obtain ⟨hentity, hid⟩ := hw.entity
  rw [cancellations_concat, h i]
  by_cases hi : i = k
  · subst hi
    rw [List.getElem?_set_self (List.getElem?_eq_some_iff.mp row).1, row]
    rcases hw.cancels hc with ⟨he, hs, hs'⟩ | ⟨he, hs, hs'⟩
    · simp [cancellation, cancelled, hentity, hid, he, hs, hs']
    · simp [cancellation, cancelled, he, hs, hs']
  · rw [List.getElem?_set_ne (Ne.symm hi)]
    simp [cancellation, hid, Ne.symm hi]

/-- A new task is not cancelled. -/
theorem Audited.insert {rows : List OutreachTask} {log : List AuditEvent} {t : OutreachTask}
    {a : AuditEvent} (h : Audited rows log) (hn : NewTask t a) :
    Audited (rows ++ [t]) (log ++ [a]) := by
  intro i
  have ha : cancellation i a = false := by
    cases hn
    simp [cancellation, taskScheduledRow, plannerAudit]
  have ht : cancelled t = false := by
    cases hn
    rfl
  rw [cancellations_concat, ha, h i, List.getElem?_append]
  by_cases hi : i < rows.length
  · simp [hi]
  · rw [List.getElem?_eq_none (Nat.le_of_not_lt hi)]
    cases hz : [t][i - rows.length]? with
    | none => simp [hi]
    | some u =>
      obtain rfl := List.mem_singleton.mp (List.mem_of_getElem? hz)
      simp [hi, ht]

/-! ### The counts of the sessions -/

/-- What a cancelling session will reply, against its uncommitted changes. -/
def Tallied : Session → Nat → Prop
  | .cancelling _ tasks count, n => n + tasks.length = count
  | .operator _ _ _ _ count, n => n = count
  | _, _ => True

private theorem tallied_move {sessions : Nat → Session}
    {txns txns' : Nat → List (Change OutreachTask AuditEvent)} {w : Nat} {p : Session}
    (h : ∀ v, Tallied (sessions v) (txns v).length) (htxns : ∀ v, v ≠ w → txns' v = txns v)
    (hp : Tallied p (txns' w).length) :
    ∀ v, Tallied (Function.update sessions w p v) (txns' v).length := by
  intro v
  by_cases hv : v = w
  · subst hv
    rwa [Function.update_self]
  · rw [Function.update_of_ne hv, htxns v hv]
    exact h v

private theorem tallied_update {sessions : Nat → Session}
    {txns : Nat → List (Change OutreachTask AuditEvent)} {w : Nat} {p : Session}
    (h : ∀ v, Tallied (sessions v) (txns v).length) {cs : List (Change OutreachTask AuditEvent)}
    (hp : Tallied p cs.length) :
    ∀ v, Tallied (Function.update sessions w p v) (Function.update txns w cs v).length :=
  tallied_move h (fun _ hv => Function.update_of_ne hv ..) (by rwa [Function.update_self])

private theorem tallied_committed {q p : Session} (h : q.committed = some p) (n : Nat) :
    Tallied p n := by
  cases q with
  | pass config queue phase => cases phase <;> cases h <;> trivial
  | cancelling _ tasks => cases tasks <;> cases h; trivial
  | operator _ _ _ tasks => cases tasks <;> cases h; trivial
  | planning | recorded => cases h; trivial
  | idle | manual | returned => cases h

/-- An event-driven session counts what it has selected, an operator what it has hit. -/
theorem step_tallied (s : State) (st : Statement) (hs : Sound s.db s.sessions)
    (h : ∀ w, Tallied (s.sessions w) (s.db.txns w).length) (w : Nat) :
    Tallied ((step s st).sessions w) ((step s st).db.txns w).length := by
  have hstep := step_spec s st
  generalize step s st = s' at hstep
  cases hstep with
  | idle => exact h w
  | @started _ v p free opening =>
    apply tallied_move h (fun _ _ => rfl)
    have htxns : s.db.txns v = [] := (hs.fits v).eq_nil (quiet_of_free free)
    rw [htxns]
    cases opening with
    | cancelling => exact Nat.zero_add _
    | operator => rfl
    | pass | planning | manual => trivial
  | dropped clean =>
    apply tallied_update h
    rcases clean with rfl | ⟨config, queue, rfl⟩ <;> trivial
  | called | delivered | raised =>
    apply tallied_move h (fun _ _ => rfl)
    trivial
  | claiming | settling | inserted | recorded =>
    apply tallied_update h
    trivial
  | @eventCancelled v count ctx task tasks t session row free =>
    apply tallied_update h
    have hv := h v
    rw [session] at hv
    simp only [Tallied, List.length_append, List.length_cons, List.length_nil] at hv ⊢
    omega
  | @operatorCancelled v count _ _ _ task tasks t session row _ free =>
    apply tallied_update h
    have hv := h v
    rw [session] at hv
    simp only [Tallied, List.length_append, List.length_cons, List.length_nil] at hv ⊢
    omega
  | @operatorSkipped v count _ _ _ task tasks session =>
    apply tallied_move h (fun _ _ => rfl)
    have hv := h v
    rwa [session] at hv
  | @committed v p session => exact tallied_update h (tallied_committed session _) w

/-! ### Commits -/

/-- The invariant of a run without late updates. -/
structure Accounted (s : State) : Prop where
  sound : Sound s.db s.sessions
  sighted : s.db.Grounded (CancelsFrom fun x => x = .scheduled) fun _ _ => True
  tallied : ∀ w, Tallied (s.sessions w) (s.db.txns w).length
  audited : Audited s.db.rows s.db.log

/-- A statement that is not late keeps the invariant. -/
theorem step_accounted (s : State) (st : Statement) (h : Accounted s) (hst : late s st = false) :
    Accounted (step s st) where
  sound := step_sound s st h.sound
  sighted := by
    refine step_cancelsFrom (C := fun x => x = .scheduled) rfl s st h.sighted ?_
    intro t ht
    simpa [late, ht, scheduled] using hst
  tallied := step_tallied s st h.sound h.tallied
  audited := by
    have hstep := step_spec s st
    generalize step s st = s' at hstep
    cases hstep with
    | @committed w _ _ =>
      refine ((h.sound.grounded w).and (h.sighted w)).commit_induction (P := Audited) ?_ ?_
        (fun _ _ hr => hr) h.audited
      · exact fun rows log k t t' a ha row hw => ha.write row hw.1 hw.2
      · exact fun rows log t a ha hn => ha.insert hn.1
    | _ => exact h.audited

/-- The invariant holds before the first statement. -/
theorem start_accounted (planned : PlannedTasks) : Accounted (start planned) where
  sound := start_sound planned
  sighted := Db.grounded_ofRows planned.rows
  tallied _ := trivial
  audited k := by
    have hrow : ((start planned).db.rows[k]?).any cancelled = false := by
      rw [Option.any_eq_false]
      intro t ht
      have hs := planned.scheduled t (List.mem_of_getElem? ht)
      simp [cancelled, hs]
    rw [hrow]
    rfl

theorem mem_turned {s : State} {st : Statement} {k : Nat} :
    k ∈ turned s st ↔ (∃ t, s.db.rows[k]? = some t ∧ t.status = .scheduled) ∧
      ∃ t, (step s st).db.rows[k]? = some t ∧ t.status = .cancelled := by
  simp only [turned, List.mem_filter, List.mem_range, Bool.and_eq_true, Option.any_eq_true,
    scheduled, cancelled, decide_eq_true_eq]
  constructor
  · exact fun h => h.2
  · rintro ⟨⟨t, ht, hs⟩, h⟩
    exact ⟨(List.getElem?_eq_some_iff.mp ht).1, ⟨t, ht, hs⟩, h⟩

/-- A session about to reply has cancelling changes only, any other session has none. -/
theorem Fits.replies {q p : Session} {cs : List (Change OutreachTask AuditEvent)}
    (h : Fits q cs) (hp : q.committed = some p) (n : Nat) (hq : Tallied q n) :
    (p = .returned n ∧ ∀ c ∈ cs, c.entry.eventType = .outreachCancelled) ∨
      ((∀ count, p ≠ .returned count) ∧
        ∀ c ∈ cs, c.key ≠ none → c.entry.eventType ≠ .outreachCancelled) := by
  cases h with
  | quiet h =>
    unfold Session.quiet at h
    split at h <;> first | cases hp | cases h
  | claiming =>
    cases hp
    simp [Change.entry, dispatchStarted]
  | @settling _ _ _ _ _ outcome =>
    cases hp
    cases outcome <;> simp [Change.entry, settleRow, dispatchSucceeded, dispatchFailed]
  | planning h =>
    cases hp
    exact Or.inr ⟨by simp, fun c hc hkey => absurd (h c hc) hkey⟩
  | @cancelling _ tasks count _ h =>
    cases tasks with
    | nil =>
      cases hp
      obtain rfl : n = count := hq
      exact Or.inl ⟨rfl, h⟩
    | cons => cases hp
  | @operator _ _ _ count tasks _ h =>
    cases tasks with
    | nil =>
      cases hp
      obtain rfl : n = count := hq
      exact Or.inl ⟨rfl, h⟩
    | cons => cases hp
  | recorded =>
    cases hp
    simp [Change.entry, deliveryResultRecorded]

/-- A commit replies with the number of tasks that it cancels. -/
theorem commit_replied {s : State} (h : Accounted s) {w : Nat} {p : Session}
    (hp : (s.sessions w).committed = some p) :
    replied s (.commit w) = (turned s (.commit w)).length := by
  have hrows : (step s (.commit w)).db.rows = (s.db.txns w).foldl Change.rows s.db.rows := by
    simp [step, commit, hp, State.execute]
  have hg := (h.sound.grounded w).and (h.sighted w)
  rcases (h.sound.fits w).replies hp _ (h.tallied w) with ⟨rfl, hentries⟩ | ⟨hother, hentries⟩
  · have hcancels : Grounded (fun _ t t' _ => t.status = .scheduled ∧ t'.status = .cancelled)
        (fun _ _ => False) (fun k => s.db.rows[k]?) (s.db.txns w) := by
      refine hg.strengthen hentries ?_ ?_
      · intro k t t' a hw he
        rcases hw.1.cancels hw.2 with ⟨-, hs⟩ | ⟨hne, -⟩
        · exact hs
        · exact absurd he hne
      · intro t a hn he
        cases hn.1
        simp [Change.entry, taskScheduledRow, plannerAudit] at he
    have hkeys : ∀ k, k ∈ turned s (.commit w) ↔ k ∈ (s.db.txns w).filterMap Change.key := by
      intro k
      rw [mem_turned, hrows]
      exact (hcancels.mem_keys_iff (fun _ _ _ _ hw => hw) (by simp +contextual) k).symm
    have hperm := (List.perm_ext_iff_of_nodup (List.nodup_range.filter _)
      (hcancels.keys_nodup (P := fun t => t.status = .scheduled)
        (Q := fun t => t.status = .cancelled) (fun _ _ _ _ hw => hw) (by simp +contextual))).mpr
      hkeys
    rw [turned, hperm.length_eq, hcancels.length_keys (fun _ _ hn => hn)]
    simp [replied, hp]
  · have hnone : turned s (.commit w) = [] := by
      apply List.eq_nil_iff_forall_not_mem.mpr
      intro k hk
      rw [mem_turned, hrows] at hk
      obtain ⟨⟨t, ht, hs⟩, t', ht', hs'⟩ := hk
      have hkept : Grounded (fun _ _ t' _ => t'.status ≠ .cancelled) (fun _ _ => True)
          (fun k => s.db.rows[k]?) (s.db.txns w) := by
        refine hg.strengthen hentries ?_ fun _ _ _ _ => trivial
        intro k t t' a hw he
        rcases hw.1.cancels hw.2 with ⟨hcancels, -⟩ | ⟨-, -, hs⟩
        · exact absurd hcancels (he (by simp [Change.key]))
        · exact hs
      exact hkept.not_reached (Q := fun t => t.status = .cancelled) (fun _ _ _ _ hw => hw) ht
        (by simp [hs]) ht' hs'
    rw [hnone]
    cases p with
    | returned count => exact absurd rfl (hother count)
    | _ => simp [replied, hp]

/-- Only commits reply, and only commits change committed rows. -/
theorem step_replied (s : State) (st : Statement) (h : Accounted s) :
    replied s st = (turned s st).length := by
  rcases step_rows s st with ⟨w, p, rfl, hp⟩ | ⟨hrows, hdue⟩
  · exact commit_replied h hp
  · have hnone : turned s st = [] := by
      apply List.eq_nil_iff_forall_not_mem.mpr
      intro k hk
      rw [mem_turned, hrows] at hk
      obtain ⟨⟨t, ht, hs⟩, t', ht', hs'⟩ := hk
      obtain rfl := Option.some.inj (ht.symm.trans ht')
      simp [hs] at hs'
    rw [hnone]
    cases st with
    | commit w => simp [replied, hdue w rfl]
    | _ => rfl

/-- A cancelled task stays cancelled. -/
theorem step_cancelled (s : State) (st : Statement) (h : Accounted s) {k : Nat}
    (hk : (s.db.rows[k]?).any cancelled = true) :
    ((step s st).db.rows[k]?).any cancelled = true := by
  have hstep := step_spec s st
  generalize step s st = s' at hstep
  cases hstep with
  | @committed w _ _ =>
    refine ((h.sound.grounded w).and (h.sighted w)).commit_induction (l := s.db.log)
      (P := fun rows _ => (rows[k]?).any cancelled = true) ?_ ?_ (fun _ _ hr => hr) hk
    · intro rows log i t t' a hcancelled row hw
      by_cases hi : k = i
      · subst hi
        rw [row, Option.any_some, cancelled, decide_eq_true_eq] at hcancelled
        rcases hw.1.cancels hw.2 with ⟨-, hs, -⟩ | ⟨-, hs, -⟩
        · rw [hcancelled] at hs
          cases hs
        · exact absurd hcancelled hs
      · rwa [List.getElem?_set_ne (Ne.symm hi)]
    · intro rows log t a hcancelled _
      obtain ⟨u, hu, -⟩ := (Option.any_eq_true _ _).mp hcancelled
      rw [List.getElem?_append_left (List.getElem?_eq_some_iff.mp hu).1]
      exact hcancelled
  | _ => exact hk

/-- In every interleaving in which each event-driven row update still finds its row
scheduled, whatever else runs, cancellations are counted once. -/
theorem cancellations_countedOnce (planned : PlannedTasks) (before requests : List Statement)
    (h : Guarded step (fun s st => late s st = false) (start planned) (before ++ requests)) :
    CountedOnce (run step (start planned) before) requests := by
  obtain ⟨hbefore, hrequests⟩ := (guarded_append (start planned) before requests).mp h
  have hstart := guarded_invariant step_accounted _ (start_accounted planned) before hbefore
  refine ⟨fun k t ht hs => ?_, ?_, ?_⟩
  · have hend := guarded_invariant step_accounted _ hstart requests hrequests
    have hcount := hend.audited k
    rwa [ht, Option.any_some, cancelled, decide_eq_true hs, if_pos rfl] at hcount
  · refine collect_nodup (fun s k => (s.db.rows[k]?).any cancelled = true) step_accounted
      (fun s st k hs _ hk => step_cancelled s st hs hk) ?_ ?_ _ hstart requests hrequests
    · intro s st k _ _ hk hturned
      obtain ⟨⟨t, ht, hs⟩, -⟩ := mem_turned.mp hturned
      simp [ht, cancelled, hs] at hk
    · refine fun s st _ _ => ⟨List.nodup_range.filter _, fun k hk => ?_⟩
      obtain ⟨-, t, ht, hs⟩ := mem_turned.mp hk
      simp [ht, cancelled, hs]
  · exact total_eq_length_collect step_accounted (fun s st hs _ => step_replied s st hs) _ hstart
      requests hrequests

/-! ### Runs on a small deployment -/

/-- The statements of cancelling requests. -/
def requesting : Statement → Bool
  | .startCancelling _ _ | .startOperator _ _ _ _ _ | .cancelNext _ | .commit _ | .crash _ => true
  | _ => false

/-- The planner's view of the `n`-th event of the account `acct-1`. -/
def demoEventContext (n : Nat) (externalId : String) (eventType : EventType) : EventContext :=
  { demoContext externalId eventType with inboundEventId := n, correlationId := n + 1 }

/-- Two events select the planned email; the first cancels it and commits, then the second
does. -/
def demoTwoEvents : List Statement :=
  [.startCancelling 1 (demoEventContext 1 "event-2" .paymentReceived),
    .startCancelling 2 (demoEventContext 2 "event-3" .hardshipRequested),
    .cancelNext 1, .commit 1, .cancelNext 2, .commit 2]

/-- An event and an operator select the planned email; the event cancels it. -/
def demoEventAndOperator : List Statement :=
  [.startCancelling 1 (demoEventContext 1 "event-2" .paymentReceived),
    .startOperator 2 0 (newAccount (System.demoAccount "acct-1") 0) "paused" 7,
    .cancelNext 1, .cancelNext 2, .commit 1, .cancelNext 2, .commit 2]

/-- Two cancelling events count the same task twice. -/
theorem cancelled_twice :
    ¬ ∀ (planned : PlannedTasks) (before requests : List Statement),
      requests.all requesting = true →
        CountedOnce (run step (start planned) before) requests := by
  intro h
  have hreplies := (h .none demoPlanned demoTwoEvents rfl).replies
  revert hreplies
  decide +kernel

example :
    let s := run step (start .none) demoPlanned
    cancellations (run step s demoTwoEvents).db.log 0 = 2 ∧
      total step replied s demoTwoEvents = 2 ∧ collect step turned s demoTwoEvents = [0] := by
  decide +kernel

/-- The operator waits for the event's commit and then skips the task. -/
theorem cancellations_countedOnce_demo :
    CountedOnce (run step (start .none) demoPlanned) demoEventAndOperator := by
  apply cancellations_countedOnce .none demoPlanned demoEventAndOperator
  refine ⟨rfl, rfl, rfl, rfl, rfl, ?_, ?_, rfl, ?_, rfl, trivial⟩ <;> decide +kernel

end Orchestrator.Concurrency
