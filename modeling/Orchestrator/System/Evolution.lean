import Orchestrator.System.Operations

/-!
# How the store evolves

What every commit preserves and how it is seen from one task, one event and one row.
Rows are never removed, identities and owners never change, an opt-out stays, and each
existing task is either untouched or replaced by one write with one audit row. The laws
are proved for a commit and lifted to runs.
-/

namespace Orchestrator.System

open Base Domain Orchestration Workers

/-! ### Audit rows of one task -/

/-- The audit rows of one task, in commit order. -/
def taskRows (log : List AuditEvent) (taskId : Nat) : List AuditEvent :=
  log.filter fun a => a.entityType = .outreachTask && a.entityId = taskId

@[simp] theorem taskRows_append (log rows : List AuditEvent) (taskId : Nat) :
    taskRows (log ++ rows) taskId = taskRows log taskId ++ taskRows rows taskId :=
  List.filter_append _ _

/-- Rows of other entities are not rows of a task. -/
theorem taskRows_eq_nil {rows : List AuditEvent} (h : ∀ a ∈ rows, a.entityType ≠ .outreachTask)
    (taskId : Nat) : taskRows rows taskId = [] := by
  rw [taskRows, List.filter_eq_nil_iff]
  intro a ha
  simp [h a ha]

/-- The row of a write is the only new row of its task. -/
theorem taskRows_singleton {taskId : Nat} {a : AuditEvent}
    (h : a.entityType = .outreachTask ∧ a.entityId = taskId) (k : Nat) :
    taskRows [a] k = if k = taskId then [a] else [] := by
  obtain ⟨ht, rfl⟩ := h
  by_cases hk : k = a.entityId
  · simp [taskRows, ht, hk]
  · simp [taskRows, ht, hk, Ne.symm hk]

/-- Of the rows that a cancellation appends, a task has at most its own. -/
theorem taskRows_cancelled {p : OutreachTask → Bool} {row : OutreachTask × Nat → AuditEvent}
    (hrow : ∀ x, (row x).entityType = .outreachTask ∧ (row x).entityId = x.2)
    (tasks : List OutreachTask) (k : Nat) :
    taskRows ((Table.select p tasks).map row) k =
      ((tasks[k]?).toList.filter p).map (fun t => row (t, k)) := by
  have hkey : (fun a : AuditEvent => decide (a.entityType = .outreachTask) &&
      decide (a.entityId = k)) ∘ row = fun x => decide (x.2 = k) := by
    funext x
    obtain ⟨ht, hid⟩ := hrow x
    simp [ht, hid]
  rw [taskRows, List.filter_map, hkey, Table.filter_select_key, List.map_map]
  rfl

/-- Audit rows that a receipt and a planner call append besides cancellations point at
no task. -/
theorem receiptRows_entity (rt : Runtime) (sub : EventSubmission) (eventId : Nat) :
    ∀ a ∈ receiptRows rt sub eventId, a.entityType = .inboundEvent ∧ a.entityId = eventId ∧
      a.payload.inboundEventId = none := by
  simp [receiptRows, ingestionAudit]

/-- The receipt of an event is no row of a task. -/
@[simp] theorem taskRows_receiptRows (rt : Runtime) (sub : EventSubmission) (eventId k : Nat) :
    taskRows (receiptRows rt sub eventId) k = [] :=
  taskRows_eq_nil (fun a ha => by simp [(receiptRows_entity rt sub eventId a ha).1]) k

/-! ### One task under one commit -/

/-- A task that stays as it is, or is replaced by one write with one audit row. -/
inductive TaskStep (taskId : Nat) (t : OutreachTask) : OutreachTask → List AuditEvent → Prop where
  | same : TaskStep taskId t t []
  | wrote {t' : OutreachTask} {a : AuditEvent} (h : RowWrite taskId t t' a) :
      TaskStep taskId t t' [a]

private theorem cancelled_task {p : OutreachTask → Bool} (row : OutreachTask × Nat → AuditEvent)
    (hp : ∀ t, p t = true → t.status = .scheduled)
    (hrow : ∀ x, (row x).entityType = .outreachTask ∧ (row x).entityId = x.2)
    (htype : ∀ x, (row x).eventType = .outreachCancelled) {tasks : List OutreachTask} {k : Nat}
    {t : OutreachTask} (ht : tasks[k]? = some t) :
    ∃ t', (tasks.map (OutreachTask.cancelWhere p))[k]? = some t' ∧
      TaskStep k t t' (taskRows ((Table.select p tasks).map row) k) := by
  rw [taskRows_cancelled hrow, List.getElem?_map, ht]
  by_cases h : p t = true
  · refine ⟨t.cancel, by simp [OutreachTask.cancelWhere, h], ?_⟩
    simpa [h] using TaskStep.wrote (.cancel (hp t h) (hrow (t, k)) (htype (t, k)))
  · exact ⟨t, by simp [OutreachTask.cancelWhere, h], by simpa [h] using TaskStep.same⟩

/-- Under every commit an existing task takes one task step, and the audit log gains
exactly its rows. -/
theorem Commit.task {rt : Runtime} {clock : Int} {s s' : Store} (h : Commit rt clock s s')
    {k : Nat} {t : OutreachTask} (ht : s.outreachTasks[k]? = some t) :
    ∃ t' rows, s'.outreachTasks[k]? = some t' ∧ TaskStep k t t' rows ∧
      taskRows s'.auditEvents k = taskRows s.auditEvents k ++ rows := by
  cases h with
  | ingested h =>
    cases h with
    | replayed h => exact ⟨t, [], ht, .same, (List.append_nil _).symm⟩
    | planned fresh policyEvent counted growth =>
      refine ⟨t, [], ?_, .same, ?_⟩
      · rw [List.getElem?_append_left (List.getElem?_eq_some_iff.mp ht).1]
        exact ht
      · rw [taskRows_append, taskRows_append, taskRows_receiptRows,
          taskRows_eq_nil (fun a ha => (growth.audits a ha).1)]
        rfl
    | @cancelled ctx _ _ marker _ fresh cancelling =>
      obtain ⟨t', ht', hstep⟩ := cancelled_task (cancelledRow ctx)
        (fun _ => cancellable_scheduled) (fun _ => ⟨rfl, rfl⟩) (fun _ => rfl) ht
      refine ⟨t', _, ht', hstep, ?_⟩
      have hrecord : taskRows (recordRows ctx) k = [] :=
        taskRows_eq_nil (fun a ha => (recordRows_spec ctx a ha).1) k
      have hmarker : taskRows [processedMarker ctx marker] k = [] :=
        taskRows_eq_nil (by simp [processedMarker]) k
      simp only [taskRows_append, taskRows_receiptRows, hrecord, hmarker, List.nil_append,
        List.append_nil]
  | @wrote taskId old new a row hw payload =>
    by_cases hk : taskId = k
    · subst hk
      obtain rfl : old = t := Option.some.inj (row.symm.trans ht)
      have hlen := (List.getElem?_eq_some_iff.mp ht).1
      refine ⟨new, [a], by simp [writeRow, hlen], .wrote hw, ?_⟩
      simp [writeRow, taskRows_singleton hw.entity]
    · refine ⟨t, [], by simp [writeRow, hk, ht], .same, ?_⟩
      simp [writeRow, taskRows_singleton hw.entity, Ne.symm hk]
  | @operatorCancelled accountId account reason correlationId row =>
    rw [cancelScheduledAccountOutreach_eq]
    obtain ⟨t', ht', hstep⟩ := cancelled_task
      (operatorCancelledRow account reason correlationId)
      (fun _ => operatorCancellable_scheduled accountId) (fun _ => ⟨rfl, rfl⟩)
      (fun _ => rfl) ht
    exact ⟨t', _, ht', hstep, taskRows_append _ _ _⟩

/-- The ingestion that created a task. -/
structure Created (rt : Runtime) (clock : Int) (s s' : Store) (k : Nat) (t : OutreachTask)
    (sub : EventSubmission) (ctx : EventContext) : Prop where
  fresh : Fresh rt s sub ctx s'.customers s'.accounts
  event : s'.inboundEvents = s.inboundEvents ++ [storedEvent rt sub]
  planned : PlannedTask rt ctx clock s'.policyDecisions s.policyDecisions.length t
  noRows : taskRows s'.auditEvents k = []

/-- Only an ingestion of a policy event creates tasks, and a new task has no audit row
of its own. -/
theorem Commit.created {rt : Runtime} {clock : Int} {s s' : Store} (hs : WellFormed s)
    (h : Commit rt clock s s') {k : Nat} {t : OutreachTask} (hk : s.outreachTasks.length ≤ k)
    (ht : s'.outreachTasks[k]? = some t) : ∃ sub ctx, Created rt clock s s' k t sub ctx := by
  have hk' := (List.getElem?_eq_some_iff.mp ht).1
  cases h with
  | ingested h =>
    cases h with
    | replayed h => omega
    | @planned ctx customers accounts n st ds ts as fresh policyEvent counted growth =>
      have hmem : t ∈ ts := by
        rw [List.getElem?_append_right hk] at ht
        exact List.mem_of_getElem? ht
      refine ⟨_, ctx, ⟨fresh, rfl, growth.tasks t hmem, ?_⟩⟩
      have hold : taskRows s.auditEvents k = [] := by
        rw [taskRows, List.filter_eq_nil_iff]
        intro a ha hrow
        rw [Bool.and_eq_true, decide_eq_true_eq, decide_eq_true_eq] at hrow
        have hlt := hs.auditTask a ha hrow.1
        omega
      rw [taskRows_append, taskRows_append, hold, taskRows_receiptRows,
        taskRows_eq_nil (fun a ha => (growth.audits a ha).1)]
      rfl
    | cancelled fresh cancelling =>
      rw [List.length_map] at hk'
      omega
  | wrote row hw payload =>
    simp only [writeRow, Store.appendAuditEvent_outreachTasks, List.length_set] at hk'
    omega
  | operatorCancelled row =>
    rw [cancelScheduledAccountOutreach_eq, List.length_map] at hk'
    omega

/-! ### References -/

/-- Cancelling keeps the columns that planning fixed. -/
theorem cancelWhere_planned (p : OutreachTask → Bool) (t : OutreachTask) :
    (OutreachTask.cancelWhere p t).planned = t.planned := by
  unfold OutreachTask.cancelWhere
  split <;> rfl

private theorem policyDecisionId_of_planned {t u : OutreachTask} (h : t.planned = u.planned) :
    t.policyDecisionId = u.policyDecisionId := congrArg (fun x => x.policyDecisionId) h

/-- The references of one audit row, with so many events and tasks stored. -/
structure AuditRefs (events tasks : Nat) (a : AuditEvent) : Prop where
  payload : ∀ e, a.payload.inboundEventId = some e → e < events
  event : a.entityType = .inboundEvent → a.entityId < events
  task : a.entityType = .outreachTask → a.entityId < tasks

namespace AuditRefs

variable {events tasks : Nat}

/-- More rows keep the references. -/
theorem mono {a : AuditEvent} (h : AuditRefs events tasks a) {events' tasks' : Nat}
    (he : events ≤ events') (ht : tasks ≤ tasks') : AuditRefs events' tasks' a where
  payload e hp := by
    have hlt := h.payload e hp
    omega
  event hp := by
    have hlt := h.event hp
    omega
  task hp := by
    have hlt := h.task hp
    omega

/-- A stored row. -/
theorem stored {s : Store} (hs : WellFormed s) {a : AuditEvent} (ha : a ∈ s.auditEvents) :
    AuditRefs s.inboundEvents.length s.outreachTasks.length a :=
  ⟨hs.auditPayload a ha, hs.auditEvent a ha, hs.auditTask a ha⟩

/-- A receipt row of a stored event. -/
theorem receipt {rt : Runtime} {sub : EventSubmission} {id : Nat} (hid : id < events)
    {a : AuditEvent} (ha : a ∈ receiptRows rt sub id) : AuditRefs events tasks a where
  payload e hp := by
    rw [(receiptRows_entity rt sub id a ha).2.2] at hp
    cases hp
  event _ := by
    rw [(receiptRows_entity rt sub id a ha).2.1]
    exact hid
  task hp := by
    rw [(receiptRows_entity rt sub id a ha).1] at hp
    cases hp

/-- A planner row of a stored event. -/
theorem planner {ctx : EventContext} (hid : ctx.inboundEventId < events) {a : AuditEvent}
    (ha : PlannerRow ctx a) : AuditRefs events tasks a where
  payload e hp := by
    rw [ha.2.2, Option.some.injEq] at hp
    omega
  event hp := absurd hp ha.2.1
  task hp := absurd hp ha.1

/-- A row about a stored task that names no event, or a stored one. -/
theorem ofTask {a : AuditEvent} (hentity : a.entityType = .outreachTask)
    (hid : a.entityId < tasks) (hp : ∀ e, a.payload.inboundEventId = some e → e < events) :
    AuditRefs events tasks a where
  payload := hp
  event he := by
    rw [hentity] at he
    cases he
  task _ := hid

/-- The marker of a processed event that is stored. -/
theorem marker {ctx : EventContext} (hid : ctx.inboundEventId < events)
    (marker : AuditEventType) : AuditRefs events tasks (processedMarker ctx marker) where
  payload e hp := by cases hp
  event _ := hid
  task hp := by cases hp

end AuditRefs

private theorem cancelled_refs {p : OutreachTask → Bool} (row : OutreachTask × Nat → AuditEvent)
    {tasks : List OutreachTask} {events : Nat}
    (hrow : ∀ x, (row x).entityType = .outreachTask ∧ (row x).entityId = x.2)
    (hp : ∀ x e, (row x).payload.inboundEventId = some e → e < events) {a : AuditEvent}
    (ha : a ∈ (Table.select p tasks).map row) : AuditRefs events tasks.length a := by
  obtain ⟨⟨t, k⟩, hx, rfl⟩ := List.mem_map.mp ha
  apply AuditRefs.ofTask (hrow _).1
  · rw [(hrow _).2]
    exact (List.getElem?_eq_some_iff.mp (Table.mem_select.mp hx).1).1
  · exact hp _

/-- References by table. -/
private theorem wellFormed_of_refs {s : Store}
    (hd : ∀ d ∈ s.policyDecisions, ∀ e, d.inboundEventId = some e → e < s.inboundEvents.length)
    (ht : ∀ t ∈ s.outreachTasks, ∃ d, t.policyDecisionId = some d ∧ d < s.policyDecisions.length)
    (ha : ∀ a ∈ s.auditEvents, AuditRefs s.inboundEvents.length s.outreachTasks.length a) :
    WellFormed s :=
  ⟨hd, ht, fun a h => (ha a h).payload, fun a h => (ha a h).event, fun a h => (ha a h).task⟩

private theorem taskDecision_cancelWhere {s : Store} (hs : WellFormed s) (p : OutreachTask → Bool) :
    ∀ t ∈ s.outreachTasks.map (OutreachTask.cancelWhere p), ∃ d, t.policyDecisionId = some d ∧
      d < s.policyDecisions.length := by
  intro t ht
  obtain ⟨u, hu, rfl⟩ := List.mem_map.mp ht
  rw [policyDecisionId_of_planned (cancelWhere_planned _ u)]
  exact hs.taskDecision u hu

/-- An ingestion keeps the references of the store. -/
private theorem Ingested.wellFormed {rt : Runtime} {s s' : Store} {sub : EventSubmission}
    {clock : Int} {r : EventIngestionResult} (hs : WellFormed s)
    (h : Ingested rt s sub clock s' r) : WellFormed s' := by
  cases h with
  | replayed h => exact hs
  | @planned ctx customers accounts n st ds ts as fresh policyEvent counted growth =>
    have hid : ctx.inboundEventId < (s.inboundEvents ++ [storedEvent rt sub]).length := by
      rw [fresh.inboundEventId, List.length_append, List.length_singleton]
      omega
    apply wellFormed_of_refs
    · intro d hd e he
      rcases List.mem_append.mp hd with hd | hd
      · have hlt := hs.decisionEvent d hd e he
        rw [List.length_append]
        omega
      · rw [growth.decisions d hd, Option.some.injEq] at he
        rw [← he]
        exact hid
    · intro t ht
      rcases List.mem_append.mp ht with ht | ht
      · obtain ⟨d, hd, hlt⟩ := hs.taskDecision t ht
        exact ⟨d, hd, by rw [List.length_append]; omega⟩
      · obtain ⟨channel, d, at', rfl, -, row, hrow, -⟩ := (growth.tasks t ht).row
        refine ⟨d, rfl, ?_⟩
        simpa [acceptedStore] using (List.getElem?_eq_some_iff.mp hrow).1
    · intro a ha
      rcases List.mem_append.mp ha with ha | ha
      · exact (AuditRefs.stored hs ha).mono (by simp) (by simp)
      · rcases List.mem_append.mp ha with ha | ha
        · exact .receipt (by simp) ha
        · exact .planner hid (growth.audits a ha)
  | @cancelled ctx customers accounts marker record fresh cancelling =>
    have hid : ctx.inboundEventId < (s.inboundEvents ++ [storedEvent rt sub]).length := by
      rw [fresh.inboundEventId, List.length_append, List.length_singleton]
      omega
    apply wellFormed_of_refs
    · intro d hd e he
      have hlt := hs.decisionEvent d hd e he
      rw [List.length_append]
      omega
    · exact taskDecision_cancelWhere hs _
    · intro a ha
      simp only [List.mem_append, List.mem_singleton] at ha
      rcases ha with ha | ha | ha | ha | rfl
      · exact (AuditRefs.stored hs ha).mono (by simp) (by simp)
      · exact .receipt (by simp) ha
      · exact .planner hid (recordRows_spec ctx a ha)
      · apply AuditRefs.mono (cancelled_refs (cancelledRow ctx) (fun _ => ⟨rfl, rfl⟩) _ ha)
          (Nat.le_refl _) (by simp)
        rintro x e ⟨⟩
        exact hid
      · exact .marker hid marker

/-- Every commit keeps the references of the store. -/
theorem Commit.wellFormed {rt : Runtime} {clock : Int} {s s' : Store} (hs : WellFormed s)
    (h : Commit rt clock s s') : WellFormed s' := by
  cases h with
  | ingested h => exact Ingested.wellFormed hs h
  | @wrote taskId old new a row hw payload =>
    have hlen : taskId < s.outreachTasks.length := (List.getElem?_eq_some_iff.mp row).1
    apply wellFormed_of_refs
    · exact hs.decisionEvent
    · intro t ht
      rcases List.mem_or_eq_of_mem_set ht with ht | rfl
      · exact hs.taskDecision t ht
      · rw [policyDecisionId_of_planned hw.planned]
        exact hs.taskDecision old (List.mem_of_getElem? row)
    · intro b hb
      have hlength : (writeRow s taskId new a).outreachTasks.length = s.outreachTasks.length := by
        simp [writeRow]
      rw [hlength]
      rcases List.mem_append.mp hb with hb | hb
      · exact .stored hs hb
      · rw [List.mem_singleton.mp hb]
        apply AuditRefs.ofTask hw.entity.1
        · rw [hw.entity.2]
          exact hlen
        · intro e he
          rw [payload] at he
          cases he
  | @operatorCancelled accountId account reason correlationId row =>
    rw [cancelScheduledAccountOutreach_eq]
    apply wellFormed_of_refs
    · exact hs.decisionEvent
    · exact taskDecision_cancelWhere hs _
    · intro a ha
      rcases List.mem_append.mp ha with ha | ha
      · exact (AuditRefs.stored hs ha).mono (Nat.le_refl _) (by simp)
      · apply AuditRefs.mono (cancelled_refs (operatorCancelledRow account reason correlationId)
          (fun _ => ⟨rfl, rfl⟩) _ ha) (Nat.le_refl _) (by simp)
        rintro x e ⟨⟩

/-- The store before the first request has no references. -/
theorem wellFormed_empty : WellFormed Store.empty := by
  constructor <;> simp [Store.empty]

/-- Every step keeps the references of the store. -/
theorem step_wellFormed (rt : Runtime) (s : Sys) (op : Op) (hs : WellFormed s.store) :
    WellFormed (step rt s op).store := by
  rcases (step_spec rt s op).commit hs with h | h
  · rw [h]
    exact hs
  · exact h.wellFormed hs

/-- Every reachable store is well formed. -/
theorem run_wellFormed (rt : Runtime) (clock : Int) (ops : List Op) :
    WellFormed (run (step rt) (start clock) ops).store :=
  run_invariant (I := fun s : Sys => WellFormed s.store) (step_wellFormed rt) (start clock)
    wellFormed_empty ops

/-! ### Laws of stores and of single tasks -/

/-- What every commit keeps holds of every reachable store. -/
theorem run_store_invariant {rt : Runtime} {I : Store → Prop} (hempty : I Store.empty)
    (hcommit : ∀ clock s s', WellFormed s → I s → Commit rt clock s s' → I s') (clock : Int)
    (ops : List Op) : I (run (step rt) (start clock) ops).store := by
  have hrun := run_invariant (I := fun s : Sys => WellFormed s.store ∧ I s.store)
    (?_ : ∀ s op, _ → _ ∧ I (step rt s op).store) (start clock) ⟨wellFormed_empty, hempty⟩ ops
  · exact hrun.2
  · rintro s op ⟨hs, hI⟩
    refine ⟨step_wellFormed rt s op hs, ?_⟩
    rcases (step_spec rt s op).commit hs with h | h
    · rwa [h]
    · exact hcommit s.clock s.store _ hs hI h

/-- A law of tasks that holds when a task is created and that every task step keeps holds
of every task in every reachable store. -/
theorem run_task_law {rt : Runtime} {P : Store → Nat → OutreachTask → Prop}
    (hnew : ∀ clock s s' k t sub ctx, Created rt clock s s' k t sub ctx → P s' k t)
    (hstep : ∀ clock s s' k t t' rows, Commit rt clock s s' → TaskStep k t t' rows →
      taskRows s'.auditEvents k = taskRows s.auditEvents k ++ rows → P s k t → P s' k t')
    (clock : Int) (ops : List Op) {k : Nat} {t : OutreachTask}
    (ht : (run (step rt) (start clock) ops).store.outreachTasks[k]? = some t) :
    P (run (step rt) (start clock) ops).store k t := by
  refine run_store_invariant (I := fun s => ∀ (k : Nat) (t : OutreachTask),
    s.outreachTasks[k]? = some t → P s k t) (by simp [Store.empty]) ?_ clock ops k t ht
  intro clock s s' hs htasks h k t ht
  by_cases hk : k < s.outreachTasks.length
  · obtain ⟨t', rows, ht', hone, hlog⟩ := h.task (List.getElem?_eq_getElem hk)
    obtain rfl : t' = t := Option.some.inj (ht'.symm.trans ht)
    exact hstep clock s s' k _ _ rows h hone hlog (htasks k _ (List.getElem?_eq_getElem hk))
  · obtain ⟨sub, ctx, hc⟩ := h.created hs (Nat.le_of_not_lt hk) ht
    exact hnew clock s s' k t sub ctx hc

/-- A law of a task and its audit rows that holds of every planned task and that every
write keeps holds of every task in every reachable store. -/
theorem run_rows_law {rt : Runtime} {P : Nat → List AuditEvent → OutreachTask → Prop}
    (hnew : ∀ k ctx channel decisionId at' clock, P k [] (taskRow ctx channel decisionId at' clock))
    (hstep : ∀ k rows t t' a, P k rows t → RowWrite k t t' a → P k (rows ++ [a]) t')
    (clock : Int) (ops : List Op) {k : Nat} {t : OutreachTask}
    (ht : (run (step rt) (start clock) ops).store.outreachTasks[k]? = some t) :
    P k (taskRows (run (step rt) (start clock) ops).store.auditEvents k) t := by
  refine run_task_law (P := fun s k t => P k (taskRows s.auditEvents k) t) ?_ ?_ clock ops ht
  · intro clock s s' k t sub ctx hc
    obtain ⟨channel, d, at', rfl, -⟩ := hc.planned.row
    rw [hc.noRows]
    exact hnew k ctx channel d at' clock
  · intro clock s s' k t t' rows _ hone hlog h
    rw [hlog]
    cases hone with
    | same => rwa [List.append_nil]
    | wrote hw => exact hstep k _ _ _ _ h hw

end Orchestrator.System
