import Orchestrator.Api.Queries
import Orchestrator.System.Chain

/-!
# The trace of a request

The audit rows under the correlation id of an ingestion, which `GET /v1/audit` lists.
As long as no other request carries the id, they account for the ingestion's response, and
beyond its own rows only the attempts of its tasks are among them.
-/

namespace Orchestrator.System

open Api Base Domain Orchestration Workers

/-- Requests that carry a correlation id. -/
def Op.carries (c : Nat) : Op → Bool
  | .ingestEvent sub => sub.correlationId = c
  | .cancelOutreach _ _ correlationId => correlationId = c
  | .tick _ | .startPass _ _ | .claim _ | .settle _ _ | .crash _ | .recordDeliveryResult _ _ _ =>
    false

/-- How many audit rows of a type an ingestion's result stands for. -/
def reported (r : EventIngestionResult) : AuditEventType → Option Nat
  | .eventReceived | .eventAccepted => some 1
  | .policyDecisionRecorded => some r.policyDecisions
  | .outreachTaskScheduled => some r.createdTasks
  | .outreachBlocked => some r.blockedTasks
  | .outreachDeferred => some r.deferredTasks
  | .outreachCancelled => some r.cancelledTasks
  | _ => none

/-! ### Rows of an ingestion -/

/-- The audit rows that a first ingestion appends. -/
def ingestionRows (rt : Runtime) (s : Store) (sub : EventSubmission) : Effect → List AuditEvent
  | .planned os => receiptRows rt sub s.inboundEvents.length ++
      plannedRows (contextOf rt s sub) s.policyDecisions.length os
  | .cancelled marker => receiptRows rt sub s.inboundEvents.length ++
      (recordRows (contextOf rt s sub) ++
        ((Table.select (cancellable (contextOf rt s sub)) s.outreachTasks).map
          (cancelledRow (contextOf rt s sub)) ++ [processedMarker (contextOf rt s sub) marker]))

section

variable (rt : Runtime) (s : Store) (sub : EventSubmission) (clock : Int)

theorem applied_auditEvents (effect : Effect) :
    (applied rt s sub clock effect).1.auditEvents =
      s.auditEvents ++ ingestionRows rt s sub effect := by
  cases effect <;> rfl

/-- The rows of an ingestion carry its correlation id and are no rows of an attempt. -/
theorem ingestionRows_own {optedOut : Bool} {recent : Nat} {effect : Effect}
    (h : Decided rt sub optedOut recent effect) :
    ∀ a ∈ ingestionRows rt s sub effect,
      a.correlationId = sub.correlationId ∧ ¬ OfAttempt a.eventType := by
  have hreceipt : ∀ a ∈ receiptRows rt sub s.inboundEvents.length,
      a.correlationId = sub.correlationId ∧ ¬ OfAttempt a.eventType := by
    simp [receiptRows, ingestionAudit, OfAttempt]
  cases h with
  | @planned ps os =>
    intro a ha
    rcases List.mem_append.mp ha with ha | ha
    · exact hreceipt a ha
    · obtain ⟨j, o, ho, rfl | hexit | ⟨time, rfl⟩⟩ := mem_plannedRows ha
      · simp [decisionRecordedRow, plannerAudit, contextOf, OfAttempt]
      · unfold exitRows at hexit
        split at hexit
        · rw [List.mem_singleton.mp hexit]
          simp [blockedRow, plannerAudit, contextOf, OfAttempt]
        · rw [List.mem_singleton.mp hexit]
          simp [deferredRow, plannerAudit, contextOf, OfAttempt]
        · cases hexit
      · simp [taskScheduledRow, plannerAudit, contextOf, OfAttempt]
  | @cancelled marker hmarker =>
    intro a ha
    simp only [ingestionRows, List.mem_append, List.mem_singleton] at ha
    rcases ha with ha | ha | ha | rfl
    · exact hreceipt a ha
    · unfold recordRows at ha
      split at ha <;> simp only [List.mem_singleton, List.not_mem_nil] at ha <;> rw [ha] <;>
        simp [plannerAudit, contextOf, OfAttempt]
    · obtain ⟨x, -, rfl⟩ := List.mem_map.mp ha
      simp [cancelledRow, plannerAudit, contextOf, OfAttempt]
    · cases he : sub.eventType <;> rw [he] at hmarker <;> cases hmarker <;>
        simp [processedMarker, contextOf, OfAttempt]

/-- The rows of a pass by type. -/
private theorem countP_plannedRows_type (ctx : EventContext) (eventType : AuditEventType)
    (base : Nat) (os : List Outcome) :
    (plannedRows ctx base os).countP (fun a => a.eventType = eventType) =
      os.countP fun o => eventType = .policyDecisionRecorded || writesRow o eventType := by
  rw [countP_plannedRows (b := fun x => eventType = .policyDecisionRecorded ||
    writesRow x.1 eventType),
      countP_zipIdx_fst fun o => eventType = .policyDecisionRecorded || writesRow o eventType]
  intro x
  cases h : x.1.result.decision <;> cases hat : x.1.scheduledAt <;> cases eventType <;>
    simp [Outcome.rows, writesRow, exitRows, h, hat, decisionRecordedRow, blockedRow, deferredRow,
      taskScheduledRow, plannerAudit]

/-- The rows of an ingestion are what its result reports. -/
theorem countP_ingestionRows {optedOut : Bool} {recent : Nat} {effect : Effect}
    (h : Decided rt sub optedOut recent effect) {eventType : AuditEventType} {n : Nat}
    (hn : reported (applied rt s sub clock effect).2 eventType = some n) :
    (ingestionRows rt s sub effect).countP (fun a => a.eventType = eventType) = n := by
  cases h with
  | @planned ps os =>
    simp only [ingestionRows, List.countP_append, countP_plannedRows_type]
    cases eventType <;> cases hn <;>
      simp [receiptRows, ingestionAudit, writesRow, applied, resultFromPlanner, plannedResult]
  | @cancelled marker hmarker =>
    have hselected : (Table.select (cancellable (contextOf rt s sub)) s.outreachTasks).countP
        (fun x => decide ((cancelledRow (contextOf rt s sub) x).eventType = .outreachCancelled)) =
          s.outreachTasks.countP (cancellable (contextOf rt s sub)) := by
      rw [List.countP_eq_length.mpr (by simp [cancelledRow, plannerAudit]), Table.length_select]
    have hrecord : (recordRows (contextOf rt s sub)).countP
        (fun a => decide (a.eventType = eventType)) = 0 := by
      unfold recordRows
      split <;> cases eventType <;> cases hn <;> simp [plannerAudit]
    simp only [ingestionRows, List.countP_append, List.countP_map, hrecord]
    cases he : sub.eventType <;> rw [he] at hmarker <;> cases hmarker <;>
      cases eventType <;> cases hn <;>
      simp_all [receiptRows, ingestionAudit, applied, processedMarker, cancelledRow, plannerAudit,
        Function.comp_def]

end

/-! ### What other operations add -/

/-- What `s'` has beyond `s`: no task carries the id, and no audit row does but the rows of
attempts. -/
structure Beyond (c : Nat) (s s' : Store) : Prop where
  events : s.inboundEvents.length ≤ s'.inboundEvents.length
  tasks : ∃ ts, s'.outreachTasks.map OutreachTask.planned =
      s.outreachTasks.map OutreachTask.planned ++ ts ∧
    ∀ t ∈ ts, t.correlationId ≠ c ∧ s.inboundEvents.length ≤ t.idempotencyKey.inboundEventId
  rows : ∃ as, s'.auditEvents = s.auditEvents ++ as ∧
    ∀ a ∈ as, a.correlationId = c → a.entityType = .outreachTask ∧ OfAttempt a.eventType

namespace Beyond

variable {c : Nat} {s t u : Store}

theorem refl (s : Store) : Beyond c s s where
  events := Nat.le_refl _
  tasks := ⟨[], (List.append_nil _).symm, by simp⟩
  rows := ⟨[], (List.append_nil _).symm, by simp⟩

theorem trans (h : Beyond c s t) (h' : Beyond c t u) : Beyond c s u where
  events := h.events.trans h'.events
  tasks := by
    obtain ⟨ts, hts, hnew⟩ := h.tasks
    obtain ⟨ts', hts', hnew'⟩ := h'.tasks
    refine ⟨ts ++ ts', by rw [hts', hts, List.append_assoc], fun x hx => ?_⟩
    rcases List.mem_append.mp hx with hx | hx
    · exact hnew x hx
    · exact ⟨(hnew' x hx).1, h.events.trans (hnew' x hx).2⟩
  rows := by
    obtain ⟨as, has, hnew⟩ := h.rows
    obtain ⟨as', has', hnew'⟩ := h'.rows
    refine ⟨as ++ as', by rw [has', has, List.append_assoc], fun a ha => ?_⟩
    rcases List.mem_append.mp ha with ha | ha
    · exact hnew a ha
    · exact hnew' a ha

/-- A task with the id was there before. -/
theorem task (h : Beyond c s t) {k : Nat} {x : OutreachTask} (hx : t.outreachTasks[k]? = some x) :
    (∃ y, s.outreachTasks[k]? = some y ∧ y.planned = x.planned) ∨
      x.correlationId ≠ c ∧ s.inboundEvents.length ≤ x.idempotencyKey.inboundEventId := by
  obtain ⟨ts, hts, hnew⟩ := h.tasks
  have hget : (s.outreachTasks.map OutreachTask.planned ++ ts)[k]? = some x.planned := by
    rw [← hts, List.getElem?_map, hx, Option.map_some]
  by_cases hk : k < s.outreachTasks.length
  · rw [List.getElem?_append_left (by simpa using hk), List.getElem?_map,
      Option.map_eq_some_iff] at hget
    exact Or.inl hget
  · rw [List.getElem?_append_right (by simpa using hk)] at hget
    have hplanned := hnew x.planned (List.mem_of_getElem? hget)
    exact Or.inr hplanned

end Beyond

section

variable {rt : Runtime}

/-- The write of an attempt or of a manual result appends a row of an attempt. -/
private theorem beyond_writeRow (c : Nat) {s : Store} {k : Nat} {t t' : OutreachTask}
    {a : AuditEvent} (ht : s.outreachTasks[k]? = some t) (hw : RowWrite k t t' a)
    (ha : OfAttempt a.eventType) : Beyond c s (writeRow s k t' a) where
  events := Nat.le_refl _
  tasks := ⟨[], by rw [List.append_nil]; exact map_planned_writeRow ht hw, by simp⟩
  rows := by
    refine ⟨[a], rfl, fun b hb _ => ?_⟩
    rw [List.mem_singleton.mp hb]
    exact ⟨hw.entity.1, ha⟩

/-- An operation that does not carry the id. -/
theorem step_beyond {s : Sys} {op : Op} (hs : Sourced s.store) {c : Nat}
    (hop : op.carries c = false) : Beyond c s.store (step rt s op).store := by
  have hstep := step_spec rt s op
  generalize step rt s op = s' at hstep ⊢
  cases hstep with
  | idle store =>
    rw [store]
    exact .refl _
  | claimed pass row hdue => exact beyond_writeRow c row (.claim _ _ hdue) trivial
  | settled pass row hd hw =>
    exact beyond_writeRow c row (hw.rowWrite hd) (by cases hw <;> trivial)
  | recorded row hallowed => exact beyond_writeRow c row (.manual _ hallowed) trivial
  | operatorCancelled key row =>
    rw [store_commit, cancelScheduledAccountOutreach_eq]
    refine ⟨Nat.le_refl _, ⟨[], ?_, by simp⟩, _, rfl, fun a ha hc => ?_⟩
    · rw [List.append_nil]
      exact map_planned_cancelWhere _ _
    · obtain ⟨x, -, rfl⟩ := List.mem_map.mp ha
      exact absurd hc (of_decide_eq_false hop)
  | ingested h =>
    have hother := of_decide_eq_false hop
    rcases replayed_or_admitted hs h with hsame | ⟨effect, hadmitted, rfl⟩
    · rw [store_commit, hsame]
      exact .refl _
    · rw [store_commit]
      refine ⟨by simp, ?_, _, applied_auditEvents _ _ _ _ _, fun a ha hc => ?_⟩
      · cases hadmitted.decision with
        | planned =>
          refine ⟨_, List.map_append, fun t ht => ?_⟩
          obtain ⟨u, hu, rfl⟩ := List.mem_map.mp ht
          obtain ⟨j, o, time, -, -, rfl⟩ := mem_plannedTasks.mp hu
          exact ⟨hother, Nat.le_refl _⟩
        | cancelled =>
          refine ⟨[], ?_, by simp⟩
          rw [List.append_nil]
          exact map_planned_cancelWhere _ _
      · rw [(ingestionRows_own rt s.store _ hadmitted.decision a ha).1] at hc
        exact absurd hc hother

/-- Operations that do not carry the id. -/
theorem run_beyond (rt : Runtime) {c : Nat} {s : Sys} (hs : Sourced s.store) {ops : List Op}
    (hops : ∀ op ∈ ops, op.carries c = false) :
    Beyond c s.store (run (step rt) s ops).store := by
  induction ops generalizing s with
  | nil => exact .refl _
  | cons op ops ih =>
    exact (step_beyond hs (hops op List.mem_cons_self)).trans
      (ih (step_sourced rt s op hs) fun op' h => hops op' (List.mem_cons_of_mem op h))

/-- A task after an ingestion was there before or is the ingestion's own. -/
private theorem applied_task (rt : Runtime) (s : Store) (sub : EventSubmission) (clock : Int)
    (effect : Effect) :
    ∀ t ∈ (applied rt s sub clock effect).1.outreachTasks,
      (∃ u ∈ s.outreachTasks, t.planned = u.planned) ∨
        t.correlationId = sub.correlationId ∧
          t.idempotencyKey.inboundEventId = s.inboundEvents.length := by
  intro t ht
  cases effect with
  | planned os =>
    rcases List.mem_append.mp ht with ht | ht
    · exact Or.inl ⟨t, ht, rfl⟩
    · obtain ⟨j, o, time, -, -, rfl⟩ := mem_plannedTasks.mp ht
      exact Or.inr ⟨rfl, rfl⟩
  | cancelled marker =>
    obtain ⟨u, hu, rfl⟩ := List.mem_map.mp ht
    exact Or.inl ⟨u, hu, cancelWhere_planned _ u⟩

/-- The tasks of an ingestion are counted by its result. -/
private theorem countP_applied (rt : Runtime) {s : Store} (sub : EventSubmission) (clock : Int)
    (effect : Effect) (hold : ∀ t ∈ s.outreachTasks, t.correlationId ≠ sub.correlationId) :
    (applied rt s sub clock effect).1.outreachTasks.countP
        (fun t => t.correlationId = sub.correlationId) =
      (applied rt s sub clock effect).2.createdTasks := by
  have hnone : s.outreachTasks.countP (fun t => t.correlationId = sub.correlationId) = 0 := by
    rw [List.countP_eq_zero]
    intro t ht
    simpa using hold t ht
  cases effect with
  | planned os =>
    have hall := countP_plannedTasks (contextOf rt s sub) clock (fun _ => true)
      s.policyDecisions.length os
    simp only [writesRow, Bool.and_true] at hall
    simp only [applied, List.countP_append, hnone, Nat.zero_add, resultFromPlanner, plannedResult,
      ← hall]
    refine List.countP_congr fun t ht => ?_
    obtain ⟨j, o, time, -, -, rfl⟩ := mem_plannedTasks.mp ht
    exact iff_of_true (decide_eq_true rfl) rfl
  | cancelled marker =>
    simp only [applied, List.countP_map]
    rw [← hnone]
    refine List.countP_congr fun t _ => ?_
    have hcorrelation := congrArg OutreachTask.correlationId
      (cancelWhere_planned (cancellable (contextOf rt s sub)) t)
    simp only [OutreachTask.planned] at hcorrelation
    simp only [Function.comp, hcorrelation]

end

/-! ### The audit listing -/

/-- What the audit listing of an id, a cut of the whole listing, shows of the ingestion that
carried it: as many rows of each type as its result reports, and of the rows of attempts those
of its own tasks. -/
structure Traced (gen : Generated) (s : Store) (c : Nat) (r : EventIngestionResult) : Prop where
  cut : listAuditEvents gen s (some c) =
    (listAuditEvents gen s none).filter fun x => x.event.correlationId = c
  counted : ∀ eventType n, reported r eventType = some n →
    (listAuditEvents gen s (some c)).countP (fun x => x.event.eventType = eventType) = n
  tasks : s.outreachTasks.countP (fun t => t.correlationId = c) = r.createdTasks
  event : ∀ t ∈ s.outreachTasks, t.correlationId = c ↔
    t.idempotencyKey.inboundEventId = r.eventId
  attempts : ∀ (k : Nat) (a : AuditEvent), s.auditEvents[k]? = some a →
    a.entityType = .outreachTask → OfAttempt a.eventType →
      ((∃ x ∈ listAuditEvents gen s (some c), x.id = k) ↔
        ∃ t, s.outreachTasks[a.entityId]? = some t ∧ t.idempotencyKey.inboundEventId = r.eventId)

/-- The listing of an id is cut out of the whole listing. -/
private theorem listAuditEvents_cut (gen : Generated) (s : Store) (c : Nat) :
    listAuditEvents gen s (some c) =
      (listAuditEvents gen s none).filter fun x => x.event.correlationId = c := by
  have hfilter := Table.filter_ordered gen.auditOrder_rowOrder (fun _ => true)
    (fun a : AuditEvent => decide (a.correlationId = c)) s.auditEvents
  simp only [listAuditEvents, Option.all_some, Option.all_none, List.filter_map]
  exact congrArg (List.map _) hfilter.symm

/-- The listing of an id counts the rows that carry it. -/
private theorem countP_listAuditEvents (gen : Generated) (s : Store) (c : Nat)
    (eventType : AuditEventType) :
    (listAuditEvents gen s (some c)).countP (fun x => x.event.eventType = eventType) =
      s.auditEvents.countP fun a : AuditEvent =>
        a.correlationId = c && a.eventType = eventType := by
  rw [listAuditEvents, List.countP_map]
  exact Table.countP_ordered _ (fun a : AuditEvent => decide (a.eventType = eventType)) _ _

/-- A row is listed under its own id. -/
private theorem listed_iff (gen : Generated) {s : Store} {c k : Nat} {a : AuditEvent}
    (ha : s.auditEvents[k]? = some a) :
    (∃ x ∈ listAuditEvents gen s (some c), x.id = k) ↔ a.correlationId = c := by
  simp only [listAuditEvents, List.mem_map, Option.all_some]
  constructor
  · rintro ⟨_, ⟨⟨b, j⟩, hb, rfl⟩, rfl⟩
    obtain ⟨hrow, hc⟩ := Table.mem_ordered.mp hb
    rw [ha, Option.some.injEq] at hrow
    exact hrow ▸ of_decide_eq_true hc
  · intro hc
    exact ⟨_, ⟨(a, k), Table.mem_ordered.mpr ⟨ha, decide_eq_true hc⟩, rfl⟩, rfl⟩

/-- Before any operation carries an id, no task and no audit row does. -/
private theorem run_unused (rt : Runtime) (clock : Int) {c : Nat} {ops : List Op}
    (hops : ∀ op ∈ ops, op.carries c = false) :
    (∀ t ∈ (run (step rt) (start clock) ops).store.outreachTasks, t.correlationId ≠ c) ∧
      ∀ a ∈ (run (step rt) (start clock) ops).store.auditEvents, a.correlationId ≠ c := by
  have hbeyond := run_beyond (s := start clock) rt sourced_empty hops
  have htasks : ∀ t ∈ (run (step rt) (start clock) ops).store.outreachTasks,
      t.correlationId ≠ c := by
    intro t ht
    obtain ⟨k, hk⟩ := List.mem_iff_getElem?.mp ht
    rcases hbeyond.task hk with ⟨y, hy, -⟩ | ⟨hne, -⟩
    · cases hy
    · exact hne
  refine ⟨htasks, fun a ha hc => ?_⟩
  obtain ⟨as, has, hnew⟩ := hbeyond.rows
  rw [has] at ha
  obtain ⟨htask, hattempt⟩ := hnew a ha hc
  have hcorrelation := (run_correlated rt clock ops).rows a (has ▸ ha) htask fun he => by
    rw [he] at hattempt
    exact hattempt
  rw [correlationOf, Option.map_eq_some_iff] at hcorrelation
  obtain ⟨t, ht, he⟩ := hcorrelation
  exact htasks t (List.mem_of_getElem? ht) (he.trans hc)

/-- Rows that only attempts have are not among those that a result reports. -/
private theorem not_ofAttempt_of_reported {r : EventIngestionResult} {eventType : AuditEventType}
    {n : Nat} (h : reported r eventType = some n) : ¬ OfAttempt eventType := by
  cases eventType <;> simp [reported] at h <;> exact id

section

variable {rt : Runtime} {sub : EventSubmission} {effect : Effect}

/-- The tasks with the id of a first ingestion are its own, as long as nothing else carries
the id. -/
private theorem carries_iff {s s' : Store} {clock : Int} (hs : Sourced s)
    (hunused : ∀ t ∈ s.outreachTasks, t.correlationId ≠ sub.correlationId)
    (h : Beyond sub.correlationId (applied rt s sub clock effect).1 s') {k : Nat}
    {t : OutreachTask} (ht : s'.outreachTasks[k]? = some t) :
    t.correlationId = sub.correlationId ↔
      t.idempotencyKey.inboundEventId = s.inboundEvents.length := by
  have hsame {x y : OutreachTask} (hp : x.planned = y.planned) :
      x.correlationId = y.correlationId ∧ x.idempotencyKey = y.idempotencyKey :=
    ⟨congrArg (fun z => z.correlationId) hp, congrArg (fun z => z.idempotencyKey) hp⟩
  rcases h.task ht with ⟨y, hy, hp⟩ | ⟨hne, hle⟩
  · rw [← (hsame hp).1, ← (hsame hp).2]
    rcases applied_task rt s sub clock effect y (List.mem_of_getElem? hy) with
      ⟨u, hu, hplanned⟩ | ⟨hc, hid⟩
    · rw [(hsame hplanned).1, (hsame hplanned).2]
      exact iff_of_false (hunused u hu) (Nat.ne_of_lt (hs.tasks u hu).event)
    · exact iff_of_true hc hid
  · rw [applied_inboundEvents, List.length_append, List.length_singleton] at hle
    exact iff_of_false hne (by omega)

/-- The rows with the id of a first ingestion are what its result reports. -/
private theorem countP_traced {s s' : Store} {clock : Int} {optedOut : Bool} {recent : Nat}
    (hdecided : Decided rt sub optedOut recent effect)
    (hunused : ∀ a ∈ s.auditEvents, a.correlationId ≠ sub.correlationId)
    (h : Beyond sub.correlationId (applied rt s sub clock effect).1 s')
    {eventType : AuditEventType} {n : Nat}
    (hn : reported (applied rt s sub clock effect).2 eventType = some n) :
    s'.auditEvents.countP
      (fun a => a.correlationId = sub.correlationId && a.eventType = eventType) = n := by
  obtain ⟨as, has, hlater⟩ := h.rows
  have hmine := ingestionRows_own rt s sub hdecided
  have hbefore : s.auditEvents.countP
      (fun a => a.correlationId = sub.correlationId && a.eventType = eventType) = 0 := by
    rw [List.countP_eq_zero]
    intro a ha
    simp [hunused a ha]
  have hafter : as.countP
      (fun a => a.correlationId = sub.correlationId && a.eventType = eventType) = 0 := by
    rw [List.countP_eq_zero]
    intro a ha hq
    simp only [Bool.and_eq_true, decide_eq_true_eq] at hq
    exact not_ofAttempt_of_reported hn (hq.2 ▸ (hlater a ha hq.1).2)
  rw [has, applied_auditEvents, List.countP_append, List.countP_append, hbefore, hafter,
    Nat.zero_add, Nat.add_zero, ← countP_ingestionRows rt s sub clock hdecided hn]
  exact List.countP_congr fun a ha => by simp [(hmine a ha).1]

/-- The tasks with the id of a first ingestion are counted by its result. -/
private theorem countP_traced_tasks {s s' : Store} {clock : Int}
    (hunused : ∀ t ∈ s.outreachTasks, t.correlationId ≠ sub.correlationId)
    (h : Beyond sub.correlationId (applied rt s sub clock effect).1 s') :
    s'.outreachTasks.countP (fun t => t.correlationId = sub.correlationId) =
      (applied rt s sub clock effect).2.createdTasks := by
  obtain ⟨ts, hts, hlater⟩ := h.tasks
  have hplanned (l : List OutreachTask) :
      (l.map OutreachTask.planned).countP (fun t => t.correlationId = sub.correlationId) =
        l.countP fun t => t.correlationId = sub.correlationId := by
    rw [List.countP_map]
    rfl
  have hafter : ts.countP (fun t => t.correlationId = sub.correlationId) = 0 := by
    rw [List.countP_eq_zero]
    intro t ht
    simpa using (hlater t ht).1
  rw [← countP_applied rt sub clock effect hunused, ← hplanned, hts, List.countP_append, hplanned,
    hafter, Nat.add_zero]

end

/-- However the workers, the operators and other requests go on, the audit listing of the
correlation id of a first ingestion accounts for its response. -/
theorem request_traced (rt : Runtime) (gen : Generated) (clock : Int) (before after : List Op)
    (sub : EventSubmission) (r : EventIngestionResult)
    (hnew : (run (step rt) (start clock) before).store.findExistingEvent sub.source
      sub.externalId = none)
    (h : (ingestEventSnapshot rt (run (step rt) (start clock) before).store sub
      (run (step rt) (start clock) before).clock).map Prod.snd = .ok r)
    (hown : ∀ op ∈ before ++ after, op.carries sub.correlationId = false) :
    Traced gen (run (step rt) (start clock) (before ++ .ingestEvent sub :: after)).store
      sub.correlationId r := by
  have hs := run_sourced rt clock before
  have hunused := run_unused rt clock fun op hop => hown op (List.mem_append_left after hop)
  have hcorrelated := run_correlated rt clock (before ++ .ingestEvent sub :: after)
  have hbeyond := run_beyond rt (step_sourced rt _ (.ingestEvent sub) hs) fun op hop =>
    hown op (List.mem_append_right before hop)
  rw [run_append, run_cons] at hcorrelated ⊢
  generalize run (step rt) (start clock) before = s at hs hunused hnew h hcorrelated hbeyond ⊢
  cases hok : ingestEventSnapshot rt s.store sub s.clock with
  | error e => rw [hok] at h; cases h
  | ok x =>
    obtain ⟨store, r'⟩ := x
    rw [hok] at h
    obtain ⟨effect, hadmitted, he⟩ := admitted_of_ok hs hnew hok
    have hr : r = (applied rt s.store sub s.clock effect).2 :=
      (Except.ok.inj h).symm.trans (congrArg Prod.snd he)
    have hstore : (step rt s (.ingestEvent sub)).store =
        (applied rt s.store sub s.clock effect).1 := by
      rw [← he]
      simp only [step, ingest, hok, store_commit]
    rw [hstore] at hbeyond
    rw [hr]
    have hevent : (applied rt s.store sub s.clock effect).2.eventId =
        s.store.inboundEvents.length := by
      cases effect <;> rfl
    refine ⟨listAuditEvents_cut gen _ sub.correlationId, fun eventType n hn => ?_,
      countP_traced_tasks hunused.1 hbeyond, fun t ht => ?_, fun k a ha hentity hattempt => ?_⟩
    · rw [countP_listAuditEvents]
      exact countP_traced hadmitted.decision hunused.2 hbeyond hn
    · obtain ⟨k, hk⟩ := List.mem_iff_getElem?.mp ht
      rw [hevent]
      exact carries_iff hs hunused.1 hbeyond hk
    · have hcorrelation := hcorrelated.rows a (List.mem_of_getElem? ha) hentity fun hx => by
        rw [hx] at hattempt
        exact hattempt
      rw [correlationOf, Option.map_eq_some_iff] at hcorrelation
      obtain ⟨t, ht, hc⟩ := hcorrelation
      rw [listed_iff gen ha, ← hc, carries_iff hs hunused.1 hbeyond ht, ht, hevent]
      simp only [Option.some.injEq, exists_eq_left']

/-- Generated columns that repeat the keys. -/
def demoGenerated : Generated where
  taskId := id
  auditId := id
  auditCreatedAt _ := 0
  taskUpdatedAt _ := 0
  taskId_injective := Function.injective_id
  auditId_injective := Function.injective_id

/-- An email fails after it was planned with an SMS, and an operator cancels the rest. -/
theorem request_traced_payment :
    Traced demoGenerated (run (step demoRuntime) (start 0)
      ([] ++ .ingestEvent (demoEvent "event-1" .paymentFailed "acct-1" demoNoon) ::
        [.startPass 0 { now := demoMonday + 12 * hour }, .claim 0, .settle 0 (.raised "timeout"),
          .cancelOutreach "acct-1" "requested" 2])).store 1 ⟨0, 2, 0, 0, 0, 2⟩ :=
  request_traced demoRuntime demoGenerated 0 []
    [.startPass 0 { now := demoMonday + 12 * hour }, .claim 0, .settle 0 (.raised "timeout"),
      .cancelOutreach "acct-1" "requested" 2]
    (demoEvent "event-1" .paymentFailed "acct-1" demoNoon) ⟨0, 2, 0, 0, 0, 2⟩ (by decide +kernel)
    (by decide +kernel) (by decide +kernel)

end Orchestrator.System
