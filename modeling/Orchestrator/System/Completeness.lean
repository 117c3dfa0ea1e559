import Orchestrator.System.Ledger

/-!
# Ingestion is complete

What every reachable store holds about each of its events: the receipt, and either the
rows of a full planning pass, one set for each proposed channel, or the rows of a
cancellation, one for each task that it cancelled.
-/

namespace Orchestrator.System

open Base Domain Orchestration

/-! ### Kinds of audit rows -/

/-- A row of one type about an event. -/
def eventRow (e : Nat) (eventType : AuditEventType) (a : AuditEvent) : Bool :=
  a.entityType = .inboundEvent && a.entityId = e && a.eventType = eventType

/-- The recording of a decision. -/
def recordedRow (d : Nat) (a : AuditEvent) : Bool :=
  a.entityType = .policyDecision && a.entityId = d && a.eventType = .policyDecisionRecorded

/-- A row of one type that names an event, with a condition on its channel. -/
def plannerRow (e : Nat) (eventType : AuditEventType) (p : Option OutreachChannel → Bool)
    (a : AuditEvent) : Bool :=
  a.eventType = eventType && a.payload.inboundEventId = some e && p a.payload.channel

/-- The cancellation of a task that names an event. -/
def cancellationRow (e k : Nat) (a : AuditEvent) : Bool :=
  a.entityType = .outreachTask && a.entityId = k && a.eventType = .outreachCancelled &&
    a.payload.inboundEventId = some e

/-- A row that concerns an event or one of its decisions. -/
def Concerns (e lo hi : Nat) (a : AuditEvent) : Prop :=
  a.payload.inboundEventId = some e ∨ a.entityType = .inboundEvent ∧ a.entityId = e ∨
    a.entityType = .policyDecision ∧ lo ≤ a.entityId ∧ a.entityId < hi

/-- Rows that concern an event are counted on those of its own commit. -/
theorem count_own {s : Store} (hs : Sourced s) {hi : Nat} {own later : List AuditEvent}
    (hlater : ∀ a ∈ later, Later (s.inboundEvents.length + 1) hi a) {q : AuditEvent → Bool}
    (hq : ∀ a, q a = true → Concerns s.inboundEvents.length s.policyDecisions.length hi a) :
    (s.auditEvents ++ own ++ later).countP q = own.countP q := by
  have hbefore : s.auditEvents.countP q = 0 := by
    rw [List.countP_eq_zero]
    intro a ha hqa
    rcases hq a hqa with he | ⟨ht, he⟩ | ⟨ht, hlo, -⟩
    · exact Nat.lt_irrefl _ (hs.auditPayload a ha _ he)
    · exact Nat.lt_irrefl _ (he ▸ hs.auditEvent a ha ht)
    · exact absurd hlo (Nat.not_le_of_lt ((hs.audits a ha).decision ht))
  have hafter : later.countP q = 0 := by
    rw [List.countP_eq_zero]
    intro a ha hqa
    have hl := hlater a ha
    rcases hq a hqa with he | ⟨ht, he⟩ | ⟨ht, -, hhi⟩
    · exact Nat.lt_irrefl _ (hl.payload _ he)
    · exact Nat.lt_irrefl _ (he ▸ hl.event ht)
    · exact absurd hhi (Nat.not_lt_of_le (hl.decision ht))
  rw [List.countP_append, List.countP_append, hbefore, hafter, Nat.zero_add, Nat.add_zero]

/-! ### Counting the rows of a pass -/

section

variable {ctx : EventContext} {clock : Int}

/-- A kind of row that each outcome has at most once is counted on the outcomes. -/
theorem countP_plannedRows {q : AuditEvent → Bool} {b : Outcome × Nat → Bool}
    (h : ∀ x, (Outcome.rows ctx x).countP q = if b x then 1 else 0) (base : Nat)
    (os : List Outcome) : (plannedRows ctx base os).countP q = (os.zipIdx base).countP b := by
  rw [plannedRows]
  induction os.zipIdx base with
  | nil => rfl
  | cons x xs ih =>
    rw [List.flatMap_cons, List.countP_append, ih, h, List.countP_cons, Nat.add_comm]

/-- What is counted of outcomes does not depend on their keys. -/
theorem countP_zipIdx_fst (b : Outcome → Bool) (base : Nat) (os : List Outcome) :
    (os.zipIdx base).countP (fun x => b x.1) = os.countP b := by
  conv_rhs => rw [← List.zipIdx_map_fst base os, List.countP_map]
  rfl

private theorem countP_zipIdx_snd {base j : Nat} {os : List Outcome} (hj : j < os.length) :
    (os.zipIdx base).countP (fun x => x.2 = base + j) = 1 := by
  have hcount : (List.range' base os.length).countP (fun i => i = base + j) = 1 := by
    have h := List.count_eq_one_of_mem (List.nodup_range' (s := base) (n := os.length))
      (List.mem_range'_1.mpr ⟨Nat.le_add_right base j, Nat.add_lt_add_left hj base⟩)
    simpa [List.count, beq_eq_decide] using h
  rw [← List.zipIdx_map_snd, List.countP_map] at hcount
  exact hcount

/-- A pass records each of its decisions once. -/
theorem countP_recordedRow {base j : Nat} {os : List Outcome} (hj : j < os.length) :
    (plannedRows ctx base os).countP (recordedRow (base + j)) = 1 := by
  rw [countP_plannedRows (b := fun x => x.2 = base + j), countP_zipIdx_snd hj]
  intro x
  cases h : x.1.result.decision <;> cases x.1.scheduledAt <;>
    simp [Outcome.rows, exitRows, h, recordedRow, decisionRecordedRow, blockedRow, deferredRow,
      taskScheduledRow, plannerAudit, List.countP_cons]

/-- The exits and the task of an outcome by the type of the audit row that they write. -/
def writesRow (o : Outcome) : AuditEventType → Bool
  | .outreachBlocked => o.result.decision = .block
  | .outreachDeferred => o.result.decision = .defer
  | .outreachTaskScheduled => o.scheduledAt.isSome
  | _ => false

/-- A pass has one blocked row for each block, one deferred row for each deferral and one
scheduled row for each task. -/
theorem countP_plannerRow (ctx : EventContext) {eventType : AuditEventType}
    (ht : eventType = .outreachBlocked ∨ eventType = .outreachDeferred ∨
      eventType = .outreachTaskScheduled)
    (p : Option OutreachChannel → Bool) (base : Nat) (os : List Outcome) :
    (plannedRows ctx base os).countP (plannerRow ctx.inboundEventId eventType p) =
      os.countP fun o => writesRow o eventType && p (some o.result.channel) := by
  rw [countP_plannedRows (b := fun x => writesRow x.1 eventType &&
    p (some x.1.result.channel)), countP_zipIdx_fst
      (fun o => writesRow o eventType && p (some o.result.channel))]
  intro x
  rcases ht with rfl | rfl | rfl <;> cases h : x.1.result.decision <;>
    cases hat : x.1.scheduledAt <;>
    simp [Outcome.rows, writesRow, exitRows, h, hat, plannerRow, decisionRecordedRow,
      blockedRow, deferredRow, taskScheduledRow, plannerAudit, List.countP_cons]

/-- The tasks of a pass are counted on its outcomes. -/
theorem countP_plannedTasks (ctx : EventContext) (clock : Int)
    (p : Option OutreachChannel → Bool) (base : Nat) (os : List Outcome) :
    (plannedTasks ctx clock base os).countP (fun t => p (some t.channel)) =
      os.countP fun o => writesRow o .outreachTaskScheduled && p (some o.result.channel) := by
  induction os generalizing base with
  | nil => rfl
  | cons o os ih =>
    rw [plannedTasks_cons, List.countP_append, ih, List.countP_cons, Nat.add_comm]
    cases hat : o.scheduledAt <;> simp [Outcome.task, writesRow, hat, taskRow]

end

/-! ### The record of one event -/

/-- What a store holds about a planned event: one decision for each proposed channel, one
recording of each, one blocked or deferred row for each block or deferral, and one
scheduled row for each task, all under any condition on the channel. -/
structure PlannedRecord (s : Store) (e : Nat) (channels : List OutreachChannel) : Prop where
  decisions : (s.policyDecisions.filter fun d => d.inboundEventId = some e).map
    PolicyDecision.channel = channels.map some
  recorded : ∀ (d : Nat) (row : PolicyDecision), s.policyDecisions[d]? = some row →
    row.inboundEventId = some e → s.auditEvents.countP (recordedRow d) = 1
  blocked : ∀ p, s.auditEvents.countP (plannerRow e .outreachBlocked p) =
    s.policyDecisions.countP fun d =>
      d.inboundEventId = some e && (d.decision = .block && p d.channel)
  deferred : ∀ p, s.auditEvents.countP (plannerRow e .outreachDeferred p) =
    s.policyDecisions.countP fun d =>
      d.inboundEventId = some e && (d.decision = .defer && p d.channel)
  scheduled : ∀ p, s.auditEvents.countP (plannerRow e .outreachTaskScheduled p) =
    s.outreachTasks.countP fun t => createdBy s.policyDecisions e t && p (some t.channel)

/-- A task that changes from scheduled to cancelled. -/
def cancelledBetween (before after : Store) (k : Nat) : Bool :=
  (before.outreachTasks[k]?).any (fun t => t.status = .scheduled) &&
    (after.outreachTasks[k]?).any (fun t => t.status = .cancelled)

/-- A processed marker of an event. -/
def markerRow (e : Nat) (a : AuditEvent) : Bool :=
  eventRow e .plannerPaymentReceivedProcessed a || eventRow e .plannerOptOutProcessed a ||
    eventRow e .plannerHardshipProcessed a || eventRow e .plannerAccountPausedProcessed a

/-- What a store holds about a cancelling event whose ingestion led from `before` to
`after`: no decision, one processed marker, and one cancellation of each task that the
ingestion cancelled. -/
structure CancelledRecord (s : Store) (e : Nat) (before after : Store) : Prop where
  decisions : ∀ d ∈ s.policyDecisions, d.inboundEventId ≠ some e
  marker : s.auditEvents.countP (markerRow e) = 1
  cancelled : ∀ k, s.auditEvents.countP (cancellationRow e k) =
    if cancelledBetween before after k then 1 else 0

section

variable {rt : Runtime} {s s' : Store} {sub : EventSubmission}

/-- The receipt of an event has one row of each kind. -/
private theorem countP_receipt (rt : Runtime) (sub : EventSubmission) (e : Nat)
    {eventType : AuditEventType} (ht : eventType = .eventReceived ∨ eventType = .eventAccepted) :
    (receiptRows rt sub e).countP (eventRow e eventType) = 1 := by
  rcases ht with rfl | rfl <;> simp [receiptRows, eventRow, ingestionAudit]

/-- What a first ingestion leaves of its event in every later store. -/
structure Kept (rt : Runtime) (s : Store) (sub : EventSubmission) (clock : Int) (effect : Effect)
    (s' : Store) : Prop where
  sourced : Sourced s
  evolves : Evolves (applied rt s sub clock effect).1 s'
  wellFormed : WellFormed (applied rt s sub clock effect).1
  later : ∃ as, s'.auditEvents = (applied rt s sub clock effect).1.auditEvents ++ as ∧
    ∀ a ∈ as, Later (s.inboundEvents.length + 1)
      (applied rt s sub clock effect).1.policyDecisions.length a

/-- The rows of a planned event are those of its outcomes. -/
private theorem Kept.count_planned {clock : Int} {os : List Outcome}
    (h : Kept rt s sub clock (.planned os) s') {q : AuditEvent → Bool}
    (hq : ∀ a, q a = true → Concerns s.inboundEvents.length s.policyDecisions.length
      (s.policyDecisions.length + os.length) a) :
    s'.auditEvents.countP q = (receiptRows rt sub s.inboundEvents.length).countP q +
      (plannedRows (contextOf rt s sub) s.policyDecisions.length os).countP q := by
  obtain ⟨as, has, hlater⟩ := h.later
  have hlen : (applied rt s sub clock (.planned os)).1.policyDecisions.length =
      s.policyDecisions.length + os.length := by
    simp [applied]
  rw [hlen] at hlater
  rw [has, ← List.countP_append]
  exact count_own h.sourced hlater hq

/-- The decisions of an event are those of its own ingestion. -/
private theorem Kept.decisions {clock : Int} {effect : Effect}
    (h : Kept rt s sub clock effect s') (ds : List PolicyDecision)
    (hds : (applied rt s sub clock effect).1.policyDecisions = s.policyDecisions ++ ds)
    (hown : ∀ d ∈ ds, d.inboundEventId = some s.inboundEvents.length) :
    s'.policyDecisions.filter (fun d => d.inboundEventId = some s.inboundEvents.length) = ds := by
  obtain ⟨more, hmore, hnew⟩ := h.evolves.policyDecisions
  rw [hmore, hds, List.filter_append, List.filter_append, List.filter_eq_nil_iff.mpr,
    List.filter_eq_self.mpr, List.filter_eq_nil_iff.mpr, List.nil_append, List.append_nil]
  · intro d hd
    obtain ⟨e, he, hle⟩ := hnew d hd
    rw [applied_inboundEvents, List.length_append, List.length_singleton] at hle
    simp only [he, Option.some.injEq, decide_eq_true_eq]
    omega
  · intro d hd
    simp [hown d hd]
  · intro d hd he
    exact Nat.lt_irrefl _ (h.sourced.decisionEvent d hd _ (of_decide_eq_true he))

/-- A decision of a planned event has one of the keys of its pass. -/
private theorem Kept.decisionKey {clock : Int} {os : List Outcome}
    (h : Kept rt s sub clock (.planned os) s') {d : Nat} {row : PolicyDecision}
    (hrow : s'.policyDecisions[d]? = some row)
    (he : row.inboundEventId = some s.inboundEvents.length) :
    ∃ j, j < os.length ∧ d = s.policyDecisions.length + j := by
  obtain ⟨more, hmore, hnew⟩ := h.evolves.policyDecisions
  have hlen : (applied rt s sub clock (.planned os)).1.policyDecisions.length =
      s.policyDecisions.length + os.length := by
    simp [applied]
  have hlo : s.policyDecisions.length ≤ d := by
    by_contra hlt
    have hlt : d < s.policyDecisions.length := Nat.lt_of_not_le hlt
    rw [hmore, List.getElem?_append_left (by omega)] at hrow
    simp only [applied] at hrow
    rw [List.getElem?_append_left hlt] at hrow
    exact Nat.lt_irrefl _ (h.sourced.decisionEvent row (List.mem_of_getElem? hrow) _ he)
  have hhi : d < s.policyDecisions.length + os.length := by
    by_contra hge
    rw [hmore, List.getElem?_append_right (by omega)] at hrow
    obtain ⟨e, he', hle⟩ := hnew row (List.mem_of_getElem? hrow)
    rw [applied_inboundEvents, List.length_append, List.length_singleton] at hle
    rw [he, Option.some.injEq] at he'
    omega
  exact ⟨d - s.policyDecisions.length, by omega, by omega⟩

/-- The tasks of a planned event are those of its outcomes. -/
private theorem Kept.countP_tasks {clock : Int} {os : List Outcome}
    (h : Kept rt s sub clock (.planned os) s') (p : Option OutreachChannel → Bool) :
    os.countP (fun o => writesRow o .outreachTaskScheduled && p (some o.result.channel)) =
      s'.outreachTasks.countP (fun t =>
        createdBy s'.policyDecisions s.inboundEvents.length t && p (some t.channel)) := by
  have hlt : s.inboundEvents.length <
      (applied rt s sub clock (.planned os)).1.inboundEvents.length := by
    simp
  have hold : s.outreachTasks.countP (fun t => createdBy (s.policyDecisions ++
      plannedDecisions (contextOf rt s sub) os) s.inboundEvents.length t && p (some t.channel)) =
        0 := by
    rw [List.countP_eq_zero]
    intro t ht
    rw [not_createdBy_old h.sourced.toWellFormed (Nat.le_refl _) _ ht]
    simp
  have hnew : ∀ t ∈ plannedTasks (contextOf rt s sub) clock s.policyDecisions.length os,
      createdBy (s.policyDecisions ++ plannedDecisions (contextOf rt s sub) os)
        s.inboundEvents.length t = true := by
    intro t ht
    obtain ⟨j, o, time, ho, -, rfl⟩ := mem_plannedTasks.mp ht
    simp only [createdBy, taskRow, Option.any_some]
    rw [List.getElem?_append_right (Nat.le_add_right _ _), Nat.add_sub_cancel_left,
      plannedDecisions, List.getElem?_map, ho, Option.map_some, Option.any_some]
    exact decide_eq_true rfl
  rw [createdBy_evolves h.wellFormed h.evolves hlt (q := fun t => p (some t.channel))
    (fun _ => rfl)]
  simp only [applied]
  rw [List.countP_append, hold, Nat.zero_add,
    ← countP_plannedTasks (contextOf rt s sub) clock p s.policyDecisions.length]
  apply List.countP_congr
  intro t ht
  simp [hnew t ht]

/-- A planned event keeps its full record. -/
theorem Kept.planned {clock : Int} {ps : List ProposedOutreach} {os : List Outcome}
    (h : Kept rt s sub clock (.planned os) s')
    (hps : proposalsForEvent rt sub.eventType sub.occurredAt.toDatetime sub.customer.timezone =
      .ok ps)
    (hos : decideAll rt (snapshotInput sub (readsOf rt s sub).optedOut)
      (readsOf rt s sub).recent ps = .ok os) :
    PlannedRecord s' s.inboundEvents.length (proposedChannels sub.eventType) := by
  have hfilter := h.decisions (plannedDecisions (contextOf rt s sub) os) rfl (by
    intro d hd
    obtain ⟨o, -, rfl⟩ := List.mem_map.mp hd
    rfl)
  have hdecided (p : PolicyDecision → Bool) : s'.policyDecisions.countP (fun d =>
      d.inboundEventId = some s.inboundEvents.length && p d) =
      os.countP fun o => p (decisionRow (contextOf rt s sub) o.result) := by
    have hsplit := List.countP_filter (p := p)
      (q := fun d : PolicyDecision => decide (d.inboundEventId = some s.inboundEvents.length))
      (l := s'.policyDecisions)
    rw [hfilter, plannedDecisions, List.countP_map] at hsplit
    rw [List.countP_congr (q := fun d => p d && decide (d.inboundEventId =
      some s.inboundEvents.length)) (by simp [and_comm]), ← hsplit]
    rfl
  have hreceipt {eventType : AuditEventType} (p : Option OutreachChannel → Bool) :
      (receiptRows rt sub s.inboundEvents.length).countP
        (plannerRow s.inboundEvents.length eventType p) = 0 := by
    simp [receiptRows, plannerRow, ingestionAudit]
  have hrows {eventType : AuditEventType} (ht : eventType = .outreachBlocked ∨
      eventType = .outreachDeferred ∨ eventType = .outreachTaskScheduled)
      (p : Option OutreachChannel → Bool) :
      s'.auditEvents.countP (plannerRow s.inboundEvents.length eventType p) =
        os.countP fun o => writesRow o eventType && p (some o.result.channel) := by
    rw [h.count_planned, hreceipt, Nat.zero_add]
    · exact countP_plannerRow (contextOf rt s sub) ht p _ os
    · intro a ha
      simp only [plannerRow, Bool.and_eq_true, decide_eq_true_eq] at ha
      exact Or.inl ha.1.2
  refine ⟨?_, ?_, ?_, ?_, ?_⟩
  · rw [hfilter, ← proposals_channels hps, ← decideAll_channels (fun _ _ => rfl) hos,
      plannedDecisions, List.map_map, List.map_map]
    rfl
  · intro d row hrow he
    obtain ⟨j, hj, rfl⟩ := h.decisionKey hrow he
    have hreceipt : (receiptRows rt sub s.inboundEvents.length).countP
        (recordedRow (s.policyDecisions.length + j)) = 0 := by
      simp [receiptRows, recordedRow, ingestionAudit]
    rw [h.count_planned, hreceipt, Nat.zero_add]
    · exact countP_recordedRow hj
    · intro a ha
      simp only [recordedRow, Bool.and_eq_true, decide_eq_true_eq] at ha
      exact Or.inr (Or.inr ⟨ha.1.1, by omega, by omega⟩)
  · intro p
    rw [hrows (Or.inl rfl), hdecided fun d => d.decision = .block && p d.channel]
    rfl
  · intro p
    rw [hrows (Or.inr (Or.inl rfl)), hdecided fun d => d.decision = .defer && p d.channel]
    rfl
  · intro p
    rw [hrows (Or.inr (Or.inr rfl)), h.countP_tasks]

/-- The rows of a cancelling event are those of its ingestion. -/
private theorem Kept.count_cancelled {clock : Int} {marker : AuditEventType}
    (h : Kept rt s sub clock (.cancelled marker) s') {q : AuditEvent → Bool}
    (hq : ∀ a, q a = true → Concerns s.inboundEvents.length s.policyDecisions.length
      s.policyDecisions.length a) :
    s'.auditEvents.countP q = (receiptRows rt sub s.inboundEvents.length).countP q +
      ((recordRows (contextOf rt s sub)).countP q +
        (((Table.select (cancellable (contextOf rt s sub)) s.outreachTasks).map
          (cancelledRow (contextOf rt s sub))).countP q +
            [processedMarker (contextOf rt s sub) marker].countP q)) := by
  obtain ⟨as, has, hlater⟩ := h.later
  rw [has, ← List.countP_append, ← List.countP_append, ← List.countP_append]
  exact count_own h.sourced hlater hq

/-- The ingestion of a cancelling event cancels exactly the tasks that it selects. -/
private theorem cancelledBetween_applied (rt : Runtime) (s : Store) (sub : EventSubmission)
    (clock : Int) (marker : AuditEventType) (k : Nat) :
    cancelledBetween s (applied rt s sub clock (.cancelled marker)).1 k =
      (s.outreachTasks[k]?).any (cancellable (contextOf rt s sub)) := by
  simp only [cancelledBetween, applied, List.getElem?_map]
  cases s.outreachTasks[k]? with
  | none => rfl
  | some t =>
    by_cases hc : cancellable (contextOf rt s sub) t = true
    · simp [OutreachTask.cancelWhere, hc, OutreachTask.cancel, cancellable_scheduled hc]
    · cases ht : t.status <;> simp [OutreachTask.cancelWhere, hc, ht]

/-- A cancelling event keeps its full record. -/
theorem Kept.cancelled {clock : Int} {marker : AuditEventType}
    (h : Kept rt s sub clock (.cancelled marker) s')
    (hm : processedMarkers sub.eventType = some marker) :
    CancelledRecord s' s.inboundEvents.length s
      (applied rt s sub clock (.cancelled marker)).1 := by
  have hrecord {q : AuditEvent → Bool} (hq : ∀ a, PlannerRow (contextOf rt s sub) a → q a = false) :
      (recordRows (contextOf rt s sub)).countP q = 0 := by
    rw [List.countP_eq_zero]
    intro a ha
    simp [hq a (recordRows_spec _ a ha)]
  refine ⟨?_, ?_, ?_⟩
  · have hnone := h.decisions [] (List.append_nil _).symm (by simp)
    intro d hd he
    exact List.filter_eq_nil_iff.mp hnone d hd (decide_eq_true he)
  · rw [h.count_cancelled, hrecord]
    · have hselected : ((Table.select (cancellable (contextOf rt s sub)) s.outreachTasks).map
          (cancelledRow (contextOf rt s sub))).countP (markerRow s.inboundEvents.length) = 0 := by
        rw [List.countP_eq_zero]
        intro a ha
        obtain ⟨x, -, rfl⟩ := List.mem_map.mp ha
        simp [markerRow, eventRow, cancelledRow, plannerAudit]
      rw [hselected]
      cases ht : sub.eventType <;> rw [ht] at hm <;> cases hm <;>
        simp [markerRow, eventRow, receiptRows, ingestionAudit, processedMarker, contextOf]
    · intro a ha
      simp [markerRow, eventRow, ha.2.1]
    · intro a ha
      simp only [markerRow, eventRow, Bool.or_eq_true, Bool.and_eq_true, decide_eq_true_eq] at ha
      exact Or.inr (Or.inl (by tauto))
  · intro k
    rw [h.count_cancelled, hrecord, cancelledBetween_applied]
    · have hreceipt : (receiptRows rt sub s.inboundEvents.length).countP
          (cancellationRow s.inboundEvents.length k) = 0 := by
        simp [receiptRows, cancellationRow, ingestionAudit]
      have hmarker : [processedMarker (contextOf rt s sub) marker].countP
          (cancellationRow s.inboundEvents.length k) = 0 := by
        simp [cancellationRow, processedMarker]
      have hkey : cancellationRow s.inboundEvents.length k ∘ cancelledRow (contextOf rt s sub) =
          fun x => decide (x.2 = k) := by
        funext x
        rw [Bool.eq_iff_iff, decide_eq_true_iff]
        simp only [Function.comp, cancellationRow, cancelledRow, plannerAudit, contextOf,
          decide_true, Bool.true_and, Bool.and_true]
        exact decide_eq_true_iff
      rw [hreceipt, hmarker, List.countP_map, hkey, List.countP_eq_length_filter,
        Table.filter_select_key]
      cases s.outreachTasks[k]? with
      | none => simp
      | some t => by_cases hc : cancellable (contextOf rt s sub) t = true <;> simp [hc]
    · intro a ha
      simp [cancellationRow, ha.1]
    · intro a ha
      simp only [cancellationRow, Bool.and_eq_true, decide_eq_true_eq] at ha
      exact Or.inl ha.2

/-- The receipt of an event is kept. -/
theorem Kept.receipt {clock : Int} {effect : Effect} {optedOut : Bool} {recent : Nat}
    (h : Kept rt s sub clock effect s') (hd : Decided rt sub optedOut recent effect)
    {eventType : AuditEventType} (ht : eventType = .eventReceived ∨ eventType = .eventAccepted) :
    s'.auditEvents.countP (eventRow s.inboundEvents.length eventType) = 1 := by
  have hplanner {rows : List AuditEvent} (hrows : ∀ a ∈ rows, PlannerRow (contextOf rt s sub) a) :
      rows.countP (eventRow s.inboundEvents.length eventType) = 0 := by
    rw [List.countP_eq_zero]
    intro a ha
    simp [eventRow, (hrows a ha).2.1]
  have hconcerns {lo hi : Nat} : ∀ a, eventRow s.inboundEvents.length eventType a = true →
      Concerns s.inboundEvents.length lo hi a := by
    intro a ha
    simp only [eventRow, Bool.and_eq_true, decide_eq_true_eq] at ha
    exact Or.inr (Or.inl ha.1)
  cases hd with
  | @planned ps os policyEvent window proposed decided =>
    rw [h.count_planned hconcerns, countP_receipt rt sub _ ht, hplanner plannedRows_spec]
  | @cancelled marker hm =>
    have hselected : ((Table.select (cancellable (contextOf rt s sub)) s.outreachTasks).map
        (cancelledRow (contextOf rt s sub))).countP (eventRow s.inboundEvents.length eventType) =
          0 := by
      rw [List.countP_eq_zero]
      intro a ha
      obtain ⟨x, -, rfl⟩ := List.mem_map.mp ha
      simp [eventRow, cancelledRow, plannerAudit]
    have hmarker : [processedMarker (contextOf rt s sub) marker].countP
        (eventRow s.inboundEvents.length eventType) = 0 := by
      cases he : sub.eventType <;> rw [he] at hm <;> cases hm <;> rcases ht with rfl | rfl <;>
        simp [eventRow, processedMarker]
    rw [h.count_cancelled hconcerns, countP_receipt rt sub _ ht, hplanner (recordRows_spec _),
      hselected, hmarker]

end

/-! ### Every event of every reachable store -/

/-- What the store that a run reaches holds about one of its events. -/
structure CompleteEvent (rt : Runtime) (clock : Int) (ops : List Op) (e : Nat)
    (event : InboundEvent) : Prop where
  processed : event.processingStatus = .processed
  received : (run (step rt) (start clock) ops).store.auditEvents.countP
    (eventRow e .eventReceived) = 1
  accepted : (run (step rt) (start clock) ops).store.auditEvents.countP
    (eventRow e .eventAccepted) = 1
  kind : (event.eventType = .accountDelinquent ∨ event.eventType = .paymentFailed) ∨
    event.eventType.cancelling = true
  planned : event.eventType = .accountDelinquent ∨ event.eventType = .paymentFailed →
    PlannedRecord (run (step rt) (start clock) ops).store e (proposedChannels event.eventType)
  cancelled : event.eventType.cancelling = true → ∃ before sub after,
    ops = before ++ .ingestEvent sub :: after ∧
    (run (step rt) (start clock) before).store.inboundEvents.length = e ∧
    CancelledRecord (run (step rt) (start clock) ops).store e
      (run (step rt) (start clock) before).store
      (run (step rt) (start clock) (before ++ [.ingestEvent sub])).store

/-- The rows that an ingestion leaves are kept by every continuation. -/
private theorem run_kept (rt : Runtime) (clock : Int) {before : List Op} (after : List Op)
    {sub : EventSubmission} {effect : Effect}
    (hstore : (run (step rt) (start clock) (before ++ [.ingestEvent sub])).store =
      (applied rt (run (step rt) (start clock) before).store sub
        (run (step rt) (start clock) before).clock effect).1) :
    Kept rt (run (step rt) (start clock) before).store sub
      (run (step rt) (start clock) before).clock effect
      (run (step rt) (start clock) (before ++ .ingestEvent sub :: after)).store := by
  have hsplit : run (step rt) (start clock) (before ++ .ingestEvent sub :: after) =
      run (step rt) (run (step rt) (start clock) (before ++ [.ingestEvent sub])) after := by
    rw [← run_append, List.append_assoc]
    rfl
  have hpost := run_sourced rt clock (before ++ [.ingestEvent sub])
  have hevolves := run_evolves rt _ hpost.toWellFormed after
  have hlater := run_later rt _ hpost after
  rw [← hsplit, hstore] at hevolves hlater
  rw [hstore] at hpost
  refine ⟨run_sourced rt clock before, hevolves, hpost.toWellFormed, ?_⟩
  simpa using hlater

/-- In every reachable store every event is complete. -/
theorem run_complete (rt : Runtime) (clock : Int) (ops : List Op) (e : Nat) (event : InboundEvent)
    (he : (run (step rt) (start clock) ops).store.inboundEvents[e]? = some event) :
    CompleteEvent rt clock ops e event := by
  obtain ⟨before, sub, after, effect, rfl, hlen, hadmitted, hstore⟩ :=
    event_committed rt clock ops (List.getElem?_eq_some_iff.mp he).1
  have hkept := run_kept rt clock after hstore
  subst hlen
  have hevent : event = storedEvent rt sub := by
    obtain ⟨more, hmore⟩ := hkept.evolves.inboundEvents
    rw [← hmore, applied_inboundEvents, List.getElem?_append_left (by simp),
      List.getElem?_append_right (Nat.le_refl _), Nat.sub_self] at he
    exact (Option.some.inj he).symm
  subst hevent
  cases hadmitted.decision with
  | @planned ps os policyEvent window proposed decided =>
    refine ⟨rfl, hkept.receipt hadmitted.decision (Or.inl rfl),
      hkept.receipt hadmitted.decision (Or.inr rfl), Or.inl policyEvent,
      fun _ => hkept.planned proposed decided, fun hc => ?_⟩
    rcases policyEvent with ht | ht <;>
      simp [storedEvent, inboundEventRow, ht, EventType.cancelling] at hc
  | cancelled hmarker =>
    refine ⟨rfl, hkept.receipt hadmitted.decision (Or.inl rfl),
      hkept.receipt hadmitted.decision (Or.inr rfl), Or.inr ?_, fun ht => ?_,
      fun _ => ⟨before, sub, after, rfl, rfl, ?_⟩⟩
    · simp only [storedEvent, inboundEventRow]
      cases ht : sub.eventType <;> rw [ht] at hmarker <;> first | rfl | cases hmarker
    · rcases ht with ht | ht <;> simp only [storedEvent, inboundEventRow] at ht <;>
        rw [ht] at hmarker <;> cases hmarker
    · rw [hstore]
      exact hkept.cancelled hmarker

end Orchestrator.System
