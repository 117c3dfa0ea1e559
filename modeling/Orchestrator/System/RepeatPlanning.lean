import Orchestrator.System.Operations
import Orchestrator.Orchestration.ClosedForm

/-!
# Repeated planning

Planning an event a second time. A policy event is guarded by its decisions and a
cancelling event by its processed marker, so a later call finds the event, its customer
and its account as the first one did and then changes nothing, whatever was committed in
between.
-/

namespace Orchestrator.System

open Base Domain Orchestration Workers

/-- The columns of an event that never change: all but its processing status. -/
def unprocessed (e : InboundEvent) : InboundEvent := { e with processingStatus := .received }

/-- An account's external id and its owner. -/
def ownership (a : Account) : String × Nat := (a.externalId, a.customerId)

/-- What a later store keeps of an earlier one for planning: keys, external ids, owners and
events, and every decision and audit row. -/
structure Keeps (s s' : Store) : Prop where
  customers : s.customers.map Customer.externalId <+: s'.customers.map Customer.externalId
  accounts : s.accounts.map ownership <+: s'.accounts.map ownership
  inboundEvents : s.inboundEvents.map unprocessed <+: s'.inboundEvents.map unprocessed
  policyDecisions : s.policyDecisions <+: s'.policyDecisions
  auditEvents : s.auditEvents <+: s'.auditEvents

namespace Keeps

/-- A store keeps itself. -/
theorem refl (s : Store) : Keeps s s :=
  ⟨List.prefix_refl _, List.prefix_refl _, List.prefix_refl _, List.prefix_refl _,
    List.prefix_refl _⟩

/-- What is kept twice is kept. -/
theorem trans {s t u : Store} (h : Keeps s t) (h' : Keeps t u) : Keeps s u where
  customers := h.customers.trans h'.customers
  accounts := h.accounts.trans h'.accounts
  inboundEvents := h.inboundEvents.trans h'.inboundEvents
  policyDecisions := h.policyDecisions.trans h'.policyDecisions
  auditEvents := h.auditEvents.trans h'.auditEvents

/-- A commit that writes tasks and appends audit rows keeps the rest. -/
theorem of_tasks (s : Store) (tasks : List OutreachTask) (rows : List AuditEvent) :
    Keeps s { s with outreachTasks := tasks, auditEvents := s.auditEvents ++ rows } :=
  { refl s with auditEvents := List.prefix_append _ _ }

/-- Marking an event as processed keeps everything. -/
theorem markProcessed (s : Store) (eventId : Nat) : Keeps s (Domain.markProcessed s eventId) := by
  have hcolumn : (Domain.markProcessed s eventId).inboundEvents.map unprocessed =
      s.inboundEvents.map unprocessed := by
    apply Table.map_modify
    exact fun _ => rfl
  exact { refl s with inboundEvents := hcolumn ▸ List.prefix_refl _ }

end Keeps

/-! ### What the planner keeps -/

/-- A planner call that succeeds keeps the rows that it does not write. -/
theorem planEvent_keeps {rt : Runtime} {s s' : Store} {ctx : EventContext} {now : Datetime}
    {cap : Nat} {clock : Int} {r : PlannerResult}
    (h : planEvent rt s ctx now cap clock = .ok (s', r)) : Keeps s s' := by
  rcases planEvent_cases h with ⟨-, h⟩ | ⟨marker, record, hc, h⟩
  · rcases planPolicyEvent_ok h with ⟨-, rfl⟩ | ⟨n, ps, os, -, -, -, rfl⟩
    · exact .refl s'
    · exact { Keeps.refl s with
        policyDecisions := List.prefix_append _ _
        auditEvents := List.prefix_append _ _ }
  · cases hm : hasProcessedMarker s ctx.inboundEventId marker with
    | true =>
      rw [handleOnce, if_pos hm] at h
      cases h
      exact .refl s
    | false =>
      have howned : (recordAccounts ctx s.accounts).map ownership = s.accounts.map ownership :=
        recordAccounts_column (fun _ => rfl) ctx s.accounts
      rw [handleOnce_fresh hc hm] at h
      cases h
      exact { Keeps.refl s with
        customers := (recordCustomers_externalId ctx s.customers).symm ▸ List.prefix_refl _
        accounts := howned.symm ▸ List.prefix_refl _
        auditEvents := List.prefix_append _ _ }

/-- An ingestion that commits keeps the rows that it does not write. -/
theorem ingest_keeps {rt : Runtime} {s s' : Store} {sub : EventSubmission} {clock : Int}
    {r : EventIngestionResult} (h : ingestEventSnapshot rt s sub clock = .ok (s', r)) :
    Keeps s s' := by
  rcases ingestEventSnapshot_ok h with
    ⟨id, -, -, rfl, -⟩ | ⟨ctx, customers, accounts, planned, pr, hf, hp, rfl, -⟩
  · exact .refl s'
  · have haccepted : Keeps s (acceptedStore rt s sub customers accounts) := {
      customers := hf.customer.column fun _ => rfl
      accounts := hf.account.column fun _ => rfl
      inboundEvents := by simp [acceptedStore]
      policyDecisions := List.prefix_refl _
      auditEvents := List.prefix_append _ _ }
    exact (haccepted.trans (planEvent_keeps hp)).trans (.markProcessed planned _)

/-- Every operation keeps the rows that it does not write. -/
theorem Step.keeps {rt : Runtime} {s s' : Sys} {op : Op} (h : Step rt s op s') :
    Keeps s.store s'.store := by
  cases h with
  | idle store _ _ =>
    rw [store]
    exact .refl _
  | claimed _ _ _ => exact .of_tasks _ _ _
  | settled _ _ _ _ => exact .of_tasks _ _ _
  | ingested h => exact ingest_keeps h
  | recorded _ _ => exact .of_tasks _ _ _
  | operatorCancelled _ _ =>
    rw [cancelScheduledAccountOutreach_eq]
    exact .of_tasks _ _ _

/-! ### The guard of an event -/

/-- The guard of an event that was planned: its decisions, or its type's processed marker. -/
def Guard (s : Store) (eventId : Nat) (eventType : EventType) : Prop :=
  PolicyEvent eventType ∧ (∃ d ∈ s.policyDecisions, d.inboundEventId = some eventId) ∨
    ∃ marker, processedMarkers eventType = some marker ∧
      hasProcessedMarker s eventId marker = true

/-- A guard stays set. -/
theorem Guard.keeps {s s' : Store} {eventId : Nat} {eventType : EventType}
    (h : Guard s eventId eventType) (hk : Keeps s s') : Guard s' eventId eventType := by
  rcases h with ⟨he, d, hd, hid⟩ | ⟨marker, hm, hany⟩
  · exact Or.inl ⟨he, d, hk.policyDecisions.subset hd, hid⟩
  · refine Or.inr ⟨marker, hm, ?_⟩
    obtain ⟨a, ha, hx⟩ := List.any_eq_true.mp hany
    exact List.any_eq_true.mpr ⟨a, hk.auditEvents.subset ha, hx⟩

/-- The marker of a cancelling event is the one of its type. -/
theorem processedMarkers_of_cancelling {ctx : EventContext} {marker : AuditEventType}
    {record : Store → Store} (h : CancellingEvent ctx marker record) :
    processedMarkers ctx.inboundEvent.eventType = some marker := by
  cases h <;> next h => rw [h, processedMarkers]

/-- Planning a policy event decides something. -/
theorem decided_of_outcomes {rt : Runtime} {s : Store} {ctx : EventContext} {now : Datetime}
    {cap n : Nat} {clock : Int} {ps : List ProposedOutreach} {os : List Outcome}
    (hps : proposalsForEvent rt ctx.inboundEvent.eventType now ctx.customer.timezone = .ok ps)
    (hos : decideAll rt (policyInput ctx cap) n ps = .ok os)
    (he : PolicyEvent ctx.inboundEvent.eventType) :
    ∃ d ∈ (plannedStore ctx clock s os).policyDecisions,
      d.inboundEventId = some ctx.inboundEventId := by
  have hchannels := (decideAll_channels (fun _ _ => rfl) hos).trans (proposals_channels hps)
  cases os with
  | nil => rcases he with he | he <;> simp [he, proposedChannels] at hchannels
  | cons o os =>
    refine ⟨decisionRow ctx o.result, ?_, rfl⟩
    simp [plannedStore, plannedDecisions]

/-- Every planner call that succeeds leaves the guard of its event set. -/
theorem planEvent_guard {rt : Runtime} {s s' : Store} {ctx : EventContext} {now : Datetime}
    {cap : Nat} {clock : Int} {r : PlannerResult}
    (h : planEvent rt s ctx now cap clock = .ok (s', r)) :
    Guard s' ctx.inboundEventId ctx.inboundEvent.eventType := by
  rcases planEvent_cases h with ⟨he, h⟩ | ⟨marker, record, hc, h⟩
  · refine Or.inl ⟨he, ?_⟩
    rcases planPolicyEvent_ok h with ⟨hdecided, rfl⟩ | ⟨n, ps, os, -, hps, hos, rfl⟩
    · exact hdecided
    · exact decided_of_outcomes hps hos he
  · refine Or.inr ⟨marker, processedMarkers_of_cancelling hc, ?_⟩
    cases hm : hasProcessedMarker s ctx.inboundEventId marker with
    | true =>
      rw [handleOnce, if_pos hm] at h
      cases h
      exact hm
    | false =>
      rw [handleOnce_fresh hc hm] at h
      cases h
      simp [hasProcessedMarker, cancelledStore, processedMarker]

/-- A planner call behind its guard returns zeros and writes nothing. -/
theorem planEvent_of_guard {rt : Runtime} {s : Store} {ctx : EventContext} {now : Datetime}
    {cap : Nat} {clock : Int} (h : Guard s ctx.inboundEventId ctx.inboundEvent.eventType) :
    planEvent rt s ctx now cap clock = .ok (s, { inboundEventId := ctx.inboundEventId }) := by
  have hpolicy (hd : ∃ d ∈ s.policyDecisions, d.inboundEventId = some ctx.inboundEventId) :
      planPolicyEvent rt s ctx now cap clock =
        .ok (s, { inboundEventId := ctx.inboundEventId }) := by
    obtain ⟨d, hd, hid⟩ := hd
    rw [planPolicyEvent, if_pos]
    exact List.any_eq_true.mpr ⟨d, hd, decide_eq_true hid⟩
  have honce {marker : AuditEventType} (record : Store → Store)
      (hm : hasProcessedMarker s ctx.inboundEventId marker = true) :
      handleOnce s ctx marker record = (s, { inboundEventId := ctx.inboundEventId }) := by
    rw [handleOnce, if_pos hm]
  rcases h with ⟨he, hd⟩ | ⟨marker, hm, hany⟩
  · rcases he with he | he <;> simp only [planEvent, he, hpolicy hd]
  · cases he : ctx.inboundEvent.eventType <;> rw [he] at hm <;> cases hm <;>
      simp only [planEvent, handleCancellationEvent, he, honce _ hany]

/-! ### Planning again -/

/-- A later store finds the rows of an event under the same keys. -/
theorem loadCustomerAndAccount_keeps {s s' : Store} (hk : Keeps s s') {e e' : InboundEvent}
    (he : unprocessed e' = unprocessed e) {cid aid : Nat} {c : Customer} {a : Account}
    (h : loadCustomerAndAccount s e = .ok ((cid, c), (aid, a))) :
    ∃ c' a', loadCustomerAndAccount s' e' = .ok ((cid, c'), (aid, a')) := by
  have hcustomer : e'.customerExternalId = e.customerExternalId :=
    congrArg (fun x => x.customerExternalId) he
  have haccount : e'.accountExternalId = e.accountExternalId :=
    congrArg (fun x => x.accountExternalId) he
  obtain ⟨hcid, hc, haid, ha, hown⟩ := loadCustomerAndAccount_eq_ok.mp h
  have hids : s.accounts.map Account.externalId <+: s'.accounts.map Account.externalId := by
    have hmap := hk.accounts.map Prod.fst
    rw [List.map_map, List.map_map] at hmap
    exact hmap
  obtain ⟨c', hc', -⟩ := Table.row_of_prefix hk.customers hc
  obtain ⟨a', ha', hown'⟩ := Table.row_of_prefix hk.accounts ha
  refine ⟨c', a', loadCustomerAndAccount_eq_ok.mpr ⟨?_, hc', ?_, ha', ?_⟩⟩
  · rw [hcustomer]
    exact Table.lookup_of_prefix hk.customers hcid
  · rw [haccount]
    exact Table.lookup_of_prefix hids haid
  · exact (congrArg Prod.snd hown').trans hown

/-- A later store finds an event with its customer and its account. -/
private theorem found_keeps {s s' : Store} (hk : Keeps s s') {eventId : Nat} {e : InboundEvent}
    {x : (Nat × Customer) × Nat × Account} (he : s.inboundEvents[eventId]? = some e)
    (h : loadCustomerAndAccount s e = .ok x) :
    ∃ e' x', s'.inboundEvents[eventId]? = some e' ∧ e'.eventType = e.eventType ∧
      loadCustomerAndAccount s' e' = .ok x' := by
  obtain ⟨e', he', hsame⟩ := Table.row_of_prefix hk.inboundEvents he
  obtain ⟨c', a', h'⟩ := loadCustomerAndAccount_keeps hk hsame h
  exact ⟨e', _, he', congrArg (fun x => x.eventType) hsame, h'⟩

/-- The planner finds the event with its customer and account, and its guard is set. -/
def Planned (s : Store) (eventId : Nat) : Prop :=
  ∃ e c a, s.inboundEvents[eventId]? = some e ∧ loadCustomerAndAccount s e = .ok (c, a) ∧
    Guard s eventId e.eventType

/-- A planned event stays planned. -/
theorem Planned.keeps {s s' : Store} {eventId : Nat} (h : Planned s eventId)
    (hk : Keeps s s') : Planned s' eventId := by
  obtain ⟨e, c, a, he, hload, hguard⟩ := h
  obtain ⟨e', ⟨c', a'⟩, he', htype, hload'⟩ := found_keeps hk he hload
  exact ⟨e', c', a', he', hload', htype ▸ hguard.keeps hk⟩

/-- A planning pass that succeeds leaves its event planned. -/
theorem planEvent_planned {rt : Runtime} {s s' : Store} {e : InboundEvent} {now : Datetime}
    {eventId cid aid correlationId cap : Nat} {c : Customer} {a : Account} {clock : Int}
    {r : PlannerResult} (he : s.inboundEvents[eventId]? = some e)
    (hload : loadCustomerAndAccount s e = .ok ((cid, c), (aid, a)))
    (h : planEvent rt s ⟨eventId, e, cid, c, aid, a, correlationId⟩ now cap clock = .ok (s', r)) :
    Planned s' eventId := by
  obtain ⟨e', ⟨c', a'⟩, he', htype, hload'⟩ := found_keeps (planEvent_keeps h) he hload
  exact ⟨e', c', a', he', hload', htype ▸ planEvent_guard h⟩

/-- A planner call that succeeds leaves its event planned and keeps what it does not write. -/
theorem planOutreachForEvent_planned {rt : Runtime} {s s' : Store} {eventId correlationId : Nat}
    {now : Datetime} {cap : Nat} {clock : Int} {r : PlannerResult}
    (h : planOutreachForEvent rt s eventId correlationId now cap clock = .ok (s', r)) :
    Planned s' eventId ∧ Keeps s s' := by
  obtain ⟨e, ⟨cid, c⟩, ⟨aid, a⟩, he, hload, h⟩ := planOutreachForEvent_ok h
  exact ⟨planEvent_planned he hload h, planEvent_keeps h⟩

/-- The first ingestion of an event leaves it planned. -/
theorem ingest_planned {rt : Runtime} {s s' : Store} {sub : EventSubmission} {clock : Int}
    {r : EventIngestionResult} (hnew : s.findExistingEvent sub.source sub.externalId = none)
    (h : ingestEventSnapshot rt s sub clock = .ok (s', r)) : Planned s' r.eventId := by
  rcases ingestEventSnapshot_ok h with
    ⟨id, hid, -, -⟩ | ⟨ctx, customers, accounts, planned, pr, hf, hp, rfl, rfl⟩
  · cases hnew.symm.trans hid
  · obtain ⟨eventId, e, cid, c, aid, a, correlationId⟩ := ctx
    obtain rfl : eventId = s.inboundEvents.length := hf.inboundEventId
    obtain rfl : e = inboundEventRow rt sub := hf.inboundEvent
    have hrow : (acceptedStore rt s sub customers accounts).inboundEvents[s.inboundEvents.length]? =
        some (inboundEventRow rt sub) := by simp [acceptedStore]
    have hload : loadCustomerAndAccount (acceptedStore rt s sub customers accounts)
        (inboundEventRow rt sub) = .ok ((cid, c), (aid, a)) :=
      loadCustomerAndAccount_eq_ok.mpr ⟨hf.customer.found (fun _ => rfl) rfl,
        hf.customer.stored, hf.account.found (fun _ => rfl) rfl, hf.account.stored, hf.owner⟩
    exact (planEvent_planned hrow hload hp).keeps (.markProcessed planned _)

/-- Planning a planned event returns zeros and writes nothing. -/
theorem Planned.repeat_eq {s : Store} {eventId : Nat} (h : Planned s eventId) (rt : Runtime)
    (correlationId : Nat) (now : Datetime) (cap : Nat) (clock : Int) :
    planOutreachForEvent rt s eventId correlationId now cap clock =
      .ok (s, { inboundEventId := eventId }) := by
  obtain ⟨e, ⟨cid, c⟩, ⟨aid, a⟩, he, hload, hguard⟩ := h
  rw [planOutreachForEvent, he]
  simp only [orThrow, hload, bind, Except.bind]
  exact planEvent_of_guard hguard

/-- What may be committed between two planner calls: an operation, a planner call for any
event, or the processed status that ingestion sets after its own call. -/
inductive Work where
  | operate (op : Op)
  | plan (eventId correlationId : Nat) (now : Datetime) (frequencyCap : Nat)
  | markProcessed (eventId : Nat)

/-- Commit one piece of work; a planner call that raises commits nothing. -/
def work (rt : Runtime) (s : Sys) : Work → Sys
  | .operate op => step rt s op
  | .plan eventId correlationId now frequencyCap =>
    match planOutreachForEvent rt s.store eventId correlationId now frequencyCap s.clock with
    | .ok (store, _) => s.commit store
    | .error _ => s
  | .markProcessed eventId => s.commit (Domain.markProcessed s.store eventId)

/-- All work keeps the rows that it does not write. -/
theorem work_keeps (rt : Runtime) (s : Sys) (w : Work) : Keeps s.store (work rt s w).store := by
  cases w with
  | operate op => exact (step_spec rt s op).keeps
  | plan eventId correlationId now cap =>
    simp only [work]
    split
    · next h => exact (planOutreachForEvent_planned h).2
    · exact .refl _
  | markProcessed eventId => exact .markProcessed _ _

/-- An event that was planned once, directly or by its ingestion, stays planned. -/
theorem run_planned (rt : Runtime) {s : Sys} {eventId : Nat} (h : Planned s.store eventId)
    (works : List Work) : Planned (run (work rt) s works).store eventId :=
  run_invariant (I := fun s : Sys => Planned s.store eventId)
    (fun s w hs => hs.keeps (work_keeps rt s w)) s h works

/-- Planning is repeat-safe: from any store, once a planner call for an event has succeeded
and whatever is committed after it, planning the event again at any time, under any
correlation id and any cap, returns zeros and leaves the store as it is. -/
theorem planOutreachForEvent_repeat (rt : Runtime) (s : Sys) {eventId correlationId cap : Nat}
    {now : Datetime} {store : Store} {r : PlannerResult}
    (h : planOutreachForEvent rt s.store eventId correlationId now cap s.clock = .ok (store, r))
    (works : List Work) (correlationId' cap' : Nat) (now' : Datetime) (clock : Int) :
    planOutreachForEvent rt (run (work rt) (s.commit store) works).store eventId correlationId'
        now' cap' clock =
      .ok ((run (work rt) (s.commit store) works).store, { inboundEventId := eventId }) :=
  (run_planned rt (planOutreachForEvent_planned h).1 works).repeat_eq rt _ _ _ _

/-- A delinquency planned again after a pause of its account and a worker's claim. -/
theorem planOutreachForEvent_repeat_demo :
    ∃ store r, planOutreachForEvent utcRuntime delinquentStore 0 1
        (utcReading (15 * day) (by decide)) 3 0 = .ok (store, r) ∧
      planOutreachForEvent utcRuntime
          (run (work utcRuntime) ⟨store, fun _ => none, 0⟩
            [.operate (.ingestEvent (demoEvent "event-2" .accountPaused "acct-1" demoNoon)),
              .operate (.startPass 0 { now := demoMonday }), .operate (.claim 0)]).store
          0 2 demoNoon.toDatetime 9 0 =
        .ok ((run (work utcRuntime) ⟨store, fun _ => none, 0⟩
            [.operate (.ingestEvent (demoEvent "event-2" .accountPaused "acct-1" demoNoon)),
              .operate (.startPass 0 { now := demoMonday }), .operate (.claim 0)]).store,
          { inboundEventId := 0 }) := by
  have hfirst : ∃ x, planOutreachForEvent utcRuntime delinquentStore 0 1
      (utcReading (15 * day) (by decide)) 3 0 = .ok x := ⟨_, rfl⟩
  obtain ⟨⟨store, r⟩, hfirst⟩ := hfirst
  exact ⟨store, r, hfirst, planOutreachForEvent_repeat utcRuntime
    ⟨delinquentStore, fun _ => none, 0⟩ hfirst _ _ _ _ _⟩

end Orchestrator.System
