import Orchestrator.Domain.EventIngestion
import Orchestrator.Orchestration.PlannerEffect

/-!
# Effect of an ingestion

What a successful `ingest_event_snapshot` commits. A call is a replay that reads the
stored event back, or the first ingestion of its event: two upserts, one event row, two
receipt rows, and then either a grown planning pass or a cancellation. Later modules use
these laws and do not unfold the ingestion.
-/

namespace Orchestrator.Domain

open Base Orchestration

/-- References of a store: decisions, tasks and audit rows point at rows that exist. -/
structure WellFormed (s : Store) : Prop where
  decisionEvent : ∀ d ∈ s.policyDecisions, ∀ e, d.inboundEventId = some e →
    e < s.inboundEvents.length
  taskDecision : ∀ t ∈ s.outreachTasks, ∃ d, t.policyDecisionId = some d ∧
    d < s.policyDecisions.length
  auditPayload : ∀ a ∈ s.auditEvents, ∀ e, a.payload.inboundEventId = some e →
    e < s.inboundEvents.length
  auditEvent : ∀ a ∈ s.auditEvents, a.entityType = .inboundEvent →
    a.entityId < s.inboundEvents.length
  auditTask : ∀ a ∈ s.auditEvents, a.entityType = .outreachTask →
    a.entityId < s.outreachTasks.length

/-- The event row as it is committed. -/
def storedEvent (rt : Runtime) (sub : EventSubmission) : InboundEvent :=
  { inboundEventRow rt sub with processingStatus := .processed }

/-- The two receipt rows of an event. -/
def receiptRows (rt : Runtime) (sub : EventSubmission) (eventId : Nat) : List AuditEvent :=
  [ingestionAudit (inboundEventRow rt sub) eventId sub.correlationId .eventReceived .apiClient,
    ingestionAudit (inboundEventRow rt sub) eventId sub.correlationId .eventAccepted .system]

/-- The store that the planner starts from. -/
def acceptedStore (rt : Runtime) (s : Store) (sub : EventSubmission) (customers : List Customer)
    (accounts : List Account) : Store :=
  { s with
    customers := customers
    accounts := accounts
    inboundEvents := s.inboundEvents ++ [inboundEventRow rt sub]
    auditEvents := s.auditEvents ++ receiptRows rt sub s.inboundEvents.length }

/-- A fresh event with the rows that its upserts left and the planner reads. -/
structure Fresh (rt : Runtime) (s : Store) (sub : EventSubmission) (ctx : EventContext)
    (customers : List Customer) (accounts : List Account) : Prop where
  unseen : s.findExistingEvent sub.source sub.externalId = none
  inboundEventId : ctx.inboundEventId = s.inboundEvents.length
  inboundEvent : ctx.inboundEvent = inboundEventRow rt sub
  correlationId : ctx.correlationId = sub.correlationId
  customer : Table.Upsert Customer.externalId sub.customer.externalId
    (applyCustomerSnapshot sub.customer (newCustomer sub.customer.externalId sub.customer.fullName))
    (applyCustomerSnapshot sub.customer) s.customers customers ctx.customerId ctx.customer
  account : Table.Upsert Account.externalId sub.account.externalId
    (newAccount sub.account ctx.customerId) (applyAccountSnapshot sub.account)
    s.accounts accounts ctx.accountId ctx.account
  owner : ctx.account.customerId = ctx.customerId

/-- A successful customer upsert. -/
theorem upsertCustomer_ok {s s' : Store} {snapshot : CustomerSnapshot} {id : Nat}
    (h : upsertCustomer s snapshot = .ok (s', id)) :
    ∃ customers row, s' = { s with customers := customers } ∧
      Table.Upsert Customer.externalId snapshot.externalId
        (applyCustomerSnapshot snapshot (newCustomer snapshot.externalId snapshot.fullName))
        (applyCustomerSnapshot snapshot) s.customers customers id row := by
  unfold upsertCustomer at h
  split at h
  · next hl =>
    dsimp only at h
    split at h
    · cases h
      exact ⟨_, _, rfl, .insert hl⟩
    · cases h
  · next k hl =>
    dsimp only at h
    split at h
    · cases h
      obtain ⟨r, hr, -⟩ := Table.lookup_eq_some hl
      exact ⟨_, _, rfl, .update hl hr⟩
    · cases h

/-- A successful account upsert kept the owner of a stored account. -/
theorem upsertAccount_ok {s s' : Store} {snapshot : AccountSnapshot} {customerId id : Nat}
    (h : upsertAccount s snapshot customerId = .ok (s', id)) :
    ∃ accounts row, s' = { s with accounts := accounts } ∧ row.customerId = customerId ∧
      Table.Upsert Account.externalId snapshot.externalId (newAccount snapshot customerId)
        (applyAccountSnapshot snapshot) s.accounts accounts id row := by
  unfold upsertAccount at h
  split at h
  · next hl =>
    dsimp only at h
    split at h
    · cases h
      exact ⟨_, _, rfl, rfl, .insert hl⟩
    · cases h
  · next k hl =>
    split at h
    · cases h
    · next hown =>
      dsimp only at h
      split at h
      · cases h
        obtain ⟨r, hr, -⟩ := Table.lookup_eq_some hl
        have hr' : r.customerId = customerId := by simpa [hr] using hown
        exact ⟨_, applyAccountSnapshot snapshot r, rfl, hr', .update hl hr⟩
      · cases h

/-- A successful insert of an inbound event appended it. -/
theorem insertInboundEvent_ok {s s' : Store} {row : InboundEvent} {id : Nat}
    (h : insertInboundEvent s row = .ok (s', id)) :
    s' = { s with inboundEvents := s.inboundEvents ++ [row] } ∧ id = s.inboundEvents.length := by
  unfold insertInboundEvent at h
  split at h
  · cases h
  · split at h
    · cases h
    · split at h
      · cases h
      · cases h
        exact ⟨rfl, rfl⟩

/-- The planner finds the rows that the upserts left. -/
theorem planOutreachForEvent_accepted {rt : Runtime} {s : Store} {sub : EventSubmission}
    {customers : List Customer} {accounts : List Account} {cid aid : Nat} {c : Customer}
    {a : Account} {now : Datetime} {cap : Nat} {clock : Int}
    (hc : Table.lookup Customer.externalId sub.customer.externalId customers = some cid)
    (hcr : customers[cid]? = some c)
    (ha : Table.lookup Account.externalId sub.account.externalId accounts = some aid)
    (har : accounts[aid]? = some a) (hown : a.customerId = cid) :
    planOutreachForEvent rt (acceptedStore rt s sub customers accounts) s.inboundEvents.length
        sub.correlationId now cap clock =
      planEvent rt (acceptedStore rt s sub customers accounts)
        ⟨s.inboundEvents.length, inboundEventRow rt sub, cid, c, aid, a, sub.correlationId⟩
        now cap clock := by
  have he : (acceptedStore rt s sub customers accounts).inboundEvents[s.inboundEvents.length]? =
      some (inboundEventRow rt sub) := by simp [acceptedStore]
  have hload : loadCustomerAndAccount (acceptedStore rt s sub customers accounts)
      (inboundEventRow rt sub) = .ok ((cid, c), (aid, a)) :=
    loadCustomerAndAccount_eq_ok.mpr ⟨hc, hcr, ha, har, hown⟩
  rw [planOutreachForEvent, he]
  simp only [orThrow, hload, bind, Except.bind]

/-- A successful call is a replay or the first ingestion of its event. -/
theorem ingestEventSnapshot_ok {rt : Runtime} {s s' : Store} {sub : EventSubmission}
    {clock : Int} {r : EventIngestionResult}
    (h : ingestEventSnapshot rt s sub clock = .ok (s', r)) :
    (∃ id, s.findExistingEvent sub.source sub.externalId = some id ∧
      cancellationsReadable s = true ∧ s' = s ∧ r = storedResult s id) ∨
    ∃ ctx customers accounts planned pr, Fresh rt s sub ctx customers accounts ∧
      planEvent rt (acceptedStore rt s sub customers accounts) ctx sub.occurredAt.toDatetime
        defaultFrequencyCap clock = .ok (planned, pr) ∧
      s' = markProcessed planned s.inboundEvents.length ∧
      r = resultFromPlanner s.inboundEvents.length pr := by
  cases hseen : s.findExistingEvent sub.source sub.externalId with
  | some id => exact Or.inl ⟨id, rfl, ingestEventSnapshot_replayed hseen h⟩
  | none =>
    rw [ingestEventSnapshot, hseen] at h
    obtain ⟨⟨s₁, cid⟩, hcust, h⟩ := bind_eq_ok.mp h
    obtain ⟨⟨s₂, aid⟩, hacc, h⟩ := bind_eq_ok.mp h
    obtain ⟨customers, c, rfl, hcu⟩ := upsertCustomer_ok hcust
    obtain ⟨accounts, a, rfl, hown, hau⟩ := upsertAccount_ok hacc
    dsimp only at h
    split at h
    · next inserted eventId hins =>
      obtain ⟨rfl, rfl⟩ := insertInboundEvent_ok hins
      obtain ⟨⟨planned, pr⟩, hplan, h⟩ := bind_eq_ok.mp h
      cases h
      refine Or.inr ⟨⟨s.inboundEvents.length, inboundEventRow rt sub, cid, c, aid, a,
        sub.correlationId⟩, customers, accounts, planned, pr,
        ⟨hseen, rfl, rfl, rfl, hcu, hau, hown⟩, ?_, rfl, rfl⟩
      rw [← planOutreachForEvent_accepted (hcu.found (fun _ => rfl) rfl) hcu.stored
        (hau.found (fun _ => rfl) rfl) hau.stored hown]
      simpa [acceptedStore, receiptRows, Store.appendAuditEvent] using hplan
    · simp at h
    · cases h

/-- A successful call by what it commits. -/
inductive Ingested (rt : Runtime) (s : Store) (sub : EventSubmission) (clock : Int) :
    Store → EventIngestionResult → Prop where
  | replayed {id : Nat} (h : s.findExistingEvent sub.source sub.externalId = some id)
      (readable : cancellationsReadable s = true) :
      Ingested rt s sub clock s (storedResult s id)
  | planned {ctx : EventContext} {customers : List Customer} {accounts : List Account} {n : Nat}
      {st : PlanLoop} {ds : List PolicyDecision} {ts : List OutreachTask} {as : List AuditEvent}
      (fresh : Fresh rt s sub ctx customers accounts)
      (policyEvent : sub.eventType = .accountDelinquent ∨ sub.eventType = .paymentFailed)
      (counted : recentAttemptCount s ctx.customerId sub.occurredAt.toDatetime = .ok n)
      (growth : Growth rt ctx defaultFrequencyCap clock (acceptedStore rt s sub customers accounts)
        n st ds ts as) :
      Ingested rt s sub clock
        { customers := customers
          accounts := accounts
          inboundEvents := s.inboundEvents ++ [storedEvent rt sub]
          policyDecisions := s.policyDecisions ++ ds
          outreachTasks := s.outreachTasks ++ ts
          auditEvents := s.auditEvents ++ (receiptRows rt sub s.inboundEvents.length ++ as) }
        { eventId := s.inboundEvents.length
          createdTasks := ts.length
          blockedTasks := ds.countP fun d => d.decision = .block
          deferredTasks := ds.countP fun d => d.decision = .defer
          cancelledTasks := 0
          policyDecisions := ds.length }
  | cancelled {ctx : EventContext} {customers : List Customer} {accounts : List Account}
      {marker : AuditEventType} {record : Store → Store}
      (fresh : Fresh rt s sub ctx customers accounts)
      (cancelling : CancellingEvent ctx marker record) :
      Ingested rt s sub clock
        { customers := recordCustomers ctx customers
          accounts := recordAccounts ctx accounts
          inboundEvents := s.inboundEvents ++ [storedEvent rt sub]
          policyDecisions := s.policyDecisions
          outreachTasks := s.outreachTasks.map (OutreachTask.cancelWhere (cancellable ctx))
          auditEvents := s.auditEvents ++ (receiptRows rt sub s.inboundEvents.length ++
            (recordRows ctx ++
              ((Table.select (cancellable ctx) s.outreachTasks).map (cancelledRow ctx) ++
                [processedMarker ctx marker]))) }
        { eventId := s.inboundEvents.length
          createdTasks := 0
          blockedTasks := 0
          deferredTasks := 0
          cancelledTasks := s.outreachTasks.countP (cancellable ctx)
          policyDecisions := 0 }

/-- A fresh event has no processed marker. -/
theorem Fresh.unmarked {rt : Runtime} {s : Store} {sub : EventSubmission} {ctx : EventContext}
    {customers : List Customer} {accounts : List Account} {marker : AuditEventType}
    {record : Store → Store} (hf : Fresh rt s sub ctx customers accounts) (hs : WellFormed s)
    (hc : CancellingEvent ctx marker record) :
    hasProcessedMarker (acceptedStore rt s sub customers accounts) ctx.inboundEventId marker =
      false := by
  rw [hasProcessedMarker, List.any_eq_false]
  intro a ha hm
  obtain ⟨ht, hid, hev⟩ := of_decide_eq_true hm
  rcases List.mem_append.mp ha with ha | ha
  · have hlt := hs.auditEvent a ha ht
    rw [hf.inboundEventId] at hid
    omega
  · simp only [receiptRows, List.mem_cons, List.not_mem_nil, or_false] at ha
    rcases ha with rfl | rfl <;> cases hc <;> cases hev

/-- A fresh event has no decision. -/
theorem Fresh.undecided {rt : Runtime} {s : Store} {sub : EventSubmission} {ctx : EventContext}
    {customers : List Customer} {accounts : List Account}
    (hf : Fresh rt s sub ctx customers accounts) (hs : WellFormed s) :
    ∀ d ∈ s.policyDecisions, d.inboundEventId ≠ some ctx.inboundEventId := by
  intro d hd he
  have hlt := hs.decisionEvent d hd _ he
  rw [hf.inboundEventId] at hlt
  omega

/-- On a well-formed store every successful call is one of the three. -/
theorem ingestEventSnapshot_ingested {rt : Runtime} {s s' : Store} {sub : EventSubmission}
    {clock : Int} {r : EventIngestionResult} (hs : WellFormed s)
    (h : ingestEventSnapshot rt s sub clock = .ok (s', r)) : Ingested rt s sub clock s' r := by
  rcases ingestEventSnapshot_ok h with
    ⟨id, hid, hreadable, rfl, rfl⟩ | ⟨ctx, customers, accounts, planned, pr, hf, hp, rfl, rfl⟩
  · exact .replayed hid hreadable
  · have hstored : (fun e : InboundEvent => { e with processingStatus := .processed })
        (inboundEventRow rt sub) = storedEvent rt sub := rfl
    rcases planEvent_cases hp with ⟨htype, hp⟩ | ⟨marker, record, hc, hp⟩
    · rw [hf.inboundEvent] at htype
      have hunplanned : ∀ d ∈ (acceptedStore rt s sub customers accounts).policyDecisions,
          d.inboundEventId ≠ some ctx.inboundEventId := hf.undecided hs
      obtain ⟨n, st, ds, ts, as, hn, hg, rfl, rfl⟩ :=
        planPolicyEvent_growth hunplanned (by rintro _ _ ⟨⟩) hp
      have hprocessed : Ingested rt s sub clock _ _ := .planned hf htype hn hg
      rw [hg.store]
      simp only [markProcessed, acceptedStore, resultFromPlanner, Table.modify_append_length,
        hstored, hg.created, hg.blocked, hg.deferred, hg.decided, List.append_assoc]
      exact hprocessed
    · rw [handleOnce_fresh hc (hf.unmarked hs hc)] at hp
      cases hp
      have hprocessed : Ingested rt s sub clock _ _ := .cancelled hf hc
      simp only [markProcessed, cancelledStore, acceptedStore, resultFromPlanner,
        Table.modify_append_length, hstored, List.append_assoc]
      exact hprocessed

/-- An ingestion cancels scheduled tasks and appends new ones. -/
theorem Ingested.outreachTasks {rt : Runtime} {s s' : Store} {sub : EventSubmission} {clock : Int}
    {r : EventIngestionResult} (h : Ingested rt s sub clock s' r) :
    ∃ (p : OutreachTask → Bool) (ts : List OutreachTask),
      (∀ t, p t = true → t.status = .scheduled) ∧
        s'.outreachTasks = s.outreachTasks.map (OutreachTask.cancelWhere p) ++ ts := by
  have hnone : s.outreachTasks.map (OutreachTask.cancelWhere fun _ => false) =
      s.outreachTasks := List.map_id'' (fun _ => rfl) _
  cases h with
  | replayed h => exact ⟨fun _ => false, [], by simp, by rw [hnone, List.append_nil]⟩
  | @planned ctx customers accounts n st ds ts as fresh policyEvent counted growth =>
    exact ⟨fun _ => false, ts, by simp, by rw [hnone]⟩
  | @cancelled ctx customers accounts marker record fresh cancelling =>
    exact ⟨cancellable ctx, [], fun t => cancellable_scheduled, (List.append_nil _).symm⟩

/-- After a successful call the event is stored under the returned id. -/
theorem Ingested.stored {rt : Runtime} {s s' : Store} {sub : EventSubmission} {clock : Int}
    {r : EventIngestionResult} (h : Ingested rt s sub clock s' r) :
    s'.findExistingEvent sub.source sub.externalId = some r.eventId := by
  cases h with
  | replayed h => exact h
  | planned fresh _ _ _ => exact Table.lookup_append_new fresh.unseen rfl
  | cancelled fresh _ => exact Table.lookup_append_new fresh.unseen rfl

/-- A first ingestion appends its event, and its customer and account rows are those that
the upserts and the planner's own record left. -/
theorem Ingested.rows {rt : Runtime} {s s' : Store} {sub : EventSubmission} {clock : Int}
    {r : EventIngestionResult} (h : Ingested rt s sub clock s' r) :
    s' = s ∨ ∃ ctx customers accounts, Fresh rt s sub ctx customers accounts ∧
      s'.customers = recordCustomers ctx customers ∧ s'.accounts = recordAccounts ctx accounts ∧
      s'.inboundEvents = s.inboundEvents ++ [storedEvent rt sub] := by
  cases h with
  | replayed h => exact Or.inl rfl
  | @planned ctx customers accounts n st ds ts as fresh policyEvent counted growth =>
    have htype : ctx.inboundEvent.eventType = sub.eventType := by
      rw [fresh.inboundEvent]
      rfl
    refine Or.inr ⟨ctx, customers, accounts, fresh, ?_, ?_, rfl⟩
    · rcases policyEvent with he | he <;> simp [recordCustomers, htype, he]
    · rcases policyEvent with he | he <;> simp [recordAccounts, htype, he]
  | @cancelled ctx customers accounts marker record fresh cancelling =>
    exact Or.inr ⟨ctx, customers, accounts, fresh, rfl, rfl, rfl⟩

section

variable {rt : Runtime} {s : Store} {sub : EventSubmission} {ctx : EventContext}
  {customers : List Customer} {accounts : List Account}

/-- The planner sees the time zone and the consents of the event's own snapshot. -/
theorem Fresh.snapshot (h : Fresh rt s sub ctx customers accounts) :
    ctx.customer.timezone = sub.customer.timezone ∧
      ctx.customer.consent = sub.customer.consent := by
  rcases h.customer.written with he | ⟨c, he⟩ <;> rw [he] <;>
    exact ⟨rfl, funext fun channel => by cases channel <;> rfl⟩

/-- The planner sees the status of the event's own snapshot. -/
theorem Fresh.status (h : Fresh rt s sub ctx customers accounts) :
    ctx.account.status = sub.account.status := by
  rcases h.account.written with he | ⟨a, he⟩ <;> rw [he] <;> rfl

/-- The planner's customer is the one that the event names. -/
theorem Fresh.customerExternalId (h : Fresh rt s sub ctx customers accounts) :
    ctx.customer.externalId = sub.customer.externalId :=
  h.customer.key (fun _ => rfl) rfl

/-- The planner's account is the one that the event names. -/
theorem Fresh.accountExternalId (h : Fresh rt s sub ctx customers accounts) :
    ctx.account.externalId = sub.account.externalId :=
  h.account.key (fun _ => rfl) rfl

end

end Orchestrator.Domain
