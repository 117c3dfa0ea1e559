import Orchestrator.System.Lineage

/-!
# Where tasks and rows come from

Every task was planned by a stored event whose own snapshot allowed it, at a time inside
the customer's window, and until its first attempt it keeps that time. Every customer
and account row is the one that the latest event of that customer or account wrote.
-/

namespace Orchestrator.System

open Base Domain Orchestration Policy Workers

/-! ### Planning events of tasks -/

/-- The event whose decision a task came from. -/
def planningEvent (s : Store) (t : OutreachTask) : Option InboundEvent := do
  let decisionId ← t.policyDecisionId
  let decision ← s.policyDecisions[decisionId]?
  let eventId ← decision.inboundEventId
  s.inboundEvents[eventId]?

/-- A task with the event that planned it. -/
structure Provenance (rt : Runtime) (s : Store) (t : OutreachTask) (e : InboundEvent) : Prop where
  planned : planningEvent s t = some e
  customer : ∃ c, s.customers[t.customerId]? = some c ∧ c.externalId = e.customerExternalId
  account : ∃ a, s.accounts[t.accountId]? = some a ∧ a.externalId = e.accountExternalId
  consented : e.payload.customer.consent t.channel = true
  accountOpen : e.payload.account.status ≠ .paused ∧ e.payload.account.status ≠ .resolved
  started : t.status = .dispatching → t.attemptCount ≠ 0
  inWindow : t.attemptCount = 0 → t.channel ≠ .email →
    ∀ z, rt.zoneInfo e.payload.customer.timezone = some z →
      z.RegularOn outreachWindowStart outreachWindowEnd →
      InWindow outreachWindowStart outreachWindowEnd z t.scheduledAt

/-- The planning event of a task does not change. -/
theorem planningEvent_evolves {s s' : Store} (h : Evolves s s') {t t' : OutreachTask}
    (hp : t'.planned = t.planned) {e : InboundEvent} (he : planningEvent s t = some e) :
    planningEvent s' t' = some e := by
  have hdecision : t'.policyDecisionId = t.policyDecisionId :=
    congrArg (fun x => x.policyDecisionId) hp
  obtain ⟨ds, hds, -⟩ := h.policyDecisions
  obtain ⟨es, hes⟩ := h.inboundEvents
  simp only [planningEvent, bind, Option.bind_eq_some_iff] at he ⊢
  obtain ⟨d, hd, row, hrow, eventId, hid, hevent⟩ := he
  refine ⟨d, hdecision.trans hd, row, ?_, eventId, hid, ?_⟩
  · rw [hds, List.getElem?_append_left (List.getElem?_eq_some_iff.mp hrow).1, hrow]
  · rw [← hes, List.getElem?_append_left (List.getElem?_eq_some_iff.mp hevent).1, hevent]

/-- Provenance is kept by every later store, for a task with the same planned columns that
is dispatched no earlier and waits at its planned time while it is unattempted. -/
theorem Provenance.evolves {rt : Runtime} {s s' : Store} {t t' : OutreachTask} {e : InboundEvent}
    (h : Provenance rt s t e) (hs : Evolves s s') (hp : t'.planned = t.planned)
    (hstarted : t'.status = .dispatching → t'.attemptCount ≠ 0)
    (hwaits : t'.attemptCount = 0 → t.attemptCount = 0 ∧ t'.scheduledAt = t.scheduledAt) :
    Provenance rt s' t' e := by
  have hcustomer : t'.customerId = t.customerId := congrArg (fun x => x.customerId) hp
  have haccount : t'.accountId = t.accountId := congrArg (fun x => x.accountId) hp
  have hchannel : t'.channel = t.channel := congrArg (fun x => x.channel) hp
  refine ⟨planningEvent_evolves hs hp h.planned, ?_, ?_, by rw [hchannel]; exact h.consented,
    h.accountOpen, hstarted, ?_⟩
  · obtain ⟨c, hc, hx⟩ := h.customer
    obtain ⟨c', hc', hx', -⟩ := hs.customers _ c hc
    exact ⟨c', by rw [hcustomer]; exact hc', hx'.trans hx⟩
  · obtain ⟨a, ha, hx⟩ := h.account
    obtain ⟨a', ha', hx', -⟩ := hs.accounts _ a ha
    exact ⟨a', by rw [haccount]; exact ha', hx'.trans hx⟩
  · intro hzero hne
    obtain ⟨hzero', hat⟩ := hwaits hzero
    rw [hat]
    exact h.inWindow hzero' (hchannel ▸ hne)

/-- A write keeps the provenance of its task. -/
theorem Provenance.write {rt : Runtime} {s s' : Store} {k : Nat} {t t' : OutreachTask}
    {a : AuditEvent} {e : InboundEvent} (h : Provenance rt s t e) (hs : Evolves s s')
    (hw : RowWrite k t t' a) : Provenance rt s' t' e := by
  refine h.evolves hs hw.planned ?_ ?_
  · cases hw with
    | claim => exact fun _ => Nat.succ_ne_zero _
    | success => simp [successWrite]
    | failure copy =>
      intro hd
      simp only [failureWrite, finalStatus] at hd
      split at hd <;> cases hd
    | manual body =>
      intro hd
      cases hb : body.status <;> simp [manualWrite, DeliveryStatus.toStatus, hb] at hd
    | cancel => simp [OutreachTask.cancel]
  · intro hzero
    cases hw with
    | claim => exact absurd hzero (Nat.succ_ne_zero _)
    -- only a started attempt fails, and it has been counted
    | failure copy error config hd => exact absurd hzero (h.started hd)
    | success => exact ⟨hzero, rfl⟩
    | manual => exact ⟨hzero, rfl⟩
    | cancel => exact ⟨hzero, rfl⟩

/-- A new task has the provenance of the event that is being ingested. -/
theorem Created.provenance {rt : Runtime} {clock : Int} {s s' : Store} {k : Nat}
    {t : OutreachTask} {sub : EventSubmission} {ctx : EventContext}
    (h : Created rt clock s s' k t sub ctx) : Provenance rt s' t (storedEvent rt sub) := by
  obtain ⟨htz, hconsent⟩ := h.fresh.snapshot
  have hconsented := h.planned.consented
  have hopen := h.planned.accountOpen
  have hwindow := h.planned.inWindow
  rw [hconsent] at hconsented
  rw [h.fresh.status] at hopen
  rw [htz] at hwindow
  obtain ⟨channel, d, at', rfl, -, row, hrow, -, hid, -⟩ := h.planned.row
  refine ⟨?_, ⟨ctx.customer, h.fresh.customer.stored, h.fresh.customerExternalId⟩,
    ⟨ctx.account, h.fresh.account.stored, h.fresh.accountExternalId⟩, hconsented, hopen,
    by simp [taskRow], fun _ => hwindow⟩
  simp [planningEvent, taskRow, hrow, hid, h.event, h.fresh.inboundEventId]

/-- In every reachable store every task has its provenance. -/
theorem run_provenance (rt : Runtime) (clock : Int) (ops : List Op) {k : Nat} {t : OutreachTask}
    (ht : (run (step rt) (start clock) ops).store.outreachTasks[k]? = some t) :
    ∃ e, Provenance rt (run (step rt) (start clock) ops).store t e := by
  refine run_task_law (P := fun s _ t => ∃ e, Provenance rt s t e) ?_ ?_ clock ops ht
  · intro clock s s' k t sub ctx hc
    exact ⟨_, hc.provenance⟩
  · rintro clock s s' k t t' rows h hone - ⟨e, he⟩
    cases hone with
    | same => exact ⟨e, he.evolves h.evolves rfl he.started fun hzero => ⟨hzero, rfl⟩⟩
    | wrote hw => exact ⟨e, he.write h.evolves hw⟩

/-! ### Latest events of customers and accounts -/

/-- The latest event that satisfies `p`. -/
def latest (p : InboundEvent → Bool) (events : List InboundEvent) : Option InboundEvent :=
  (events.filter p).getLast?

/-- A new event that satisfies `p` is the latest. -/
theorem latest_append_pos {p : InboundEvent → Bool} {e : InboundEvent} (h : p e = true)
    (events : List InboundEvent) : latest p (events ++ [e]) = some e := by
  simp [latest, List.filter_append, h]

/-- A new event that does not satisfy `p` leaves the latest as it was. -/
theorem latest_append_neg {p : InboundEvent → Bool} {e : InboundEvent} (h : p e = false)
    (events : List InboundEvent) : latest p (events ++ [e]) = latest p events := by
  simp [latest, List.filter_append, h]

/-- Customer and account rows are identified by their external ids and mirror their
latest events. -/
structure Mirrors (s : Store) : Prop where
  customerIds : (s.customers.map Customer.externalId).Nodup
  accountIds : (s.accounts.map Account.externalId).Nodup
  customer : ∀ (i : Nat) (c : Customer), s.customers[i]? = some c →
    ∃ e, latest (fun e => e.customerExternalId = c.externalId) s.inboundEvents = some e ∧
      c.consent = e.payload.customer.consent
  account : ∀ (i : Nat) (a : Account), s.accounts[i]? = some a →
    ∃ e, latest (fun e => e.accountExternalId = a.externalId) s.inboundEvents = some e ∧
      a.status = e.leavesStatus

/-- A first ingestion makes its event the latest of its customer and of its account. -/
theorem ingested_mirrors {rt : Runtime} {s s' : Store} {sub : EventSubmission} {clock : Int}
    {r : EventIngestionResult} (hm : Mirrors s) (h : Ingested rt s sub clock s' r) :
    Mirrors s' := by
  rcases h.rows with rfl | ⟨ctx, customers, accounts, hf, hcustomers, haccounts, hevents⟩
  · exact hm
  have hcnodup := hf.customer.nodup (fun _ => rfl) rfl hm.customerIds
  have hanodup := hf.account.nodup (fun _ => rfl) rfl hm.accountIds
  constructor
  · rw [hcustomers, recordCustomers_externalId]
    exact hcnodup
  · rw [haccounts, recordAccounts_externalId]
    exact hanodup
  · intro i c' hc'
    rw [hcustomers] at hc'
    obtain ⟨c, hc, hx, hconsent⟩ := recordCustomers_origin ctx hc'
    rw [hx, hconsent, hevents]
    rcases hf.customer.origin hc with ⟨-, rfl⟩ | ⟨hi, hold⟩
    · refine ⟨_, latest_append_pos ?_ _, hf.snapshot.2⟩
      simp [storedEvent, inboundEventRow, hf.customerExternalId]
    · obtain ⟨e, he, hsame⟩ := hm.customer i c hold
      refine ⟨e, ?_, hsame⟩
      rw [latest_append_neg _ _, he]
      rw [decide_eq_false_iff_not]
      intro hclash
      exact hi (Table.key_unique hcnodup hc hf.customer.stored
        (hclash.symm.trans hf.customerExternalId.symm))
  · intro j a' ha'
    rw [haccounts] at ha'
    rw [hevents]
    by_cases hj : j = ctx.accountId
    · subst hj
      rw [recordAccounts_stored ctx hf.account.stored, Option.some.injEq] at ha'
      subst ha'
      refine ⟨_, latest_append_pos ?_ _, ?_⟩
      · simp [storedEvent, inboundEventRow, hf.accountExternalId]
      · simp only [hf.inboundEvent, hf.status]
        rfl
    · rw [recordAccounts_frame ctx accounts hj] at ha'
      rcases hf.account.origin ha' with ⟨h, -⟩ | ⟨-, hold⟩
      · exact absurd h hj
      · obtain ⟨e, he, hsame⟩ := hm.account j a' hold
        refine ⟨e, ?_, hsame⟩
        rw [latest_append_neg _ _, he]
        rw [decide_eq_false_iff_not]
        intro hclash
        exact hj (Table.key_unique hanodup ha' hf.account.stored
          (hclash.symm.trans hf.accountExternalId.symm))

/-- Every commit keeps the rows mirroring their latest events. -/
theorem Commit.mirrors {rt : Runtime} {clock : Int} {s s' : Store} (hm : Mirrors s)
    (h : Commit rt clock s s') : Mirrors s' := by
  cases h with
  | ingested h => exact ingested_mirrors hm h
  | wrote => exact ⟨hm.customerIds, hm.accountIds, hm.customer, hm.account⟩
  | operatorCancelled =>
    rw [cancelScheduledAccountOutreach_eq]
    exact ⟨hm.customerIds, hm.accountIds, hm.customer, hm.account⟩

/-- In every reachable store the rows mirror their latest events. -/
theorem run_mirrors (rt : Runtime) (clock : Int) (ops : List Op) :
    Mirrors (run (step rt) (start clock) ops).store :=
  run_store_invariant (by constructor <;> simp [Store.empty]) (fun _ _ _ _ hm h => h.mirrors hm)
    clock ops

end Orchestrator.System
