import Orchestrator.System.Completeness

/-!
# The provenance chain

Every task is joined to its customer, its account, its decision and the event that caused
it, and the correlation id of that event is on the task and on every row of its attempts.
An account keeps its owner.
-/

namespace Orchestrator.System

open Base Domain Orchestration Workers

/-! ### The chain of a task -/

/-- The rows that a task is joined to, with what the joins say. -/
structure Chained (s : Store) (t : OutreachTask) (customer : Customer) (account : Account)
    (decision : PolicyDecision) (eventId : Nat) (event : InboundEvent) : Prop where
  joinsCustomer : s.customers[t.customerId]? = some customer
  joinsAccount : s.accounts[t.accountId]? = some account
  owner : account.customerId = t.customerId
  joinsDecision : ∃ d, t.policyDecisionId = some d ∧ s.policyDecisions[d]? = some decision
  names : decision.accountId = t.accountId ∧ decision.customerId = t.customerId
  joinsEvent : decision.inboundEventId = some eventId ∧ s.inboundEvents[eventId]? = some event
  customerExternalId : event.customerExternalId = customer.externalId
  accountExternalId : event.accountExternalId = account.externalId
  received : ∃ a ∈ s.auditEvents, eventRow eventId .eventReceived a = true ∧
    a.correlationId = t.correlationId

/-- Every task has its chain. -/
def Chains (s : Store) : Prop := ∀ t ∈ s.outreachTasks,
  ∃ customer account decision eventId event,
    Chained s t customer account decision eventId event

/-- A chain is kept by every later store, for a task with the same planned columns. -/
theorem Chained.evolves {s s' : Store} {t t' : OutreachTask} {customer : Customer}
    {account : Account} {decision : PolicyDecision} {eventId : Nat} {event : InboundEvent}
    (h : Chained s t customer account decision eventId event) (he : Evolves s s')
    (hp : t'.planned = t.planned) :
    ∃ customer' account', Chained s' t' customer' account' decision eventId event := by
  have hcustomer : t'.customerId = t.customerId := congrArg (fun x => x.customerId) hp
  have haccount : t'.accountId = t.accountId := congrArg (fun x => x.accountId) hp
  have hdecision : t'.policyDecisionId = t.policyDecisionId :=
    congrArg (fun x => x.policyDecisionId) hp
  have hcorrelation : t'.correlationId = t.correlationId :=
    congrArg (fun x => x.correlationId) hp
  obtain ⟨customer', hc, hcx, -⟩ := he.customers _ _ h.joinsCustomer
  obtain ⟨account', ha, hax, hown⟩ := he.accounts _ _ h.joinsAccount
  obtain ⟨d, hd, hrow⟩ := h.joinsDecision
  obtain ⟨ds, hds, -⟩ := he.policyDecisions
  obtain ⟨es, hes⟩ := he.inboundEvents
  obtain ⟨as, has, -⟩ := he.auditEvents
  obtain ⟨a, hmem, hreceived⟩ := h.received
  refine ⟨customer', account', hcustomer ▸ hc, haccount ▸ ha, ?_, ⟨d, hdecision.trans hd, ?_⟩,
    ?_, ⟨h.joinsEvent.1, ?_⟩, ?_, ?_, a, ?_, ?_⟩
  · rw [hown, h.owner, hcustomer]
  · rw [hds, List.getElem?_append_left (List.getElem?_eq_some_iff.mp hrow).1, hrow]
  · rw [hcustomer, haccount]
    exact h.names
  · rw [← hes, List.getElem?_append_left (List.getElem?_eq_some_iff.mp h.joinsEvent.2).1,
      h.joinsEvent.2]
  · rw [hcx, h.customerExternalId]
  · rw [hax, h.accountExternalId]
  · rw [has]
    exact List.mem_append_left as hmem
  · rw [hcorrelation]
    exact hreceived

section

variable {rt : Runtime} {s s' : Store} {sub : EventSubmission}

/-- A task of a planning pass has its chain. -/
private theorem chained_planned {clock : Int} {os : List Outcome}
    (h : Admitted rt s sub (.planned os)) {t : OutreachTask}
    (ht : t ∈ plannedTasks (contextOf rt s sub) clock s.policyDecisions.length os) :
    ∃ decision, Chained (applied rt s sub clock (.planned os)).1 t (contextOf rt s sub).customer
      (contextOf rt s sub).account decision s.inboundEvents.length (storedEvent rt sub) := by
  obtain ⟨j, o, time, ho, -, rfl⟩ := mem_plannedTasks.mp ht
  have hf := h.fresh
  refine ⟨decisionRow (contextOf rt s sub) o.result, hf.customer.stored, hf.account.stored,
    hf.owner, ⟨s.policyDecisions.length + j, rfl, ?_⟩, ⟨rfl, rfl⟩, ⟨rfl, ?_⟩,
    hf.customerExternalId.symm, hf.accountExternalId.symm, ?_⟩
  · simp only [applied]
    rw [List.getElem?_append_right (Nat.le_add_right _ _), Nat.add_sub_cancel_left,
      plannedDecisions, List.getElem?_map, ho, Option.map_some]
  · simp
  · refine ⟨ingestionAudit (inboundEventRow rt sub) s.inboundEvents.length sub.correlationId
      .eventReceived .apiClient, ?_, ?_, rfl⟩
    · simp [applied, receiptRows]
    · simp [eventRow, ingestionAudit]

/-- Every transaction keeps the chains. -/
theorem Transaction.chains (hs : Sourced s) (hc : Chains s) (h : Transaction rt s s') :
    Chains s' := by
  obtain ⟨clock, hcommit⟩ := h.commit hs
  have hevolves := hcommit.evolves
  have hold {t t' : OutreachTask} (ht : t ∈ s.outreachTasks) (hp : t'.planned = t.planned) :
      ∃ customer account decision eventId event,
        Chained s' t' customer account decision eventId event := by
    obtain ⟨customer, account, decision, eventId, event, hchain⟩ := hc t ht
    obtain ⟨customer', account', hchain'⟩ := hchain.evolves hevolves hp
    exact ⟨customer', account', decision, eventId, event, hchain'⟩
  intro t' ht'
  cases h with
  | @ingested sub effect clock h =>
    cases effect with
    | planned os =>
      rcases List.mem_append.mp ht' with ht' | ht'
      · exact hold ht' rfl
      · obtain ⟨decision, hchain⟩ := chained_planned h ht'
        exact ⟨_, _, decision, _, _, hchain⟩
    | cancelled marker =>
      obtain ⟨t, ht, rfl⟩ := List.mem_map.mp ht'
      exact hold ht (cancelWhere_planned _ t)
  | wrote row hw payload =>
    rcases List.mem_or_eq_of_mem_set ht' with ht' | rfl
    · exact hold ht' rfl
    · exact hold (List.mem_of_getElem? row) hw.planned
  | operatorCancelled row =>
    rw [cancelScheduledAccountOutreach_eq] at ht'
    obtain ⟨t, ht, rfl⟩ := List.mem_map.mp ht'
    exact hold ht (cancelWhere_planned _ t)

end

/-- In every reachable store every task has its chain. -/
theorem run_chains (rt : Runtime) (clock : Int) (ops : List Op) :
    Chains (run (step rt) (start clock) ops).store :=
  run_transaction_invariant (by simp [Chains, Store.empty]) (fun _ _ hs hc h => h.chains hs hc)
    clock ops

/-! ### Rows of attempts -/

/-- The correlation id of a stored task. -/
def correlationOf (s : Store) (taskId : Nat) : Option Nat :=
  (s.outreachTasks[taskId]?).map OutreachTask.correlationId

/-- Attempts in flight and rows of tasks carry the correlation ids of their tasks; a
cancellation carries the one of its own cause. -/
structure Correlated (s : Sys) : Prop where
  attempts : ∀ w k copy, s.attempt w = some (k, copy) →
    correlationOf s.store k = some copy.correlationId
  rows : ∀ a ∈ s.store.auditEvents, a.entityType = .outreachTask →
    a.eventType ≠ .outreachCancelled → correlationOf s.store a.entityId = some a.correlationId

/-- A stored task keeps its correlation id. -/
theorem correlationOf_evolves {s s' : Store} (h : Evolves s s') {k n : Nat}
    (hn : correlationOf s k = some n) : correlationOf s' k = some n := by
  rw [correlationOf, Option.map_eq_some_iff] at hn
  obtain ⟨t, ht, rfl⟩ := hn
  obtain ⟨t', ht', hp⟩ := h.task ht
  have hcorrelation : t'.correlationId = t.correlationId :=
    congrArg (fun x => x.correlationId) hp
  rw [correlationOf, ht', Option.map_some, hcorrelation]

/-- A commit keeps correlation when it appends only rows that carry it and brings only
attempts that carry it. -/
private theorem Correlated.commit {s s' : Sys} (h : Correlated s) (he : Evolves s.store s'.store)
    (hattempts : ∀ w k copy, s'.attempt w = some (k, copy) → s.attempt w = some (k, copy) ∨
      correlationOf s'.store k = some copy.correlationId)
    (as : List AuditEvent) (has : s'.store.auditEvents = s.store.auditEvents ++ as)
    (hnew : ∀ a ∈ as, a.entityType = .outreachTask → a.eventType ≠ .outreachCancelled →
      correlationOf s'.store a.entityId = some a.correlationId) : Correlated s' where
  attempts w k copy hw := by
    rcases hattempts w k copy hw with hold | hown
    · exact correlationOf_evolves he (h.attempts w k copy hold)
    · exact hown
  rows a ha ht hne := by
    rw [has] at ha
    rcases List.mem_append.mp ha with ha | ha
    · exact correlationOf_evolves he (h.rows a ha ht hne)
    · exact hnew a ha ht hne

/-- An ingestion writes no row of a task but cancellations. -/
private theorem applied_newRows (rt : Runtime) (s : Store) (sub : EventSubmission) (clock : Int)
    (effect : Effect) :
    ∃ as, (applied rt s sub clock effect).1.auditEvents = s.auditEvents ++ as ∧
      ∀ a ∈ as, a.entityType = .outreachTask → a.eventType = .outreachCancelled := by
  have hreceipt : ∀ a ∈ receiptRows rt sub s.inboundEvents.length,
      a.entityType ≠ .outreachTask := by
    intro a ha
    simp [(receiptRows_entity rt sub _ a ha).1]
  cases effect with
  | planned os =>
    refine ⟨_, rfl, fun a ha ht => ?_⟩
    rcases List.mem_append.mp ha with ha | ha
    · exact absurd ht (hreceipt a ha)
    · exact absurd ht (plannedRows_spec a ha).1
  | cancelled marker =>
    refine ⟨_, rfl, fun a ha ht => ?_⟩
    simp only [List.mem_append, List.mem_singleton] at ha
    rcases ha with ha | ha | ha | rfl
    · exact absurd ht (hreceipt a ha)
    · exact absurd ht (recordRows_spec _ a ha).1
    · obtain ⟨x, -, rfl⟩ := List.mem_map.mp ha
      rfl
    · cases ht

/-- A row write appends one row, which carries the correlation id of its task. -/
private theorem correlationOf_writeRow {s : Store} {k : Nat} {t t' : OutreachTask} {a : AuditEvent}
    (ht : s.outreachTasks[k]? = some t) (hw : RowWrite k t t' a) :
    correlationOf (writeRow s k t' a) k = some t.correlationId := by
  have hlen := (List.getElem?_eq_some_iff.mp ht).1
  have hcorrelation : t'.correlationId = t.correlationId :=
    congrArg (fun x => x.correlationId) hw.planned
  simp [correlationOf, writeRow, hlen, hcorrelation]

/-- Every step keeps correlation. -/
theorem step_correlated (rt : Runtime) (s : Sys) (op : Op) (hs : Sourced s.store)
    (h : Correlated s) : Correlated (step rt s op) := by
  have hevolves := step_evolves rt s op hs.toWellFormed
  have hstep := step_spec rt s op
  generalize step rt s op = s' at hevolves hstep ⊢
  cases hstep with
  | idle store clock attempt =>
    refine h.commit hevolves ?_ [] (by rw [store, List.append_nil]) (by simp)
    intro w k copy hw
    rcases attempt w with hnone | hsame
    · rw [hnone] at hw
      cases hw
    · exact Or.inl (hsame ▸ hw)
  | @claimed worker taskId config queue t pass row hdue =>
    have hown := correlationOf_writeRow row (.claim config.now config.workerId hdue)
    refine h.commit hevolves ?_ _ rfl ?_
    · intro w k copy hw
      rw [attempt_setPass] at hw
      split at hw
      · cases hw
        exact Or.inr hown
      · exact Or.inl hw
    · intro a ha _ _
      rw [List.mem_singleton.mp ha]
      exact hown
  | @settled worker taskId config queue copy t t' outcome a pass row hd hw =>
    have hown := correlationOf_writeRow row (hw.rowWrite hd)
    -- the row of the attempt carries the correlation id of the copy that the worker holds
    have hcopy : t.correlationId = copy.correlationId := by
      have hmine := h.attempts worker taskId copy (by simp [Sys.attempt, pass])
      rw [correlationOf, row, Option.map_some] at hmine
      exact Option.some.inj hmine
    refine h.commit hevolves ?_ _ rfl ?_
    · intro w k c hc
      rw [attempt_setPass] at hc
      split at hc
      · cases hc
      · exact Or.inl hc
    · intro b hb _ _
      obtain rfl := List.mem_singleton.mp hb
      rw [hcopy] at hown
      cases hw <;> exact hown
  | ingested hi =>
    rcases replayed_or_admitted hs hi with rfl | ⟨effect, -, rfl⟩
    · exact h.commit hevolves (fun _ _ _ => Or.inl) [] (List.append_nil _).symm (by simp)
    · obtain ⟨as, has, hnew⟩ := applied_newRows rt s.store _ s.clock effect
      exact h.commit hevolves (fun _ _ _ => Or.inl) as has fun a ha ht hne =>
        absurd (hnew a ha ht) hne
  | @recorded taskId loaded body t row hallowed =>
    have hown := correlationOf_writeRow row (.manual body hallowed)
    refine h.commit hevolves (fun _ _ _ => Or.inl) _ rfl fun a ha _ _ => ?_
    rw [List.mem_singleton.mp ha]
    exact hown
  | operatorCancelled key row =>
    refine h.commit hevolves (fun _ _ _ => Or.inl) _
      (congrArg Store.auditEvents (congrArg Prod.fst
        (cancelScheduledAccountOutreach_eq s.store _ _ _ _))) fun a ha _ hne => ?_
    obtain ⟨x, -, rfl⟩ := List.mem_map.mp ha
    exact absurd rfl hne

/-- Every reachable state is correlated. -/
theorem run_correlated (rt : Runtime) (clock : Int) (ops : List Op) :
    Correlated (run (step rt) (start clock) ops) := by
  have hstart : Correlated (start clock) := by
    constructor <;> simp [start, Sys.attempt, Store.empty]
  have hrun := run_invariant (I := fun s : Sys => Sourced s.store ∧ Correlated s)
    (fun s op h => ⟨step_sourced rt s op h.1, step_correlated rt s op h.1 h.2⟩) (start clock)
    ⟨sourced_empty, hstart⟩ ops
  exact hrun.2

/-! ### The whole chain -/

/-- The rows of attempts and manual results. -/
def OfAttempt : AuditEventType → Prop
  | .dispatchStarted | .dispatchSucceeded | .dispatchFailed | .deliveryResultRecorded => True
  | _ => False

/-- In every reachable store accounts keep their owners, every task has its chain, and the
correlation id of its event's receipt is on the task and on all rows of its attempts. -/
theorem provenance_chain (rt : Runtime) (clock : Int) (ops : List Op) :
    let s := (run (step rt) (start clock) ops).store
    (∀ (i : Nat) (account : Account), s.accounts[i]? = some account → ∀ more,
      ∃ account' : Account,
        (run (step rt) (start clock) (ops ++ more)).store.accounts[i]? = some account' ∧
        account'.externalId = account.externalId ∧ account'.customerId = account.customerId) ∧
    ∀ (k : Nat) (t : OutreachTask), s.outreachTasks[k]? = some t →
      ∃ customer account decision eventId event,
        Chained s t customer account decision eventId event ∧
        s.auditEvents.countP (eventRow eventId .eventReceived) = 1 ∧
        (∀ a ∈ s.auditEvents, eventRow eventId .eventReceived a = true →
          a.correlationId = t.correlationId) ∧
        ∀ a ∈ s.auditEvents, a.entityType = .outreachTask → a.entityId = k →
          OfAttempt a.eventType → a.correlationId = t.correlationId := by
  refine ⟨fun i account ha more => ?_, fun k t ht => ?_⟩
  · rw [run_append]
    exact (run_evolves rt _ (run_sourced rt clock ops).toWellFormed more).accounts i account ha
  · obtain ⟨customer, account, decision, eventId, event, hchain⟩ :=
      run_chains rt clock ops t (List.mem_of_getElem? ht)
    have hone := (run_complete rt clock ops eventId event hchain.joinsEvent.2).received
    obtain ⟨receipt, hreceipt, hreceived, hcorrelation⟩ := hchain.received
    refine ⟨customer, account, decision, eventId, event, hchain, hone, fun a ha hrow => ?_, ?_⟩
    · rw [Table.eq_of_countP_eq_one hone ha hrow hreceipt hreceived, hcorrelation]
    rintro a ha htask rfl hattempt
    have hne : a.eventType ≠ .outreachCancelled := by
      intro he
      rw [he] at hattempt
      exact hattempt
    have hrow := (run_correlated rt clock ops).rows a ha htask hne
    rw [correlationOf, ht, Option.map_some, Option.some.injEq] at hrow
    exact hrow.symm

end Orchestrator.System
