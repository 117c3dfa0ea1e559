import Orchestrator.Domain.IngestionDecision
import Orchestrator.System.Lineage

/-!
# Committed transactions by their rows

The three transactions that a step can commit, each as a function of the store before:
an admitted ingestion, one row write, an operator cancellation. References of every
reachable store point at rows that exist, and what the three transactions keep holds of
every reachable store.
-/

namespace Orchestrator.System

open Base Domain Orchestration Workers

/-- The ingestion of an unseen event whose decision succeeds. -/
structure Admitted (rt : Runtime) (s : Store) (sub : EventSubmission) (effect : Effect) :
    Prop where
  unseen : s.findExistingEvent sub.source sub.externalId = none
  decided : decideIngestion rt sub (readsOf rt s sub) = .ok effect

/-- Committed transactions. -/
inductive Transaction (rt : Runtime) (s : Store) : Store → Prop where
  | ingested {sub : EventSubmission} {effect : Effect} (clock : Int)
      (h : Admitted rt s sub effect) : Transaction rt s (applied rt s sub clock effect).1
  | wrote {taskId : Nat} {t t' : OutreachTask} {a : AuditEvent}
      (row : s.outreachTasks[taskId]? = some t) (h : RowWrite taskId t t' a)
      (payload : a.payload.inboundEventId = none) :
      Transaction rt s (writeRow s taskId t' a)
  | operatorCancelled {accountId : Nat} {account : Account} {reason : String}
      {correlationId : Nat} (row : s.accounts[accountId]? = some account) :
      Transaction rt s
        (cancelScheduledAccountOutreach s accountId account reason correlationId).1

section

variable {rt : Runtime} {s s' : Store} {sub : EventSubmission} {effect : Effect}

/-- An admitted event is fresh. -/
theorem Admitted.fresh (h : Admitted rt s sub effect) :
    Fresh rt s sub (contextOf rt s sub) (upsertedCustomers s sub) (upsertedAccounts s sub) :=
  contextOf_fresh h.unseen (decideIngestion_ok h.decided).1

/-- The decision of an admitted event. -/
theorem Admitted.decision (h : Admitted rt s sub effect) :
    Decided rt sub (readsOf rt s sub).optedOut (readsOf rt s sub).recent effect :=
  decideEffect_ok (decideIngestion_ok h.decided).2.2

/-- A successful ingestion of an unseen event was admitted. -/
theorem admitted_of_ok (hs : Sourced s) {clock : Int} {r : EventIngestionResult}
    (hnew : s.findExistingEvent sub.source sub.externalId = none)
    (h : ingestEventSnapshot rt s sub clock = .ok (s', r)) :
    ∃ effect, Admitted rt s sub effect ∧ (s', r) = applied rt s sub clock effect := by
  rw [ingestEventSnapshot_eq hs clock hnew] at h
  cases hd : decideIngestion rt sub (readsOf rt s sub) with
  | error e =>
    rw [hd] at h
    cases h
  | ok effect =>
    rw [hd] at h
    exact ⟨effect, ⟨hnew, hd⟩, (Except.ok.inj h).symm⟩

/-- A successful ingestion is a replay or was admitted. -/
theorem replayed_or_admitted (hs : Sourced s) {clock : Int} {r : EventIngestionResult}
    (h : ingestEventSnapshot rt s sub clock = .ok (s', r)) :
    s' = s ∨ ∃ effect, Admitted rt s sub effect ∧ s' = (applied rt s sub clock effect).1 := by
  cases hseen : s.findExistingEvent sub.source sub.externalId with
  | some id => exact Or.inl (ingestEventSnapshot_replayed hseen h).2.1
  | none =>
    obtain ⟨effect, hadmitted, he⟩ := admitted_of_ok hs hseen h
    exact Or.inr ⟨effect, hadmitted, congrArg Prod.fst he⟩

/-- An admitted event is ingested. -/
theorem Admitted.ingests (hs : Sourced s) (h : Admitted rt s sub effect) (clock : Int) :
    ingestEventSnapshot rt s sub clock = .ok (applied rt s sub clock effect) := by
  rw [ingestEventSnapshot_eq hs clock h.unseen, h.decided]
  rfl

/-- A transaction is a commit. -/
theorem Transaction.commit (hs : Sourced s) (h : Transaction rt s s') :
    ∃ clock, Commit rt clock s s' := by
  cases h with
  | ingested clock h =>
    exact ⟨clock, .ingested (ingestEventSnapshot_ingested hs.toWellFormed (h.ingests hs clock))⟩
  | wrote row h payload => exact ⟨0, .wrote row h payload⟩
  | operatorCancelled row => exact ⟨0, .operatorCancelled row⟩

/-- On a sourced store every step commits nothing or one transaction. -/
theorem Step.transaction {s s' : Sys} {op : Op} (hs : Sourced s.store) (h : Step rt s op s') :
    s'.store = s.store ∨ Transaction rt s.store s'.store := by
  cases h with
  | idle store _ _ => exact Or.inl store
  | claimed _ row hdue => exact Or.inr (.wrote row (.claim _ _ hdue) rfl)
  | settled _ row hd hw => exact Or.inr (.wrote row (hw.rowWrite hd) (by cases hw <;> rfl))
  | ingested h =>
    rcases replayed_or_admitted hs h with rfl | ⟨effect, hadmitted, rfl⟩
    · exact Or.inl rfl
    · exact Or.inr (.ingested _ hadmitted)
  | recorded row hallowed => exact Or.inr (.wrote row (.manual _ hallowed) rfl)
  | operatorCancelled _ row => exact Or.inr (.operatorCancelled row)

end

/-! ### References -/

section

variable {rt : Runtime} {s s' : Store} {sub : EventSubmission} {effect : Effect}

private theorem length_recordCustomers (ctx : EventContext) (customers : List Customer) :
    (recordCustomers ctx customers).length = customers.length := by
  simpa using congrArg List.length (recordCustomers_externalId ctx customers)

private theorem length_recordAccounts (ctx : EventContext) (accounts : List Account) :
    (recordAccounts ctx accounts).length = accounts.length := by
  simpa using congrArg List.length (recordAccounts_externalId ctx accounts)

private theorem owners_upserted (hs : Sourced s)
    (h : Fresh rt s sub (contextOf rt s sub) (upsertedCustomers s sub) (upsertedAccounts s sub)) :
    ∀ a ∈ upsertedAccounts s sub, a.customerId < (upsertedCustomers s sub).length := by
  intro a ha
  obtain ⟨i, hi⟩ := List.mem_iff_getElem?.mp ha
  rcases h.account.origin hi with ⟨-, rfl⟩ | ⟨-, hold⟩
  · rw [h.owner]
    exact h.customer.key_lt
  · exact Nat.lt_of_lt_of_le (hs.owners a (List.mem_of_getElem? hold)) h.customer.length_le

private theorem owners_record (ctx : EventContext) {accounts : List Account} {n : Nat}
    (h : ∀ a ∈ accounts, a.customerId < n) :
    ∀ a ∈ recordAccounts ctx accounts, a.customerId < n := by
  unfold recordAccounts
  split
  · intro a ha
    obtain ⟨i, hi⟩ := List.mem_iff_getElem?.mp ha
    rw [List.getElem?_modify, Option.map_eq_map, Option.map_eq_some_iff] at hi
    obtain ⟨b, hb, rfl⟩ := hi
    have hlt := h b (List.mem_of_getElem? hb)
    split <;> exact hlt
  · exact h

/-- A write of task rows and of audit rows about tasks keeps every reference. -/
private theorem sourced_of_tasks (hs : Sourced s) {tasks : List OutreachTask}
    {rows : List AuditEvent} (hw : WellFormed
      { s with outreachTasks := tasks, auditEvents := s.auditEvents ++ rows })
    (htasks : ∀ t ∈ tasks, ∃ u ∈ s.outreachTasks, t.planned = u.planned)
    (hrows : ∀ a ∈ rows, a.entityType = .outreachTask) :
    Sourced { s with outreachTasks := tasks, auditEvents := s.auditEvents ++ rows } where
  toWellFormed := hw
  owners := hs.owners
  decisions := hs.decisions
  tasks := by
    intro t ht
    obtain ⟨u, hu, hp⟩ := htasks t ht
    exact (hs.tasks u hu).planned hp
  audits := by
    intro a ha
    rcases List.mem_append.mp ha with ha | ha
    · exact hs.audits a ha
    · exact .other (Or.inl (hrows a ha))

/-- Every transaction keeps the references. -/
theorem Transaction.sourced (hs : Sourced s) (h : Transaction rt s s') : Sourced s' := by
  obtain ⟨clock, hcommit⟩ := h.commit hs
  have hw := hcommit.wellFormed hs.toWellFormed
  cases h with
  | @ingested sub effect clock h =>
    have hf := h.fresh
    have hc := hf.customer.key_lt
    have ha := hf.account.key_lt
    have hcl := hf.customer.length_le
    have hal := hf.account.length_le
    have hreceipt {nc na nd : Nat} : ∀ a ∈ receiptRows rt sub s.inboundEvents.length,
        EntityRefs nc na nd a := fun a ha =>
      .other (Or.inr (receiptRows_entity rt sub s.inboundEvents.length a ha).1)
    cases effect with
    | planned os =>
      refine ⟨hw, owners_upserted hs hf, ?_, ?_, ?_⟩
      · intro d hd
        rcases List.mem_append.mp hd with hd | hd
        · exact (hs.decisions d hd).mono hcl hal
        · obtain ⟨o, -, rfl⟩ := List.mem_map.mp hd
          exact ⟨hc, ha⟩
      · intro t ht
        rcases List.mem_append.mp ht with ht | ht
        · exact (hs.tasks t ht).mono hcl hal (by simp [applied])
        · obtain ⟨j, o, time, -, -, rfl⟩ := mem_plannedTasks.mp ht
          exact ⟨hc, ha, by simp [applied, taskRow, contextOf]⟩
      · intro a hmem
        rcases List.mem_append.mp hmem with hmem | hmem
        · exact (hs.audits a hmem).mono hcl hal (by simp [applied])
        · rcases List.mem_append.mp hmem with hmem | hmem
          · exact hreceipt a hmem
          · exact plannedRows_refs ha (by simp [applied]) a hmem
    | cancelled marker =>
      have hcr := length_recordCustomers (contextOf rt s sub) (upsertedCustomers s sub)
      have har := length_recordAccounts (contextOf rt s sub) (upsertedAccounts s sub)
      rw [← hcr] at hc hcl
      rw [← har] at ha hal
      refine ⟨hw, ?_, fun d hd => (hs.decisions d hd).mono hcl hal, ?_, ?_⟩
      · simp only [applied, hcr]
        exact owners_record _ (owners_upserted hs hf)
      · intro t ht
        obtain ⟨u, hu, rfl⟩ := List.mem_map.mp ht
        exact ((hs.tasks u hu).planned (cancelWhere_planned _ u)).mono hcl hal (by simp [applied])
      · intro a hmem
        simp only [applied, List.mem_append, List.mem_singleton] at hmem
        rcases hmem with hmem | hmem | hmem | hmem | rfl
        · exact (hs.audits a hmem).mono hcl hal (Nat.le_refl _)
        · exact hreceipt a hmem
        · exact recordRows_refs hc ha a hmem
        · obtain ⟨x, -, rfl⟩ := List.mem_map.mp hmem
          exact .other (Or.inl rfl)
        · exact .other (Or.inr rfl)
  | @wrote taskId t t' a row h payload =>
    refine sourced_of_tasks hs hw ?_ ?_
    · intro u hu
      rcases List.mem_or_eq_of_mem_set hu with hu | rfl
      · exact ⟨u, hu, rfl⟩
      · exact ⟨t, List.mem_of_getElem? row, h.planned⟩
    · intro b hb
      rw [List.mem_singleton.mp hb]
      exact h.entity.1
  | @operatorCancelled accountId account reason correlationId row =>
    rw [cancelScheduledAccountOutreach_eq] at hw ⊢
    refine sourced_of_tasks hs hw ?_ ?_
    · intro t ht
      obtain ⟨u, hu, rfl⟩ := List.mem_map.mp ht
      exact ⟨u, hu, cancelWhere_planned _ u⟩
    · intro a ha
      obtain ⟨x, -, rfl⟩ := List.mem_map.mp ha
      rfl

/-- The store before the first request has no references. -/
theorem sourced_empty : Sourced Store.empty where
  toWellFormed := wellFormed_empty
  owners := by simp [Store.empty]
  decisions := by simp [Store.empty]
  tasks := by simp [Store.empty]
  audits := by simp [Store.empty]

/-- Every step keeps the references. -/
theorem step_sourced (rt : Runtime) (s : Sys) (op : Op) (hs : Sourced s.store) :
    Sourced (step rt s op).store := by
  rcases (step_spec rt s op).transaction hs with h | h
  · rw [h]
    exact hs
  · exact h.sourced hs

/-- Every reachable store is sourced. -/
theorem run_sourced (rt : Runtime) (clock : Int) (ops : List Op) :
    Sourced (run (step rt) (start clock) ops).store :=
  run_invariant (I := fun s : Sys => Sourced s.store) (step_sourced rt) (start clock)
    sourced_empty ops

/-- What every transaction keeps holds of every reachable store. -/
theorem run_transaction_invariant {I : Store → Prop} (hempty : I Store.empty)
    (hkeeps : ∀ s s', Sourced s → I s → Transaction rt s s' → I s') (clock : Int)
    (ops : List Op) : I (run (step rt) (start clock) ops).store := by
  have hrun := run_invariant (I := fun s : Sys => Sourced s.store ∧ I s.store)
    (?_ : ∀ s op, _ → _ ∧ I (step rt s op).store) (start clock) ⟨sourced_empty, hempty⟩ ops
  · exact hrun.2
  · rintro s op ⟨hs, hI⟩
    refine ⟨step_sourced rt s op hs, ?_⟩
    rcases (step_spec rt s op).transaction hs with h | h
    · rwa [h]
    · exact hkeeps s.store _ hs hI h

/-- A policy event that is ingested for the first time appends the rows of its outcomes. -/
theorem policyEvent_ingested (hs : Sourced s) {clock : Int} {r : EventIngestionResult}
    (h : ingestEventSnapshot rt s sub clock = .ok (s', r))
    (htype : sub.eventType = .accountDelinquent ∨ sub.eventType = .paymentFailed)
    (hnew : s.findExistingEvent sub.source sub.externalId = none) :
    ∃ n ps os, storedRecentAttempts s sub.customer.externalId sub.occurredAt.toDatetime = .ok n ∧
      proposalsForEvent rt sub.eventType sub.occurredAt.toDatetime sub.customer.timezone =
        .ok ps ∧
      decideAll rt (snapshotInput sub (storedOptOut s sub.customer.externalId)) n ps = .ok os ∧
      s'.policyDecisions = s.policyDecisions ++ plannedDecisions (contextOf rt s sub) os ∧
      s'.outreachTasks = s.outreachTasks ++
        plannedTasks (contextOf rt s sub) clock s.policyDecisions.length os := by
  obtain ⟨effect, hadmitted, he⟩ := admitted_of_ok hs hnew h
  obtain rfl := congrArg Prod.fst he
  cases hadmitted.decision with
  | @planned ps os policyEvent window proposed decided =>
    rw [readsOf_optedOut] at decided
    exact ⟨_, ps, os, readsOf_recent rt hs window, proposed, decided, rfl, rfl⟩
  | cancelled hmarker => rcases htype with ht | ht <;> rw [ht] at hmarker <;> cases hmarker

end

end Orchestrator.System
