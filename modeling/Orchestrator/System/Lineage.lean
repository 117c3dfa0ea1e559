import Orchestrator.System.Evolution

/-!
# Lineage

What of a store is still in every later one. Rows keep their keys, external ids and
owners, an opt-out is never cleared, and a later decision, task or audit row never
refers to an earlier event or decision.
-/

namespace Orchestrator.System

open Base Domain Orchestration Workers

/-- What of `s` is still in `s'`. -/
structure Evolves (s s' : Store) : Prop where
  customers : ∀ (i : Nat) (c : Customer), s.customers[i]? = some c → ∃ c' : Customer,
    s'.customers[i]? = some c' ∧ c'.externalId = c.externalId ∧
      (c.optedOut = true → c'.optedOut = true)
  accounts : ∀ (i : Nat) (a : Account), s.accounts[i]? = some a → ∃ a' : Account,
    s'.accounts[i]? = some a' ∧ a'.externalId = a.externalId ∧ a'.customerId = a.customerId
  inboundEvents : s.inboundEvents <+: s'.inboundEvents
  policyDecisions : ∃ ds, s'.policyDecisions = s.policyDecisions ++ ds ∧
    ∀ d ∈ ds, ∃ e, d.inboundEventId = some e ∧ s.inboundEvents.length ≤ e
  outreachTasks : ∃ ts, s'.outreachTasks.map OutreachTask.planned =
      s.outreachTasks.map OutreachTask.planned ++ ts ∧
    ∀ t ∈ ts, ∃ d, t.policyDecisionId = some d ∧ s.policyDecisions.length ≤ d
  auditEvents : ∃ as, s'.auditEvents = s.auditEvents ++ as ∧
    ∀ a ∈ as, ∀ e, a.payload.inboundEventId = some e → s.inboundEvents.length ≤ e

namespace Evolves

/-- A store is in itself. -/
theorem refl (s : Store) : Evolves s s where
  customers i c h := ⟨c, h, rfl, id⟩
  accounts i a h := ⟨a, h, rfl, rfl⟩
  inboundEvents := List.prefix_refl _
  policyDecisions := ⟨[], (List.append_nil _).symm, by simp⟩
  outreachTasks := ⟨[], (List.append_nil _).symm, by simp⟩
  auditEvents := ⟨[], (List.append_nil _).symm, by simp⟩

/-- Lineage composes. -/
theorem trans {s t u : Store} (h : Evolves s t) (h' : Evolves t u) : Evolves s u where
  customers i c hc := by
    obtain ⟨c', hc', hx, ho⟩ := h.customers i c hc
    obtain ⟨c'', hc'', hx', ho'⟩ := h'.customers i c' hc'
    exact ⟨c'', hc'', hx'.trans hx, fun hopt => ho' (ho hopt)⟩
  accounts i a ha := by
    obtain ⟨a', ha', hx, hown⟩ := h.accounts i a ha
    obtain ⟨a'', ha'', hx', hown'⟩ := h'.accounts i a' ha'
    exact ⟨a'', ha'', hx'.trans hx, hown'.trans hown⟩
  inboundEvents := h.inboundEvents.trans h'.inboundEvents
  policyDecisions := by
    obtain ⟨ds, hds, hnew⟩ := h.policyDecisions
    obtain ⟨ds', hds', hnew'⟩ := h'.policyDecisions
    refine ⟨ds ++ ds', by rw [hds', hds, List.append_assoc], ?_⟩
    intro d hd
    rcases List.mem_append.mp hd with hd | hd
    · exact hnew d hd
    · obtain ⟨e, he, hle⟩ := hnew' d hd
      exact ⟨e, he, h.inboundEvents.length_le.trans hle⟩
  outreachTasks := by
    obtain ⟨ds, hds, -⟩ := h.policyDecisions
    obtain ⟨ts, hts, hnew⟩ := h.outreachTasks
    obtain ⟨ts', hts', hnew'⟩ := h'.outreachTasks
    refine ⟨ts ++ ts', by rw [hts', hts, List.append_assoc], ?_⟩
    intro t ht
    rcases List.mem_append.mp ht with ht | ht
    · exact hnew t ht
    · obtain ⟨d, hd, hle⟩ := hnew' t ht
      rw [hds, List.length_append] at hle
      exact ⟨d, hd, by omega⟩
  auditEvents := by
    obtain ⟨as, has, hnew⟩ := h.auditEvents
    obtain ⟨as', has', hnew'⟩ := h'.auditEvents
    refine ⟨as ++ as', by rw [has', has, List.append_assoc], ?_⟩
    intro a ha e he
    rcases List.mem_append.mp ha with ha | ha
    · exact hnew a ha e he
    · exact h.inboundEvents.length_le.trans (hnew' a ha e he)

/-- A task is still there, with the columns that planning fixed. -/
theorem task {s s' : Store} (h : Evolves s s') {k : Nat} {t : OutreachTask}
    (ht : s.outreachTasks[k]? = some t) :
    ∃ t', s'.outreachTasks[k]? = some t' ∧ t'.planned = t.planned := by
  obtain ⟨ts, hts, -⟩ := h.outreachTasks
  have hk := (List.getElem?_eq_some_iff.mp ht).1
  have hget : (s'.outreachTasks.map OutreachTask.planned)[k]? = some t.planned := by
    rw [hts, List.getElem?_append_left (by simpa using hk), List.getElem?_map, ht]
    rfl
  rw [List.getElem?_map, Option.map_eq_some_iff] at hget
  exact hget

/-- Customers keep their external ids. -/
theorem customerIds {s s' : Store} (h : Evolves s s') :
    s.customers.map Customer.externalId <+: s'.customers.map Customer.externalId := by
  rw [List.prefix_iff_getElem?]
  intro i hi
  rw [List.length_map] at hi
  obtain ⟨c', hc', hx, -⟩ := h.customers i _ (List.getElem?_eq_getElem hi)
  rw [List.getElem?_map, hc', Option.map_some, List.getElem_map, hx]

end Evolves

/-! ### One commit -/

/-- Cancelling keeps the planned columns of every task. -/
theorem map_planned_cancelWhere (p : OutreachTask → Bool) (tasks : List OutreachTask) :
    (tasks.map (OutreachTask.cancelWhere p)).map OutreachTask.planned =
      tasks.map OutreachTask.planned := by
  rw [List.map_map]
  exact List.map_congr_left fun t _ => cancelWhere_planned p t

/-- A row write keeps the planned columns of every task. -/
theorem map_planned_writeRow {tasks : List OutreachTask} {k : Nat} {t t' : OutreachTask}
    {a : AuditEvent} (ht : tasks[k]? = some t) (hw : RowWrite k t t' a) :
    (tasks.set k t').map OutreachTask.planned = tasks.map OutreachTask.planned := by
  apply List.ext_getElem?
  intro i
  by_cases hi : k = i
  · subst hi
    obtain ⟨hlen, rfl⟩ := List.getElem?_eq_some_iff.mp ht
    simp [hlen, hw.planned]
  · simp [hi]

/-- A commit that only rewrites tasks, with audit rows that name no event. -/
private theorem evolves_of_tasks {s : Store} {tasks : List OutreachTask} {as : List AuditEvent}
    (ht : tasks.map OutreachTask.planned = s.outreachTasks.map OutreachTask.planned)
    (ha : ∀ a ∈ as, a.payload.inboundEventId = none) :
    Evolves s { s with outreachTasks := tasks, auditEvents := s.auditEvents ++ as } where
  customers i c hc := ⟨c, hc, rfl, id⟩
  accounts i a ha := ⟨a, ha, rfl, rfl⟩
  inboundEvents := List.prefix_refl _
  policyDecisions := ⟨[], (List.append_nil _).symm, by simp⟩
  outreachTasks := ⟨[], by rw [List.append_nil, ht], by simp⟩
  auditEvents := by
    refine ⟨as, rfl, fun a hmem e he => ?_⟩
    rw [ha a hmem] at he
    cases he

private theorem recordCustomers_evolves (ctx : EventContext) {customers : List Customer} {i : Nat}
    {c : Customer} (h : customers[i]? = some c) :
    ∃ c', (recordCustomers ctx customers)[i]? = some c' ∧ c'.externalId = c.externalId ∧
      (c.optedOut = true → c'.optedOut = true) := by
  unfold recordCustomers
  split
  · by_cases hi : ctx.customerId = i
    · exact ⟨{ c with optedOut := true }, by simp [hi, h], rfl, fun _ => rfl⟩
    · exact ⟨c, by simp [hi, h], rfl, id⟩
  · exact ⟨c, h, rfl, id⟩

private theorem recordAccounts_evolves (ctx : EventContext) {accounts : List Account} {i : Nat}
    {a : Account} (h : accounts[i]? = some a) :
    ∃ a', (recordAccounts ctx accounts)[i]? = some a' ∧ a'.externalId = a.externalId ∧
      a'.customerId = a.customerId := by
  unfold recordAccounts
  split
  · by_cases hi : ctx.accountId = i
    · exact ⟨{ a with status := .paused }, by simp [hi, h], rfl, rfl⟩
    · exact ⟨a, by simp [hi, h], rfl, rfl⟩
  · exact ⟨a, h, rfl, rfl⟩

section

variable {rt : Runtime} {s : Store} {sub : EventSubmission} {ctx : EventContext}
  {customers : List Customer} {accounts : List Account}

/-- The customer upsert keeps every stored customer's key, external id and opt-out. -/
theorem fresh_customers (h : Fresh rt s sub ctx customers accounts) {i : Nat} {c : Customer}
    (hc : s.customers[i]? = some c) :
    ∃ c', customers[i]? = some c' ∧ c'.externalId = c.externalId ∧ c'.optedOut = c.optedOut := by
  by_cases hi : i = ctx.customerId
  · subst hi
    refine ⟨ctx.customer, h.customer.stored, ?_⟩
    rw [h.customer.rewritten hc]
    exact ⟨rfl, rfl⟩
  · exact ⟨c, h.customer.frame hi hc, rfl, rfl⟩

/-- The account upsert keeps every stored account's key, external id and owner. -/
theorem fresh_accounts (h : Fresh rt s sub ctx customers accounts) {i : Nat} {a : Account}
    (ha : s.accounts[i]? = some a) :
    ∃ a', accounts[i]? = some a' ∧ a'.externalId = a.externalId ∧
      a'.customerId = a.customerId := by
  by_cases hi : i = ctx.accountId
  · subst hi
    refine ⟨ctx.account, h.account.stored, ?_⟩
    rw [h.account.rewritten ha]
    exact ⟨rfl, rfl⟩
  · exact ⟨a, h.account.frame hi ha, rfl, rfl⟩

end

/-- Every commit keeps the lineage. -/
theorem Commit.evolves {rt : Runtime} {clock : Int} {s s' : Store} (h : Commit rt clock s s') :
    Evolves s s' := by
  cases h with
  | ingested h =>
    cases h with
    | replayed h => exact .refl s
    | @planned ctx customers accounts n st ds ts as fresh policyEvent counted growth =>
      refine ⟨?_, fun _ _ => fresh_accounts fresh, List.prefix_append _ _,
        ⟨ds, rfl, ?_⟩, ⟨ts.map OutreachTask.planned, List.map_append, ?_⟩, ⟨_, rfl, ?_⟩⟩
      · intro i c hc
        obtain ⟨c', hc', hx, ho⟩ := fresh_customers fresh hc
        exact ⟨c', hc', hx, fun hopt => ho.trans hopt⟩
      · intro d hd
        exact ⟨ctx.inboundEventId, growth.decisions d hd, fresh.inboundEventId.ge⟩
      · intro t ht
        obtain ⟨u, hu, rfl⟩ := List.mem_map.mp ht
        obtain ⟨channel, d, at', rfl, hle, -⟩ := (growth.tasks u hu).row
        exact ⟨d, rfl, hle⟩
      · intro a ha e he
        rcases List.mem_append.mp ha with ha | ha
        · rw [(receiptRows_entity rt _ _ a ha).2.2] at he
          cases he
        · rw [(growth.audits a ha).2.2, Option.some.injEq] at he
          exact he ▸ fresh.inboundEventId.ge
    | @cancelled ctx customers accounts marker record fresh cancelling =>
      refine ⟨?_, ?_, List.prefix_append _ _, ⟨[], (List.append_nil _).symm, by simp⟩,
        ⟨[], ?_, by simp⟩, ⟨_, rfl, ?_⟩⟩
      · intro i c hc
        obtain ⟨c', hc', hx, ho⟩ := fresh_customers fresh hc
        obtain ⟨c'', hc'', hx', ho'⟩ := recordCustomers_evolves ctx hc'
        exact ⟨c'', hc'', hx'.trans hx, fun hopt => ho' (ho.trans hopt)⟩
      · intro i a ha
        obtain ⟨a', ha', hx, hown⟩ := fresh_accounts fresh ha
        obtain ⟨a'', ha'', hx', hown'⟩ := recordAccounts_evolves ctx ha'
        exact ⟨a'', ha'', hx'.trans hx, hown'.trans hown⟩
      · rw [map_planned_cancelWhere, List.append_nil]
      · intro a ha e he
        simp only [List.mem_append] at ha
        rcases ha with ha | ha | ha | ha
        · rw [(receiptRows_entity rt _ _ a ha).2.2] at he
          cases he
        · rw [(recordRows_spec ctx a ha).2.2, Option.some.injEq] at he
          exact he ▸ fresh.inboundEventId.ge
        · obtain ⟨x, -, rfl⟩ := List.mem_map.mp ha
          have hid : ctx.inboundEventId = e := Option.some.inj he
          exact hid ▸ fresh.inboundEventId.ge
        · rw [List.mem_singleton.mp ha] at he
          cases he
  | @wrote taskId old new a row hw payload =>
    apply evolves_of_tasks (map_planned_writeRow row hw)
    · intro b hb
      rw [List.mem_singleton.mp hb, payload]
  | @operatorCancelled accountId account reason correlationId row =>
    rw [cancelScheduledAccountOutreach_eq]
    apply evolves_of_tasks (map_planned_cancelWhere _ _)
    intro a ha
    obtain ⟨x, -, rfl⟩ := List.mem_map.mp ha
    rfl

/-- Every step keeps the lineage. -/
theorem step_evolves (rt : Runtime) (s : Sys) (op : Op) (hs : WellFormed s.store) :
    Evolves s.store (step rt s op).store := by
  rcases (step_spec rt s op).commit hs with h | h
  · rw [h]
    exact .refl _
  · exact h.evolves

/-- Every run keeps the lineage. -/
theorem run_evolves (rt : Runtime) (s : Sys) (hs : WellFormed s.store) (ops : List Op) :
    Evolves s.store (run (step rt) s ops).store :=
  run_relation (I := fun s : Sys => WellFormed s.store)
    (R := fun s s' => Evolves s.store s'.store) (step_wellFormed rt) (fun s => .refl s.store)
    (fun _ _ _ => .trans) (step_evolves rt) s hs ops

/-! ### Owners -/

/-- Every task belongs to a stored customer who owns its account. -/
def Owned (s : Store) : Prop :=
  ∀ t ∈ s.outreachTasks, (∃ c, s.customers[t.customerId]? = some c) ∧
    ∃ a, s.accounts[t.accountId]? = some a ∧ a.customerId = t.customerId

/-- Every commit keeps tasks with the owners of their accounts. -/
theorem Commit.owned {rt : Runtime} {clock : Int} {s s' : Store} (hs : WellFormed s)
    (ho : Owned s) (h : Commit rt clock s s') : Owned s' := by
  intro t ht
  obtain ⟨k, hk⟩ := List.mem_iff_getElem?.mp ht
  by_cases hlt : k < s.outreachTasks.length
  · obtain ⟨t', ht', hp⟩ := h.evolves.task (List.getElem?_eq_getElem hlt)
    obtain rfl : t' = t := Option.some.inj (ht'.symm.trans hk)
    obtain ⟨⟨c, hc⟩, a, ha, hown⟩ := ho _ (List.getElem_mem hlt)
    obtain ⟨c', hc', -⟩ := h.evolves.customers _ c hc
    obtain ⟨a', ha', -, hown'⟩ := h.evolves.accounts _ a ha
    have haccount : t'.accountId = (s.outreachTasks[k]).accountId :=
      congrArg (fun x => x.accountId) hp
    have hcustomer : t'.customerId = (s.outreachTasks[k]).customerId :=
      congrArg (fun x => x.customerId) hp
    rw [haccount, hcustomer]
    exact ⟨⟨c', hc'⟩, a', ha', hown'.trans hown⟩
  · obtain ⟨sub, ctx, hc⟩ := h.created hs (Nat.le_of_not_lt hlt) hk
    obtain ⟨channel, d, at', rfl, -⟩ := hc.planned.row
    exact ⟨⟨_, hc.fresh.customer.stored⟩, ctx.account, hc.fresh.account.stored, hc.fresh.owner⟩

/-- In every reachable store tasks belong to the owners of their accounts. -/
theorem run_owned (rt : Runtime) (clock : Int) (ops : List Op) :
    Owned (run (step rt) (start clock) ops).store :=
  run_store_invariant (by simp [Owned, Store.empty]) (fun _ _ _ hs ho h => h.owned hs ho) clock ops

end Orchestrator.System
