import Orchestrator.System.InFlight
import Orchestrator.System.Lineage

/-!
# What a revocation stops

A cancelling event or an operator request cancels the scheduled tasks of one account,
and an opt-out also keeps its customer's later events from creating tasks. Dispatch
checks neither, so a task that was scheduled elsewhere, or in flight with attempts left,
is still claimed; no other task is.
-/

namespace Orchestrator.System

open Base Domain Orchestration Workers

/-! ### The commit of a cancelling event -/

/-- What the first ingestion of a cancelling event leaves: its customer and account are
stored, and no task of the account is scheduled. -/
structure Cancelled (sub : EventSubmission) (s : Store) (customerId accountId : Nat) : Prop where
  customer : s.customerByExternalId sub.customer.externalId = some customerId
  account : s.accountByExternalId sub.account.externalId = some accountId
  unscheduled : ∀ t ∈ s.outreachTasks, t.accountId = accountId → t.status ≠ .scheduled
  optedOut : sub.eventType = .optOutReceived →
    ∃ c, s.customers[customerId]? = some c ∧ c.optedOut = true

/-- The first ingestion of a cancelling event cancels the scheduled tasks of its account. -/
theorem ingested_cancelled {rt : Runtime} {s s' : Store} {sub : EventSubmission} {clock : Int}
    {r : EventIngestionResult} (ho : Owned s) (h : Ingested rt s sub clock s' r)
    (hfresh : s.findExistingEvent sub.source sub.externalId = none)
    (htype : sub.eventType.cancelling = true) :
    ∃ customerId accountId, Cancelled sub s' customerId accountId := by
  cases h with
  | replayed h =>
    rw [hfresh] at h
    cases h
  | planned fresh policyEvent _ _ =>
    rcases policyEvent with he | he <;> rw [he] at htype <;> cases htype
  | @cancelled ctx customers accounts marker record fresh cancelling =>
    refine ⟨ctx.customerId, ctx.accountId, ?_, ?_, ?_, ?_⟩
    · rw [Store.customerByExternalId,
        Table.lookup_congr (recordCustomers_externalId ctx customers)]
      exact fresh.customer.found (fun _ => rfl) rfl
    · rw [Store.accountByExternalId,
        Table.lookup_congr (recordAccounts_externalId ctx accounts)]
      exact fresh.account.found (fun _ => rfl) rfl
    · intro t ht hacc
      obtain ⟨u, hu, rfl⟩ := List.mem_map.mp ht
      by_cases hp : cancellable ctx u = true
      · simp [OutreachTask.cancelWhere, hp, OutreachTask.cancel]
      · simp only [OutreachTask.cancelWhere, hp] at hacc ⊢
        intro hs
        -- the account's owner is the event's customer, so the task would have been selected
        obtain ⟨-, a, ha, hown⟩ := ho u hu
        obtain ⟨a', ha', -, hown'⟩ := fresh_accounts fresh ha
        have hacc : u.accountId = ctx.accountId := by simpa using hacc
        rw [hacc, fresh.account.stored, Option.some.injEq] at ha'
        have hcust : u.customerId = ctx.customerId := by
          rw [← hown, ← hown', ← ha', fresh.owner]
        exact hp (by simp [cancellable, hacc, hcust, by simpa using hs])
    · intro hopt
      have he : ctx.inboundEvent.eventType = .optOutReceived := by
        rw [fresh.inboundEvent]
        exact hopt
      refine ⟨{ ctx.customer with optedOut := true }, ?_, rfl⟩
      simp [recordCustomers, he, fresh.customer.stored]

/-! ### Opt-out -/

/-- Once a customer has opted out, no run creates a task of the customer. -/
theorem run_optedOut (rt : Runtime) (s : Sys) (hs : WellFormed s.store) {customerId : Nat}
    {c : Customer} (hc : s.store.customers[customerId]? = some c) (ho : c.optedOut = true)
    (ops : List Op) {k : Nat} {t : OutreachTask} (hk : s.store.outreachTasks.length ≤ k)
    (ht : (run (step rt) s ops).store.outreachTasks[k]? = some t) : t.customerId ≠ customerId := by
  have hrun := @run_invariant _ _ (step rt) (fun s' => WellFormed s'.store ∧
    Evolves s.store s'.store ∧ ∀ (k : Nat) (t : OutreachTask), s.store.outreachTasks.length ≤ k →
      s'.store.outreachTasks[k]? = some t → t.customerId ≠ customerId) ?_ s
    ⟨hs, .refl _, fun k t hk ht => absurd (List.getElem?_eq_some_iff.mp ht).1 (by omega)⟩ ops
  · exact hrun.2.2 k t hk ht
  · rintro s₁ op ⟨hs₁, hevolves, hnone⟩
    have hevolves' := hevolves.trans (step_evolves rt s₁ op hs₁)
    refine ⟨step_wellFormed rt s₁ op hs₁, hevolves', fun k t hk ht => ?_⟩
    rcases (step_spec rt s₁ op).commit hs₁ with h | h
    · rw [h] at ht
      exact hnone k t hk ht
    · by_cases hlt : k < s₁.store.outreachTasks.length
      · obtain ⟨t', ht', hp⟩ := h.evolves.task (List.getElem?_eq_getElem hlt)
        obtain rfl : t' = t := Option.some.inj (ht'.symm.trans ht)
        have hcustomer : t'.customerId = (s₁.store.outreachTasks[k]).customerId :=
          congrArg (fun x => x.customerId) hp
        rw [hcustomer]
        exact hnone k _ hk (List.getElem?_eq_getElem hlt)
      · obtain ⟨sub, ctx, hcreated⟩ := h.created hs₁ (Nat.le_of_not_lt hlt) ht
        obtain ⟨channel, d, at', rfl, -⟩ := hcreated.planned.row
        rintro rfl
        obtain ⟨c', hc', -, ho'⟩ := hevolves'.customers _ c hc
        have hrow := hcreated.fresh.customer.stored
        obtain rfl : c' = ctx.customer := Option.some.inj (hc'.symm.trans hrow)
        have hnot := hcreated.planned.notOptedOut
        rw [ho' ho] at hnot
        cases hnot

/-- The state that a successful ingestion leaves. -/
private theorem store_ingested {rt : Runtime} {clock : Int} {before : List Op}
    {sub : EventSubmission} {s' : Store} {r : EventIngestionResult}
    (hok : ingestEventSnapshot rt (run (step rt) (start clock) before).store sub
      (run (step rt) (start clock) before).clock = .ok (s', r)) :
    (run (step rt) (start clock) (before ++ [.ingestEvent sub])).store = s' := by
  rw [run_concat]
  simp only [step, ingest, hok]
  rfl

private theorem run_split (rt : Runtime) (clock : Int) (before after : List Op) (op : Op) :
    run (step rt) (start clock) (before ++ op :: after) =
      run (step rt) (run (step rt) (start clock) (before ++ [op])) after := by
  rw [← run_append, List.append_assoc]
  rfl

/-- A claimed row shows the customer of the task. -/
private theorem claimed_customer {s : Sys} {op : Op} {c : Claim} (h : claimed s op = some c) :
    ∃ t, s.store.outreachTasks[c.taskId]? = some t ∧ c.task.customerId = t.customerId := by
  obtain ⟨_, _, _, t, -, -, -, ht, -, he⟩ := claimed_eq_some h
  exact ⟨t, ht, by rw [he]; rfl⟩

/-- After an opt-out a worker claims a task of the customer only if, when the opt-out
committed, the task was scheduled on another account or in flight with attempts left. -/
theorem optOut_stops_dispatch (rt : Runtime) (clock : Int) (before : List Op)
    (sub : EventSubmission) (hopt : sub.eventType = .optOutReceived) (s' : Store)
    (r : EventIngestionResult)
    (hfresh : (run (step rt) (start clock) before).store.findExistingEvent sub.source
      sub.externalId = none)
    (hok : ingestEventSnapshot rt (run (step rt) (start clock) before).store sub
      (run (step rt) (start clock) before).clock = .ok (s', r))
    (customerId accountId : Nat)
    (hcustomer : s'.customerByExternalId sub.customer.externalId = some customerId)
    (haccount : s'.accountByExternalId sub.account.externalId = some accountId)
    (after : List Op) (next : Op) (c : Claim)
    (hclaim : claimed (run (step rt) (start clock) (before ++ .ingestEvent sub :: after)) next =
      some c) (htask : c.task.customerId = customerId) :
    ∃ t, s'.outreachTasks[c.taskId]? = some t ∧
      (t.status = .scheduled ∧ t.accountId ≠ accountId ∨
        t.status = .dispatching ∧ t.attemptCount < t.maxAttempts) := by
  have hsound := run_sound rt clock (before ++ [.ingestEvent sub])
  have hstore := store_ingested hok
  have hing := ingestEventSnapshot_ingested (run_wellFormed rt clock before) hok
  obtain ⟨cid, aid, hcancelled⟩ := ingested_cancelled (run_owned rt clock before) hing hfresh
    (by rw [hopt]; rfl)
  obtain rfl : cid = customerId := Option.some.inj (hcancelled.customer.symm.trans hcustomer)
  obtain rfl : aid = accountId := Option.some.inj (hcancelled.account.symm.trans haccount)
  obtain ⟨row, hrow, ho⟩ := hcancelled.optedOut hopt
  rw [run_split] at hclaim
  obtain ⟨t', ht', hcust⟩ := claimed_customer hclaim
  have hlt : c.taskId < s'.outreachTasks.length := by
    by_contra hge
    have hnot := run_optedOut rt _ hsound.1 (by rw [hstore]; exact hrow) ho after
      (by rw [hstore]; exact Nat.le_of_not_lt hge) ht'
    exact hnot (hcust.symm.trans htask)
  have ht := List.getElem?_eq_getElem hlt
  have hlive : Live s'.outreachTasks[c.taskId] :=
    live_of_claimed hsound hclaim (by rw [hstore]; exact ht)
  refine ⟨_, ht, ?_⟩
  rcases hlive with hs | hd
  · exact Or.inl ⟨hs, fun hacc => hcancelled.unscheduled _ (List.getElem_mem hlt) hacc hs⟩
  · exact Or.inr hd

/-- The call fails, and a later pass finds the retry due. -/
def demoRetry : List Op :=
  [.settle 0 (.raised "timeout"), .startPass 0 { now := demoMonday + 13 * hour }]

/-- The second claim of that email. -/
def demoSecondClaim : Claim where
  taskId := 0
  now := demoMonday + 13 * hour
  task :=
    { demoDispatching with
      scheduledAt := demoMonday + 12 * hour + 5 * minute
      attemptCount := 2
      lastError := some "timeout" }

/-- The opt-out commits while the email is in flight with attempts left. -/
theorem optOut_stops_dispatch_in_flight :
    let sub := demoEvent "event-2" .optOutReceived "acct-1" demoNoon
    ∃ t, (ingest demoRuntime (run (step demoRuntime) (start 0) demoInFlight).store sub
        0).outreachTasks[0]? = some t ∧
      (t.status = .scheduled ∧ t.accountId ≠ 0 ∨
        t.status = .dispatching ∧ t.attemptCount < t.maxAttempts) :=
  optOut_stops_dispatch demoRuntime 0 demoInFlight
    (demoEvent "event-2" .optOutReceived "acct-1" demoNoon) rfl _ ⟨1, 0, 0, 0, 1, 0⟩
    (by decide +kernel) (by decide +kernel) 0 0 (by decide +kernel) (by decide +kernel) demoRetry
    (.claim 0) demoSecondClaim
    (by decide +kernel) rfl

/-- An email of another account of the customer is claimed after the opt-out. -/
theorem optOut_dispatches_other_account :
    ¬ ∀ (rt : Runtime) (clock : Int) (before : List Op) (sub : EventSubmission) (s' : Store)
      (r : EventIngestionResult) (customerId : Nat) (after : List Op) (next : Op) (c : Claim),
      sub.eventType = .optOutReceived →
      (run (step rt) (start clock) before).store.findExistingEvent sub.source sub.externalId =
        none →
      ingestEventSnapshot rt (run (step rt) (start clock) before).store sub
        (run (step rt) (start clock) before).clock = .ok (s', r) →
      s'.customerByExternalId sub.customer.externalId = some customerId →
      claimed (run (step rt) (start clock) (before ++ .ingestEvent sub :: after)) next = some c →
      c.task.customerId ≠ customerId := by
  intro h
  refine h demoRuntime 0 [.ingestEvent (demoEvent "event-1" .paymentFailed "acct-1" demoNoon)]
    (demoEvent "event-2" .optOutReceived "acct-2" demoNoon)
    (ingest demoRuntime (ingest demoRuntime Store.empty
      (demoEvent "event-1" .paymentFailed "acct-1" demoNoon) 0)
      (demoEvent "event-2" .optOutReceived "acct-2" demoNoon) 0)
    ⟨1, 0, 0, 0, 0, 0⟩ 0 [.startPass 0 { now := demoMonday + 12 * hour }] (.claim 0)
    ⟨0, demoMonday + 12 * hour, demoDispatching⟩ rfl ?_ ?_ ?_ ?_ rfl
  · decide +kernel
  · decide +kernel
  · decide +kernel
  · decide +kernel

/-! ### Cancellation -/

/-- Operations that cancel the outreach of one account: the first ingestion of a payment,
hardship or pause event, and an operator's request. -/
inductive Cancels (rt : Runtime) (s : Sys) (accountId : Nat) : Op → Prop where
  | event {sub : EventSubmission} {s' : Store} {r : EventIngestionResult}
      (htype : sub.eventType = .paymentReceived ∨ sub.eventType = .hardshipRequested ∨
        sub.eventType = .accountPaused)
      (hfresh : s.store.findExistingEvent sub.source sub.externalId = none)
      (hok : ingestEventSnapshot rt s.store sub s.clock = .ok (s', r))
      (haccount : s'.accountByExternalId sub.account.externalId = some accountId) :
      Cancels rt s accountId (.ingestEvent sub)
  | operator {accountExternalId reason : String} {correlationId : Nat}
      (haccount : s.store.accountByExternalId accountExternalId = some accountId) :
      Cancels rt s accountId (.cancelOutreach accountExternalId reason correlationId)

/-- A cancelling operation leaves no scheduled task of its account. -/
theorem Cancels.unscheduled {rt : Runtime} {s : Sys} {accountId : Nat} {op : Op}
    (h : Cancels rt s accountId op) (hs : WellFormed s.store) (ho : Owned s.store) :
    ∀ t ∈ (step rt s op).store.outreachTasks, t.accountId = accountId → t.status ≠ .scheduled := by
  cases h with
  | event htype hfresh hok haccount =>
    obtain ⟨cid, aid, hcancelled⟩ := ingested_cancelled ho
      (ingestEventSnapshot_ingested hs hok) hfresh
      (by rcases htype with h | h | h <;> rw [h] <;> rfl)
    obtain rfl : aid = accountId := Option.some.inj (hcancelled.account.symm.trans haccount)
    simp only [step, ingest, hok]
    exact hcancelled.unscheduled
  | operator haccount =>
    obtain ⟨account, hrow, -⟩ := Table.lookup_eq_some haccount
    simp only [step, cancelAccountOutreach, haccount, hrow, bind, Option.bind,
      cancelScheduledAccountOutreach_eq]
    intro t ht hacc
    obtain ⟨u, hu, rfl⟩ := List.mem_map.mp ht
    by_cases hp : operatorCancellable accountId u = true
    · simp [OutreachTask.cancelWhere, hp, OutreachTask.cancel]
    · simp only [OutreachTask.cancelWhere, hp] at hacc ⊢
      intro hsch
      have hacc : u.accountId = accountId := by simpa using hacc
      have hsch : u.status = .scheduled := by simpa using hsch
      exact hp (by simp [operatorCancellable, scheduled, hacc, hsch])

/-- After a cancellation a worker claims a task of the account that existed then only if
the task was in flight with attempts left. -/
theorem cancellation_final_unless_in_flight (rt : Runtime) (clock : Int) (before : List Op)
    (op : Op) (accountId : Nat)
    (hcancels : Cancels rt (run (step rt) (start clock) before) accountId op) (after : List Op)
    (next : Op) (c : Claim)
    (hclaim : claimed (run (step rt) (start clock) (before ++ op :: after)) next = some c)
    (t : OutreachTask)
    (ht : (run (step rt) (start clock) (before ++ [op])).store.outreachTasks[c.taskId]? = some t)
    (haccount : t.accountId = accountId) :
    t.status = .dispatching ∧ t.attemptCount < t.maxAttempts := by
  have hsound := run_sound rt clock (before ++ [op])
  rw [run_split] at hclaim
  rcases live_of_claimed hsound hclaim ht with hs | hd
  · rw [run_concat] at ht
    have hnone := hcancels.unscheduled (run_wellFormed rt clock before) (run_owned rt clock before)
    exact absurd hs (hnone t (List.mem_of_getElem? ht) haccount)
  · exact hd

/-- The payment commits while the email is in flight with attempts left. -/
theorem cancellation_final_unless_in_flight_demo :
    demoDispatching.status = .dispatching ∧
      demoDispatching.attemptCount < demoDispatching.maxAttempts := by
  have hok : ingestEventSnapshot demoRuntime (run (step demoRuntime) (start 0) demoInFlight).store
      (demoEvent "event-2" .paymentReceived "acct-1" demoNoon) 0 =
      .ok (ingest demoRuntime (run (step demoRuntime) (start 0) demoInFlight).store
        (demoEvent "event-2" .paymentReceived "acct-1" demoNoon) 0, ⟨1, 0, 0, 0, 1, 0⟩) := by
    decide +kernel
  refine cancellation_final_unless_in_flight demoRuntime 0 demoInFlight _ 0
    (.event (Or.inl rfl) ?_ hok ?_) demoRetry (.claim 0) demoSecondClaim ?_ demoDispatching ?_ rfl
  · decide +kernel
  · decide +kernel
  · decide +kernel
  · decide +kernel

/-- An email in flight is claimed again after the payment. -/
theorem cancellation_not_final :
    ¬ ∀ (rt : Runtime) (clock : Int) (before : List Op) (op : Op) (accountId : Nat)
      (after : List Op) (next : Op) (c : Claim) (t : OutreachTask),
      Cancels rt (run (step rt) (start clock) before) accountId op →
      claimed (run (step rt) (start clock) (before ++ op :: after)) next = some c →
      (run (step rt) (start clock) (before ++ [op])).store.outreachTasks[c.taskId]? = some t →
      t.accountId ≠ accountId := by
  intro h
  refine h demoRuntime 0 demoInFlight (.cancelOutreach "acct-1" "dispute" 2) 0 demoRetry
    (.claim 0) demoSecondClaim demoDispatching (.operator ?_) ?_ ?_ rfl
  · decide +kernel
  · decide +kernel
  · decide +kernel

end Orchestrator.System
