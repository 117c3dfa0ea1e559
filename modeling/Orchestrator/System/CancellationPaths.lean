import Orchestrator.Orchestration.ClosedForm
import Orchestrator.System.Lineage

/-!
# Two cancellation paths

An event of an account's owner and an operator request both cancel the account's scheduled
tasks. Tasks belong to the owners of their accounts, so the two select the same tasks, and
each leaves nothing for the other. `updated_at` is the one column besides the status that a
cancellation writes.
-/

namespace Orchestrator.System

open Base Domain Orchestration

/-- The ids of the tasks that audit rows record as cancelled. -/
def cancelledIds (rows : List AuditEvent) : List Nat :=
  (rows.filter fun a => a.entityType = .outreachTask && a.eventType = .outreachCancelled).map
    AuditEvent.entityId

/-- A cancellation of the scheduled tasks of an account: what it commits and returns. -/
structure CancelsAccount (s : Store) (accountId : Nat) (result : Store × Nat) : Prop where
  tasks : result.1.outreachTasks =
    s.outreachTasks.map (OutreachTask.cancelWhere (operatorCancellable accountId))
  count : result.2 = s.outreachTasks.countP (operatorCancellable accountId)
  audited : ∃ rows, result.1.auditEvents = s.auditEvents ++ rows ∧
    cancelledIds rows =
      (Table.select (operatorCancellable accountId) s.outreachTasks).map Prod.snd ∧
    rows.length = (cancelledIds rows).length
  rest : result.1 = { s with
    outreachTasks := result.1.outreachTasks
    auditEvents := result.1.auditEvents }

/-- Rows that each record a cancellation name the tasks that they are about. -/
private theorem cancelledIds_map (tasks : List (OutreachTask × Nat))
    (row : OutreachTask × Nat → AuditEvent) (hrow : ∀ x, (row x).entityType = .outreachTask ∧
      (row x).eventType = .outreachCancelled ∧ (row x).entityId = x.2) :
    cancelledIds (tasks.map row) = tasks.map Prod.snd := by
  have hall : (tasks.map row).filter (fun a =>
      a.entityType = .outreachTask && a.eventType = .outreachCancelled) = tasks.map row := by
    rw [List.filter_eq_self]
    intro a ha
    obtain ⟨x, -, rfl⟩ := List.mem_map.mp ha
    simp [(hrow x).1, (hrow x).2.1]
  rw [cancelledIds, hall, List.map_map]
  exact List.map_congr_left fun x _ => (hrow x).2.2

/-- An operator request cancels the scheduled tasks of its account. -/
theorem operator_cancels (s : Store) (accountId : Nat) (account : Account) (reason : String)
    (correlationId : Nat) :
    CancelsAccount s accountId
      (cancelScheduledAccountOutreach s accountId account reason correlationId) := by
  rw [cancelScheduledAccountOutreach_eq]
  have hids := cancelledIds_map (Table.select (operatorCancellable accountId) s.outreachTasks)
    (operatorCancelledRow account reason correlationId) fun _ => ⟨rfl, rfl, rfl⟩
  exact ⟨rfl, rfl, ⟨_, rfl, hids, by rw [hids, List.length_map, List.length_map]⟩, rfl⟩

/-- In a store whose tasks belong to the owners of their accounts, an event selects the
tasks that an operator request for its account selects. -/
theorem cancellable_eq {s : Store} (ho : Owned s) {ctx : EventContext} {account : Account}
    (hrow : s.accounts[ctx.accountId]? = some account)
    (howner : ctx.customerId = account.customerId) :
    ∀ t ∈ s.outreachTasks, cancellable ctx t = operatorCancellable ctx.accountId t := by
  intro t ht
  obtain ⟨-, a, ha, hown⟩ := ho t ht
  by_cases hid : t.accountId = ctx.accountId
  · rw [hid, hrow, Option.some.injEq] at ha
    subst ha
    have hcustomer : t.customerId = ctx.customerId := hown.symm.trans howner.symm
    simp [cancellable, operatorCancellable, scheduled, hid, hcustomer]
  · simp [cancellable, operatorCancellable, hid]

/-- An event of an account's owner cancels the scheduled tasks of the account. -/
theorem planner_cancels {s : Store} (ho : Owned s) {ctx : EventContext} {account : Account}
    (hrow : s.accounts[ctx.accountId]? = some account)
    (howner : ctx.customerId = account.customerId) :
    CancelsAccount s ctx.accountId (cancelScheduledTasks s ctx) := by
  have hsame := cancellable_eq ho hrow howner
  have htasks : s.outreachTasks.map (OutreachTask.cancelWhere (cancellable ctx)) =
      s.outreachTasks.map (OutreachTask.cancelWhere (operatorCancellable ctx.accountId)) :=
    List.map_congr_left fun t ht => by simp only [OutreachTask.cancelWhere, hsame t ht]
  have hselect : Table.select (cancellable ctx) s.outreachTasks =
      Table.select (operatorCancellable ctx.accountId) s.outreachTasks := by
    apply List.filter_congr
    rintro ⟨t, k⟩ hx
    exact hsame t (List.mem_of_getElem? (List.mem_zipIdx_iff_getElem?.mp hx))
  have hcount : s.outreachTasks.countP (cancellable ctx) =
      s.outreachTasks.countP (operatorCancellable ctx.accountId) :=
    List.countP_congr fun t ht => by rw [hsame t ht]
  have hids := cancelledIds_map (Table.select (operatorCancellable ctx.accountId) s.outreachTasks)
    (cancelledRow ctx) fun _ => ⟨rfl, rfl, rfl⟩
  rw [cancelScheduledTasks_eq, htasks, hselect, hcount]
  exact ⟨rfl, rfl, ⟨_, rfl, hids, by rw [hids, List.length_map, List.length_map]⟩, rfl⟩

namespace CancelsAccount

variable {s : Store} {accountId : Nat} {result other : Store × Nat}

/-- Every task of the account that was scheduled is cancelled, and every other task and
column is unchanged. -/
theorem row (h : CancelsAccount s accountId result) {k : Nat} {t : OutreachTask}
    (ht : s.outreachTasks[k]? = some t) :
    result.1.outreachTasks[k]? =
      some (if operatorCancellable accountId t then t.cancel else t) := by
  rw [h.tasks, List.getElem?_map, ht]
  rfl

/-- The ids in the audit log are as many as the tasks that were counted. -/
theorem length_ids (h : CancelsAccount s accountId result) {rows : List AuditEvent}
    (hrows : result.1.auditEvents = s.auditEvents ++ rows) :
    (cancelledIds rows).length = result.2 ∧ rows.length = result.2 := by
  obtain ⟨rows', hrows', hids, hlength⟩ := h.audited
  obtain rfl : rows' = rows := List.append_cancel_left (hrows'.symm.trans hrows)
  have hcount : (cancelledIds rows').length = result.2 := by
    rw [hids, List.length_map, Table.length_select, h.count]
  exact ⟨hcount, hlength.trans hcount⟩

/-- The cancelled tasks take the time of the commit and no other task is touched. -/
theorem touched_eq (h : CancelsAccount s accountId result) (clock : Int) (updatedAt : Nat → Int)
    (k : Nat) :
    touched clock s.outreachTasks result.1.outreachTasks updatedAt k =
      if (s.outreachTasks[k]?).any (operatorCancellable accountId) then clock
      else updatedAt k := by
  cases ht : s.outreachTasks[k]? with
  | none => simp [touched, h.tasks, ht]
  | some t =>
    rw [touched, h.row ht, ht]
    by_cases hp : operatorCancellable accountId t = true
    · have hne : t.cancel ≠ t := by
        intro he
        have hstatus := congrArg OutreachTask.status he
        rw [operatorCancellable_scheduled accountId hp] at hstatus
        cases hstatus
      simp [hp, hne]
    · simp [hp]

/-- No scheduled task of the account is left. -/
theorem none_left (h : CancelsAccount s accountId result) :
    ∀ t ∈ result.1.outreachTasks, operatorCancellable accountId t = false := by
  intro t ht
  rw [h.tasks] at ht
  obtain ⟨u, -, rfl⟩ := List.mem_map.mp ht
  unfold OutreachTask.cancelWhere
  split
  · simp [operatorCancellable, scheduled, OutreachTask.cancel]
  · next hp => simpa using hp

end CancelsAccount

/-- Selecting no row changes no row and counts none. -/
private theorem nothing_selected {p : OutreachTask → Bool} {tasks : List OutreachTask}
    (h : ∀ t ∈ tasks, p t = false) :
    tasks.map (OutreachTask.cancelWhere p) = tasks ∧ Table.select p tasks = [] ∧
      tasks.countP p = 0 := by
  have hcount : tasks.countP p = 0 := by
    rw [List.countP_eq_zero]
    intro t ht
    simp [h t ht]
  refine ⟨?_, ?_, hcount⟩
  · calc tasks.map (OutreachTask.cancelWhere p)
        = tasks.map id := List.map_congr_left fun t ht => by simp [OutreachTask.cancelWhere, h t ht]
      _ = tasks := List.map_id _
  · rw [← List.length_eq_zero_iff, Table.length_select, hcount]

/-- An operator request for an account without scheduled tasks commits nothing. -/
theorem operator_idle {s : Store} {accountId : Nat}
    (h : ∀ t ∈ s.outreachTasks, operatorCancellable accountId t = false) (account : Account)
    (reason : String) (correlationId : Nat) :
    cancelScheduledAccountOutreach s accountId account reason correlationId = (s, 0) := by
  obtain ⟨htasks, hselect, hcount⟩ := nothing_selected h
  rw [cancelScheduledAccountOutreach_eq, htasks, hselect, hcount]
  simp

/-- An event of an account without scheduled tasks cancels nothing. -/
theorem planner_idle {s : Store} {ctx : EventContext}
    (h : ∀ t ∈ s.outreachTasks, operatorCancellable ctx.accountId t = false) :
    cancelScheduledTasks s ctx = (s, 0) := by
  have hnone : ∀ t ∈ s.outreachTasks, cancellable ctx t = false := by
    intro t ht
    have hop := h t ht
    by_cases hid : t.accountId = ctx.accountId
    · have hstatus : t.status ≠ .scheduled := by
        simpa [operatorCancellable, scheduled, hid] using hop
      simp [cancellable, hstatus]
    · simp [cancellable, hid]
  obtain ⟨htasks, hselect, hcount⟩ := nothing_selected hnone
  rw [cancelScheduledTasks_eq, htasks, hselect, hcount]
  simp

/-- Two cancellations of the same account, each alone and from the same store. -/
structure SameCancellation (s : Store) (accountId : Nat) (first second : Store × Nat) : Prop where
  tasks : first.1.outreachTasks = second.1.outreachTasks
  size : first.1.outreachTasks.length = s.outreachTasks.length
  cancelled : ∀ (k : Nat) (t : OutreachTask), s.outreachTasks[k]? = some t →
    first.1.outreachTasks[k]? = some (if t.accountId = accountId ∧ t.status = .scheduled
      then { t with status := .cancelled } else t)
  updatedAt : ∀ (clock : Int) (updatedAt : Nat → Int) (k : Nat),
    touched clock s.outreachTasks first.1.outreachTasks updatedAt k =
      if (s.outreachTasks[k]?).any (operatorCancellable accountId) then clock else updatedAt k
  count : first.2 = second.2
  audited : ∃ rows rows', first.1.auditEvents = s.auditEvents ++ rows ∧
    second.1.auditEvents = s.auditEvents ++ rows' ∧ cancelledIds rows = cancelledIds rows' ∧
    (cancelledIds rows).length = first.2 ∧ rows.length = first.2 ∧ rows'.length = first.2

/-- Two cancellations of the same account from the same store are the same. -/
theorem CancelsAccount.same {s : Store} {accountId : Nat} {first second : Store × Nat}
    (h : CancelsAccount s accountId first) (h' : CancelsAccount s accountId second) :
    SameCancellation s accountId first second where
  tasks := h.tasks.trans h'.tasks.symm
  size := by rw [h.tasks, List.length_map]
  cancelled k t ht := by
    rw [h.row ht]
    simp [operatorCancellable, scheduled, OutreachTask.cancel]
  updatedAt := h.touched_eq
  count := h.count.trans h'.count.symm
  audited := by
    obtain ⟨rows, hrows, hids, -⟩ := h.audited
    obtain ⟨rows', hrows', hids', -⟩ := h'.audited
    have hcount : first.2 = second.2 := h.count.trans h'.count.symm
    obtain ⟨hlength, hall⟩ := h.length_ids hrows
    obtain ⟨-, hall'⟩ := h'.length_ids hrows'
    exact ⟨rows, rows', hrows, hrows', hids.trans hids'.symm, hlength, hall,
      hall'.trans hcount.symm⟩

/-- The two cancellation paths agree in every reachable state, and either one leaves nothing
for the other. -/
theorem cancellationPaths_agree {rt : Runtime} {clock : Int} {ops : List Op} {s : Store}
    {ctx : EventContext} {account : Account} (hs : s = (run (step rt) (start clock) ops).store)
    (hrow : s.accounts[ctx.accountId]? = some account)
    (howner : ctx.customerId = account.customerId) (reason : String) (correlationId : Nat) :
    SameCancellation s ctx.accountId (cancelScheduledTasks s ctx)
        (cancelScheduledAccountOutreach s ctx.accountId account reason correlationId) ∧
      cancelScheduledAccountOutreach (cancelScheduledTasks s ctx).1 ctx.accountId account reason
          correlationId = ((cancelScheduledTasks s ctx).1, 0) ∧
      cancelScheduledTasks (cancelScheduledAccountOutreach s ctx.accountId account reason
          correlationId).1 ctx =
        ((cancelScheduledAccountOutreach s ctx.accountId account reason correlationId).1, 0) := by
  have howned : Owned s := hs ▸ run_owned rt clock ops
  have hplanner := planner_cancels howned hrow howner
  have hoperator := operator_cancels s ctx.accountId account reason correlationId
  exact ⟨hplanner.same hoperator, operator_idle hplanner.none_left account reason correlationId,
    planner_idle hoperator.none_left⟩

/-- A failed payment whose email and text message are still scheduled. -/
def demoScheduled : Store :=
  (run (step demoRuntime) (start demoMonday)
    [.ingestEvent (demoEvent "event-1" .paymentFailed "acct-1" demoNoon)]).store

/-- The payment of that account. -/
def demoPayment : EventContext :=
  { delinquentContext with
    inboundEventId := 1
    inboundEvent := { delinquentContext.inboundEvent with
      externalId := "event-2"
      eventType := .paymentReceived } }

/-- The account's row. -/
def demoDebtor : Account := ⟨"acct-1", 0, .delinquent, 12500, 30⟩

/-- Both paths cancel the two tasks of the account. -/
theorem cancellationPaths_agree_demo :
    SameCancellation demoScheduled demoPayment.accountId
        (cancelScheduledTasks demoScheduled demoPayment)
        (cancelScheduledAccountOutreach demoScheduled demoPayment.accountId demoDebtor "paid" 3) ∧
      cancelScheduledAccountOutreach (cancelScheduledTasks demoScheduled demoPayment).1
          demoPayment.accountId demoDebtor "paid" 3 =
        ((cancelScheduledTasks demoScheduled demoPayment).1, 0) ∧
      cancelScheduledTasks (cancelScheduledAccountOutreach demoScheduled demoPayment.accountId
          demoDebtor "paid" 3).1 demoPayment =
        ((cancelScheduledAccountOutreach demoScheduled demoPayment.accountId demoDebtor "paid"
          3).1, 0) := by
  have hreached : demoScheduled = (run (step demoRuntime) (start demoMonday)
    [.ingestEvent (demoEvent "event-1" .paymentFailed "acct-1" demoNoon)]).store := rfl
  exact cancellationPaths_agree hreached (by decide +kernel) rfl "paid" 3

/-- The `updated_at` column of those tasks, which no statement has updated: their
`created_at`. -/
def demoUpdatedAt (k : Nat) : Int :=
  (demoScheduled.outreachTasks[k]?).elim 0 OutreachTask.createdAt

/-- A minute later both paths write a further column: each stamps the email as updated. -/
theorem cancellation_updates_timestamp :
    touched (demoMonday + minute) demoScheduled.outreachTasks
        (cancelScheduledTasks demoScheduled demoPayment).1.outreachTasks demoUpdatedAt 0 ≠
      demoUpdatedAt 0 ∧
    touched (demoMonday + minute) demoScheduled.outreachTasks
        (cancelScheduledAccountOutreach demoScheduled 0 demoDebtor "paid" 3).1.outreachTasks
        demoUpdatedAt 0 ≠ demoUpdatedAt 0 := by
  decide +kernel

end Orchestrator.System
