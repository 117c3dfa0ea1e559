import Orchestrator.System.Lineage

/-!
# The rolling frequency cap

The planner counts a customer's recent tasks from `occurred_at - 24 h`, while tasks carry
the database clock. As long as no ingestion overlooks a task of the last 24 hours of the
database clock, no customer has more counted tasks than the cap in any such window.
-/

namespace Orchestrator.System

open Base Domain Orchestration Workers

/-- The tasks of a customer that count and were created in the 24 hours from `a`. -/
def countedIn (customerId : Nat) (a : Int) (t : OutreachTask) : Bool :=
  t.customerId = customerId && recentAttemptStatus t.status && a ≤ t.createdAt &&
    t.createdAt ≤ a + day

/-- A first ingestion of a policy event overlooks no task of its customer that the last 24
hours of the database clock count. -/
def CountsAll (s : Sys) : Op → Prop
  | .ingestEvent sub =>
    s.store.findExistingEvent sub.source sub.externalId = none →
    sub.eventType = .accountDelinquent ∨ sub.eventType = .paymentFailed →
    ∀ t ∈ s.store.outreachTasks,
      s.store.customerByExternalId sub.customer.externalId = some t.customerId →
      recentAttemptStatus t.status = true → s.clock - day ≤ t.createdAt →
      sub.occurredAt.toDatetime.instant - day ≤ t.createdAt
  | _ => True

/-- Every window holds at most the cap, and no task was created after the clock. -/
structure Capped (clock : Int) (tasks : List OutreachTask) : Prop where
  created : ∀ t ∈ tasks, t.createdAt ≤ clock
  windows : ∀ customerId a, tasks.countP (countedIn customerId a) ≤ defaultFrequencyCap

/-- Writes only bring a task out of the counted statuses. -/
theorem RowWrite.counted {taskId : Nat} {t t' : OutreachTask} {row : AuditEvent}
    (h : RowWrite taskId t t' row) (hc : recentAttemptStatus t'.status = true) :
    recentAttemptStatus t.status = true := by
  cases h with
  | claim now workerId hdue =>
    rw [scheduled_of_due hdue]
    rfl
  | success _ _ _ hd => rw [hd]; rfl
  | failure _ _ _ hd => rw [hd]; rfl
  | manual _ hallowed =>
    revert hallowed
    cases t.status <;> simp [allowedManualDeliverySourceStatus, recentAttemptStatus]
  | cancel => cases hc

private theorem countedIn_write {taskId : Nat} {t t' : OutreachTask} {row : AuditEvent}
    (h : RowWrite taskId t t' row) {customerId : Nat} {a : Int}
    (hc : countedIn customerId a t' = true) : countedIn customerId a t = true := by
  have hcustomer : t'.customerId = t.customerId := congrArg (fun x => x.customerId) h.planned
  have hcreated : t'.createdAt = t.createdAt := congrArg (fun x => x.createdAt) h.planned
  simp only [countedIn, Bool.and_eq_true, decide_eq_true_eq, hcustomer, hcreated] at hc ⊢
  exact ⟨⟨⟨hc.1.1.1, h.counted hc.1.1.2⟩, hc.1.2⟩, hc.2⟩

private theorem countP_cancelWhere_le (p : OutreachTask → Bool) (customerId : Nat) (a : Int)
    (tasks : List OutreachTask) :
    (tasks.map (OutreachTask.cancelWhere p)).countP (countedIn customerId a) ≤
      tasks.countP (countedIn customerId a) := by
  rw [List.countP_map]
  apply List.countP_mono_left
  intro t _ hc
  simp only [Function.comp, OutreachTask.cancelWhere] at hc
  split at hc
  · simp [countedIn, OutreachTask.cancel, recentAttemptStatus] at hc
  · exact hc

private theorem countP_set_le {tasks : List OutreachTask} {k : Nat} {t t' : OutreachTask}
    {q : OutreachTask → Bool} (ht : tasks[k]? = some t) (hq : q t' = true → q t = true) :
    (tasks.set k t').countP q ≤ tasks.countP q := by
  obtain ⟨hk, rfl⟩ := List.getElem?_eq_some_iff.mp ht
  rw [List.countP_set hk]
  by_cases hnew : q t' = true
  · have hpos : 0 < tasks.countP q :=
      List.countP_pos_iff.mpr ⟨_, List.getElem_mem hk, hq hnew⟩
    rw [if_pos hnew, if_pos (hq hnew)]
    omega
  · rw [if_neg hnew]
    omega

/-- The recent count of an event that is written with a fixed offset. -/
theorem recentAttemptCount_ok {s : Store} {customerId n : Nat} {at' : OffsetDatetime}
    (h : recentAttemptCount s customerId at'.toDatetime = .ok n) :
    n = s.outreachTasks.countP fun t => t.customerId = customerId &&
      recentAttemptStatus t.status && at'.toDatetime.instant - day ≤ t.createdAt := by
  obtain ⟨since, hsince, h⟩ := bind_eq_ok.mp h
  obtain ⟨u, hu, h⟩ := bind_eq_ok.mp h
  obtain ⟨hw, -, htz⟩ := Datetime.ofWall_eq_some (orThrow_eq_ok.mp hsince)
  have hinstant : u = at'.toDatetime.instant - day := by
    rw [Datetime.timestamptz_eq_some (orThrow_eq_ok.mp hu)]
    simp only [Datetime.instant, Datetime.utcoffset, htz, hw, OffsetDatetime.toDatetime,
      TzInfo.utcoffset, day]
    omega
  cases h
  rw [hinstant]

/-- A row write keeps every window at the cap. -/
theorem Capped.write {clock : Int} {tasks : List OutreachTask} (h : Capped clock tasks) {k : Nat}
    {t t' : OutreachTask} {a : AuditEvent} (ht : tasks[k]? = some t) (hw : RowWrite k t t' a) :
    Capped clock (tasks.set k t') := by
  constructor
  · intro u hu
    rcases List.mem_or_eq_of_mem_set hu with hu | rfl
    · exact h.created u hu
    · have hcreated : u.createdAt = t.createdAt := congrArg (fun x => x.createdAt) hw.planned
      rw [hcreated]
      exact h.created t (List.mem_of_getElem? ht)
  · intro customerId a
    exact (countP_set_le ht (countedIn_write hw)).trans (h.windows customerId a)

/-- A cancellation keeps every window at the cap. -/
theorem Capped.cancel {clock : Int} {tasks : List OutreachTask} (h : Capped clock tasks)
    (p : OutreachTask → Bool) : Capped clock (tasks.map (OutreachTask.cancelWhere p)) := by
  constructor
  · intro t ht
    obtain ⟨u, hu, rfl⟩ := List.mem_map.mp ht
    have hsame : (OutreachTask.cancelWhere p u).createdAt = u.createdAt := by
      unfold OutreachTask.cancelWhere
      split <;> rfl
    rw [hsame]
    exact h.created u hu
  · intro customerId a
    exact (countP_cancelWhere_le p customerId a tasks).trans (h.windows customerId a)

/-- An ingestion that overlooks nothing keeps every window at the cap. -/
theorem Capped.ingested {rt : Runtime} {s : Sys} {s' : Store} {sub : EventSubmission}
    {r : EventIngestionResult} (ho : Owned s.store) (hc : Capped s.clock s.store.outreachTasks)
    (hcounts : CountsAll s (.ingestEvent sub)) (h : Ingested rt s.store sub s.clock s' r) :
    Capped s.clock s'.outreachTasks := by
  cases h with
  | replayed => exact hc
  | cancelled => exact hc.cancel _
  | @planned ctx customers accounts n st ds ts as fresh policyEvent counted growth =>
    have hnew : ∀ t ∈ ts, t.createdAt = s.clock ∧ t.customerId = ctx.customerId := by
      intro t ht
      obtain ⟨channel, d, at', rfl, -⟩ := (growth.tasks t ht).row
      exact ⟨rfl, rfl⟩
    constructor
    · intro t ht
      rcases List.mem_append.mp ht with ht | ht
      · exact hc.created t ht
      · exact (hnew t ht).1.le
    · intro customerId a
      rw [List.countP_append]
      by_cases hin : ∃ t ∈ ts, countedIn customerId a t = true
      · -- the window ends now or later, so the planner has counted what it holds
        obtain ⟨t, ht, htin⟩ := hin
        obtain ⟨hat, hcustomer⟩ := hnew t ht
        simp only [countedIn, Bool.and_eq_true, decide_eq_true_eq, hat, hcustomer] at htin
        have hold : s.store.outreachTasks.countP (countedIn customerId a) ≤ n := by
          rw [recentAttemptCount_ok counted]
          apply List.countP_mono_left
          intro u hu huin
          simp only [countedIn, Bool.and_eq_true, decide_eq_true_eq] at huin ⊢
          have hcust : u.customerId = ctx.customerId := by rw [huin.1.1.1, htin.1.1.1]
          obtain ⟨⟨c, hrow⟩, -⟩ := ho u hu
          rw [hcust] at hrow
          have hfound := fresh.customer.found_before hrow
          rw [← hcust] at hfound
          exact ⟨⟨hcust, huin.1.1.2⟩,
            hcounts fresh.unseen policyEvent u hu hfound huin.1.1.2 (by omega)⟩
        have hcap := growth.capped (List.ne_nil_of_mem ht)
        have hts := List.countP_le_length (p := countedIn customerId a) (l := ts)
        omega
      · have hzero : ts.countP (countedIn customerId a) = 0 := by
          rw [List.countP_eq_zero]
          exact fun t ht htin => hin ⟨t, ht, htin⟩
        rw [hzero, Nat.add_zero]
        exact hc.windows customerId a

/-- Every step that overlooks nothing keeps every window at the cap. -/
theorem step_capped (rt : Runtime) (s : Sys) (op : Op) (hs : WellFormed s.store)
    (ho : Owned s.store) (hc : Capped s.clock s.store.outreachTasks) (hg : CountsAll s op) :
    Capped (step rt s op).clock (step rt s op).store.outreachTasks := by
  have hstep := step_spec rt s op
  generalize step rt s op = s' at hstep ⊢
  cases hstep with
  | idle store clock _ =>
    rw [store]
    exact ⟨fun t ht => (hc.created t ht).trans clock, hc.windows⟩
  | @claimed _ _ config _ _ pass row hdue => exact hc.write row (.claim _ config.workerId hdue)
  | settled _ row hd hw => exact hc.write row (hw.rowWrite hd)
  | ingested h =>
    have hkept := Capped.ingested ho hc hg (ingestEventSnapshot_ingested hs h)
    exact hkept
  | recorded row hallowed => exact hc.write row (.manual _ hallowed)
  | operatorCancelled _ row =>
    simp only [store_commit, clock_commit, cancelScheduledAccountOutreach_eq]
    exact hc.cancel _

/-- In every run whose ingestions overlook no task of the last 24 hours, every 24-hour
window of the database clock holds at most three counted tasks of a customer. -/
theorem frequency_cap_of_counted (rt : Runtime) (clock : Int) (ops : List Op)
    (hg : Guarded (step rt) CountsAll (start clock) ops) (customerId : Nat) (a : Int) :
    (run (step rt) (start clock) ops).store.outreachTasks.countP (countedIn customerId a) ≤ 3 := by
  have hrun := guarded_invariant (I := fun s : Sys => WellFormed s.store ∧ Owned s.store ∧
    Capped s.clock s.store.outreachTasks)
    (?_ : ∀ s op, _ → _ → _ ∧ Owned (step rt s op).store ∧ _) (start clock)
    ⟨wellFormed_empty, by simp [Owned, start, Store.empty],
      by constructor <;> simp [start, Store.empty]⟩ ops hg
  · exact hrun.2.2.windows customerId a
  · rintro s op ⟨hs, ho, hc⟩ hg
    refine ⟨step_wellFormed rt s op hs, ?_, step_capped rt s op hs ho hc hg⟩
    rcases (step_spec rt s op).commit hs with h | h
    · rwa [h]
    · exact h.owned hs ho

/-- An ingestion whose `occurred_at` is not in the future overlooks nothing. -/
theorem countsAll_of_past {s : Sys} {sub : EventSubmission}
    (h : sub.occurredAt.toDatetime.instant ≤ s.clock) : CountsAll s (.ingestEvent sub) := by
  intro _ _ t _ _ _ hin
  omega

/-- Two delinquencies of a customer, neither dated ahead of the clock. -/
theorem frequency_cap_of_counted_demo :
    (run (step demoRuntime) (start (demoMonday + 12 * hour))
      [.ingestEvent (demoEvent "event-1" .accountDelinquent "acct-1" demoNoon),
        .ingestEvent (demoEvent "event-2" .accountDelinquent "acct-2"
          demoNoon)]).store.outreachTasks.countP (countedIn 0 demoMonday) ≤ 3 := by
  apply frequency_cap_of_counted
  refine ⟨countsAll_of_past ?_, countsAll_of_past ?_, trivial⟩
  · decide
  · decide +kernel

/-- A payment failure dated two days ahead overlooks the three tasks of the delinquency
that was ingested just before. -/
theorem frequency_cap_exceeded :
    ¬ ∀ (rt : Runtime) (clock : Int) (ops : List Op) (customerId : Nat) (a : Int),
      (run (step rt) (start clock) ops).store.outreachTasks.countP
        (countedIn customerId a) ≤ 3 := by
  intro h
  have hfive := h demoRuntime (demoMonday + 12 * hour)
    [.ingestEvent (demoEvent "event-1" .accountDelinquent "acct-1" demoNoon),
      .ingestEvent (demoEvent "event-2" .paymentFailed "acct-1"
        (demoAt (demoMonday + 60 * hour) (by decide)))] 0 demoMonday
  exact absurd hfive (by decide +kernel)

end Orchestrator.System
