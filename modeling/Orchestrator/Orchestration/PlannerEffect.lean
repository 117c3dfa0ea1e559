import Orchestrator.Orchestration.Planner

/-!
# Effect of the planner

What a successful planner call adds to the store. The proposal loop appends decisions,
tasks and audit rows and keeps its counters equal to what it appended; a cancelling
event maps the account's scheduled tasks to cancelled and appends one row for each.
Later modules use these laws and do not unfold the planner.
-/

namespace Orchestrator.Orchestration

open Base Policy

/-! ### The proposal loop -/

/-- The exits of one iteration: blocked, deferred without a task, or scheduled at the
proposed or the deferred time. -/
inductive Exit (ctx : EventContext) (clock : Int) (st : PlanLoop) (p : ProposedOutreach)
    (r : PolicyResult) : PlanLoop → Prop where
  | blocked (hd : r.decision = .block) : Exit ctx clock st p r ((st.record ctx r).block ctx r)
  | withoutTask (hd : r.decision = .defer)
      (hc : .frequencyCapExceeded ∈ r.reasons ∨ r.deferUntil = none) :
      Exit ctx clock st p r ((st.record ctx r).defer ctx r)
  | deferred (hd : r.decision = .defer) (hc : .frequencyCapExceeded ∉ r.reasons)
      (deferUntil : Datetime) (hu : r.deferUntil = some deferUntil) {st' : PlanLoop}
      (hs : ((st.record ctx r).defer ctx r).schedule ctx clock
        st.store.policyDecisions.length r.channel deferUntil = .ok st') :
      Exit ctx clock st p r st'
  | allowed (hd : r.decision = .allow) {st' : PlanLoop}
      (hs : (st.record ctx r).schedule ctx clock st.store.policyDecisions.length r.channel
        p.scheduledAt = .ok st') :
      Exit ctx clock st p r st'

/-- A successful iteration evaluated the policy and took one of the exits. -/
theorem planProposal_exit {rt : Runtime} {ctx : EventContext} {cap : Nat} {clock : Int}
    {st st' : PlanLoop} {p : ProposedOutreach}
    (h : planProposal rt ctx cap clock st p = .ok st') :
    ∃ r, Verdict rt (policyInput ctx cap st.recentCount p) r ∧ Exit ctx clock st p r st' := by
  unfold planProposal at h
  obtain ⟨r, hr, h⟩ := bind_eq_ok.mp h
  refine ⟨r, evaluatePolicy_verdict hr, ?_⟩
  dsimp only at h
  split at h
  · next hd =>
    cases h
    exact .blocked hd
  · next hd => exact .allowed hd h
  · next hd =>
    split at h
    · next hc =>
      cases h
      exact .withoutTask hd (Or.inl hc)
    · next hc =>
      split at h
      · next hu =>
        cases h
        exact .withoutTask hd (Or.inr hu)
      · next deferUntil hu => exact .deferred hd hc deferUntil hu h

/-- A successful schedule exit appended one task with a fresh key. -/
theorem PlanLoop.schedule_ok {st st' : PlanLoop} {ctx : EventContext} {clock : Int}
    {decisionId : Nat} {channel : OutreachChannel} {scheduledAt : Datetime}
    (h : st.schedule ctx clock decisionId channel scheduledAt = .ok st') :
    (∀ t ∈ st.store.outreachTasks, t.idempotencyKey ≠ ⟨ctx.inboundEventId, channel⟩) ∧
      st' = { st with
        store := { st.store with outreachTasks := st.store.outreachTasks ++
            [taskRow ctx channel decisionId scheduledAt.instant clock] }.appendAuditEvent
          (taskScheduledRow ctx channel scheduledAt)
        createdTasks := st.createdTasks + 1
        recentCount := st.recentCount + 1 } := by
  unfold PlanLoop.schedule at h
  obtain ⟨instant, hi, h⟩ := bind_eq_ok.mp h
  obtain rfl := Datetime.timestamptz_eq_some (orThrow_eq_ok.mp hi)
  dsimp only at h
  split at h
  · cases h
  · next hk =>
    cases h
    refine ⟨?_, rfl⟩
    intro t ht he
    exact hk (List.any_eq_true.mpr ⟨t, ht, decide_eq_true he⟩)

/-- A task of the pass, with the decision that it came from. -/
structure PlannedTask (rt : Runtime) (ctx : EventContext) (clock : Int)
    (decisions : List PolicyDecision) (base : Nat) (t : OutreachTask) : Prop where
  row : ∃ channel decisionId scheduledAt, t = taskRow ctx channel decisionId scheduledAt clock ∧
    base ≤ decisionId ∧ ∃ d, decisions[decisionId]? = some d ∧ d.channel = some channel ∧
      d.inboundEventId = some ctx.inboundEventId ∧ d.decision ≠ .block
  notOptedOut : ctx.customer.optedOut = false
  consented : ctx.customer.consent t.channel = true
  accountOpen : ctx.account.status ≠ .paused ∧ ctx.account.status ≠ .resolved
  inWindow : t.channel ≠ .email → ∀ z, rt.zoneInfo ctx.customer.timezone = some z →
    z.RegularOn outreachWindowStart outreachWindowEnd →
    InWindow outreachWindowStart outreachWindowEnd z t.scheduledAt

/-- The audit rows of a planner call that point at no task and at no event. -/
def PlannerRow (ctx : EventContext) (a : AuditEvent) : Prop :=
  a.entityType ≠ .outreachTask ∧ a.entityType ≠ .inboundEvent ∧
    a.payload.inboundEventId = some ctx.inboundEventId

/-- The loop state after some iterations, by what was appended since the start. -/
structure Growth (rt : Runtime) (ctx : EventContext) (cap : Nat) (clock : Int) (s : Store)
    (n : Nat) (st : PlanLoop) (ds : List PolicyDecision) (ts : List OutreachTask)
    (as : List AuditEvent) : Prop where
  store : st.store = { s with
    policyDecisions := s.policyDecisions ++ ds
    outreachTasks := s.outreachTasks ++ ts
    auditEvents := s.auditEvents ++ as }
  decided : st.policyDecisions = ds.length
  blocked : st.blockedAttempts = ds.countP fun d => d.decision = .block
  deferred : st.deferredAttempts = ds.countP fun d => d.decision = .defer
  created : st.createdTasks = ts.length
  recent : st.recentCount = n + ts.length
  capped : ts ≠ [] → n + ts.length ≤ cap
  decisions : ∀ d ∈ ds, d.inboundEventId = some ctx.inboundEventId
  tasks : ∀ t ∈ ts, PlannedTask rt ctx clock (s.policyDecisions ++ ds) s.policyDecisions.length t
  audits : ∀ a ∈ as, PlannerRow ctx a

/-- A planned task stays one when decisions are appended. -/
theorem PlannedTask.append {rt : Runtime} {ctx : EventContext} {clock : Int}
    {decisions : List PolicyDecision} {base : Nat} {t : OutreachTask}
    (h : PlannedTask rt ctx clock decisions base t) (more : List PolicyDecision) :
    PlannedTask rt ctx clock (decisions ++ more) base t := by
  obtain ⟨channel, decisionId, scheduledAt, ht, hb, d, hd, hrest⟩ := h.row
  refine { h with row := ⟨channel, decisionId, scheduledAt, ht, hb, d, ?_, hrest⟩ }
  rw [List.getElem?_append_left (List.getElem?_eq_some_iff.mp hd).1]
  exact hd

section

variable {rt : Runtime} {ctx : EventContext} {cap : Nat} {clock : Int} {s : Store} {n : Nat}
  {st st' : PlanLoop} {ds : List PolicyDecision} {ts : List OutreachTask} {as : List AuditEvent}

/-- Before the first iteration nothing was appended. -/
theorem growth_start : Growth rt ctx cap clock s n { store := s, recentCount := n } [] [] [] where
  store := by simp
  decided := rfl
  blocked := rfl
  deferred := rfl
  created := rfl
  recent := rfl
  capped h := absurd rfl h
  decisions := by simp
  tasks := by simp
  audits := by simp

/-- One iteration appends its decision, at most one task and its audit rows. -/
private theorem Growth.extend (g : Growth rt ctx cap clock s n st ds ts as) (r : PolicyResult)
    (new : List OutreachTask) (rows : List AuditEvent)
    (hstore : st'.store = { st.store with
      policyDecisions := st.store.policyDecisions ++ [decisionRow ctx r]
      outreachTasks := st.store.outreachTasks ++ new
      auditEvents := st.store.auditEvents ++ rows })
    (hdecided : st'.policyDecisions = st.policyDecisions + 1)
    (hblocked : st'.blockedAttempts = st.blockedAttempts + if r.decision = .block then 1 else 0)
    (hdeferred : st'.deferredAttempts = st.deferredAttempts + if r.decision = .defer then 1 else 0)
    (hcreated : st'.createdTasks = st.createdTasks + new.length)
    (hrecent : st'.recentCount = st.recentCount + new.length)
    (hcapped : new ≠ [] → new.length = 1 ∧ st.recentCount < cap)
    (htasks : ∀ t ∈ new, PlannedTask rt ctx clock
      (st.store.policyDecisions ++ [decisionRow ctx r]) s.policyDecisions.length t)
    (hrows : ∀ a ∈ rows, PlannerRow ctx a) :
    Growth rt ctx cap clock s n st' (ds ++ [decisionRow ctx r]) (ts ++ new) (as ++ rows) where
  store := by simp [hstore, g.store, List.append_assoc]
  decided := by simp [hdecided, g.decided]
  blocked := by simp [hblocked, g.blocked, List.countP_append, List.countP_singleton, decisionRow]
  deferred := by
    simp [hdeferred, g.deferred, List.countP_append, List.countP_singleton, decisionRow]
  created := by simp [hcreated, g.created]
  recent := by
    rw [hrecent, g.recent, List.length_append, Nat.add_assoc]
  capped := by
    intro hne
    rw [List.length_append]
    have hr := g.recent
    by_cases hnew : new = []
    · subst hnew
      have hc := g.capped (by simpa using hne)
      simpa using hc
    · obtain ⟨hl, hlt⟩ := hcapped hnew
      omega
  decisions := by
    intro d hd
    rcases List.mem_append.mp hd with hd | hd
    · exact g.decisions d hd
    · rw [List.mem_singleton.mp hd]
      rfl
  tasks := by
    have he : s.policyDecisions ++ (ds ++ [decisionRow ctx r]) =
        st.store.policyDecisions ++ [decisionRow ctx r] := by simp [g.store]
    intro t ht
    rcases List.mem_append.mp ht with ht | ht
    · rw [← List.append_assoc]
      exact (g.tasks t ht).append _
    · rw [he]
      exact htasks t ht
  audits := by
    intro a ha
    rcases List.mem_append.mp ha with ha | ha
    · exact g.audits a ha
    · exact hrows a ha

/-- The task of a schedule exit is planned. -/
private theorem plannedTask_of_verdict {p : ProposedOutreach} {r : PolicyResult}
    {scheduledAt : Datetime} {decisions : List PolicyDecision} {base : Nat}
    (hv : Verdict rt (policyInput ctx cap n p) r) (hb : base ≤ decisions.length)
    (hp : ZoneResolved rt p.scheduledAt) (hd : r.decision ≠ .block)
    (hat : r.decision = .allow ∧ scheduledAt = p.scheduledAt ∨
      r.decision = .defer ∧ r.deferUntil = some scheduledAt) :
    PlannedTask rt ctx clock (decisions ++ [decisionRow ctx r]) base
      (taskRow ctx r.channel decisions.length scheduledAt.instant clock) := by
  have hnil : blockReasons (policyInput ctx cap n p) = [] := by
    cases hv with
    | block hb => exact absurd rfl hd
    | defer _ hb => exact hb
    | allow hb => exact hb
  have hch : r.channel = p.channel := by cases hv <;> rfl
  obtain ⟨hopt, hcons, hpaused, hresolved⟩ := blockReasons_eq_nil hnil
  refine ⟨?_, hopt, ?_, ⟨hpaused, hresolved⟩, ?_⟩
  · exact ⟨r.channel, decisions.length, scheduledAt.instant, rfl, hb, decisionRow ctx r,
      by simp, rfl, rfl, hd⟩
  · rw [taskRow, hch]
    simp only [policyInput] at hcons
    cases hc : p.channel <;> simpa [hc, Customer.consent] using hcons
  · intro hne z hz hreg
    have hne : p.channel ≠ .email := hch ▸ hne
    rcases hat with ⟨ha, rfl⟩ | ⟨ha, hu⟩
    · cases hv with
      | block hb => cases ha
      | defer _ _ _ _ => cases ha
      | allow _ hq _ => exact inWindow_of_quietHours_none hne hz hreg hp hq
    · cases hv with
      | block hb => cases ha
      | allow _ _ _ => cases ha
      | defer quiet _ hq _ =>
        cases hu
        exact inWindow_of_quietHours_some hz hreg hp hq

/-- A decision that may schedule sees the customer below the cap. -/
private theorem below_cap {p : ProposedOutreach} {r : PolicyResult} {m : Nat}
    (hv : Verdict rt (policyInput ctx cap m p) r) (hd : r.decision ≠ .block)
    (hc : .frequencyCapExceeded ∉ r.reasons) : m < cap := by
  cases hv with
  | block hb => exact absurd rfl hd
  | allow _ _ hlt => exact hlt
  | defer quiet _ _ _ =>
    by_contra hle
    have hle : cap ≤ m := Nat.le_of_not_lt hle
    apply hc
    simp [deferReasons, policyInput, hle]

/-- One successful iteration extends the growth by its decision. -/
theorem Growth.step (g : Growth rt ctx cap clock s n st ds ts as) {p : ProposedOutreach}
    (hp : ZoneResolved rt p.scheduledAt)
    (h : planProposal rt ctx cap clock st p = .ok st') :
    ∃ ds' ts' as', Growth rt ctx cap clock s n st' ds' ts' as' := by
  obtain ⟨r, hv, hexit⟩ := planProposal_exit h
  have hbase : s.policyDecisions.length ≤ st.store.policyDecisions.length := by
    simp [g.store]
  cases hexit with
  | blocked hd =>
    refine ⟨_, _, _, g.extend r [] [decisionRecordedRow ctx _ r, blockedRow ctx r]
      (by simp [PlanLoop.record, PlanLoop.block, Store.appendAuditEvent]; rfl)
      rfl ?_ ?_ rfl rfl (by simp) (by simp)
      (by simp [PlannerRow, decisionRecordedRow, blockedRow, plannerAudit])⟩
    · simp [PlanLoop.record, PlanLoop.block, hd]
    · simp [PlanLoop.record, PlanLoop.block, hd]
  | withoutTask hd hc =>
    refine ⟨_, _, _, g.extend r [] [decisionRecordedRow ctx _ r, deferredRow ctx r]
      (by simp [PlanLoop.record, PlanLoop.defer, Store.appendAuditEvent]; rfl)
      rfl ?_ ?_ rfl rfl (by simp) (by simp)
      (by simp [PlannerRow, decisionRecordedRow, deferredRow, plannerAudit])⟩
    · simp [PlanLoop.record, PlanLoop.defer, hd]
    · simp [PlanLoop.record, PlanLoop.defer, hd]
  | deferred hd hc deferUntil hu hs =>
    have hne : r.decision ≠ .block := by simp [hd]
    obtain ⟨-, rfl⟩ := PlanLoop.schedule_ok hs
    refine ⟨_, _, _, g.extend r [taskRow ctx r.channel _ deferUntil.instant clock]
      [decisionRecordedRow ctx _ r, deferredRow ctx r, taskScheduledRow ctx r.channel deferUntil]
      (by simp [PlanLoop.record, PlanLoop.defer, Store.appendAuditEvent]; exact ⟨rfl, rfl⟩)
      rfl ?_ ?_ rfl rfl (fun _ => ⟨rfl, below_cap hv hne hc⟩) ?_
      (by simp [PlannerRow, decisionRecordedRow, deferredRow, taskScheduledRow, plannerAudit])⟩
    · simp [PlanLoop.record, PlanLoop.defer, hd]
    · simp [PlanLoop.record, PlanLoop.defer, hd]
    · intro t ht
      rw [List.mem_singleton.mp ht]
      exact plannedTask_of_verdict hv hbase hp hne (Or.inr ⟨hd, hu⟩)
  | allowed hd hs =>
    have hne : r.decision ≠ .block := by simp [hd]
    have hc : .frequencyCapExceeded ∉ r.reasons := by
      cases hv with
      | block hb => cases hd
      | defer _ _ _ _ => cases hd
      | allow _ _ _ => simp
    obtain ⟨-, rfl⟩ := PlanLoop.schedule_ok hs
    refine ⟨_, _, _, g.extend r [taskRow ctx r.channel _ p.scheduledAt.instant clock]
      [decisionRecordedRow ctx _ r, taskScheduledRow ctx r.channel p.scheduledAt]
      (by simp [PlanLoop.record, Store.appendAuditEvent]; exact ⟨rfl, rfl⟩)
      rfl ?_ ?_ rfl rfl (fun _ => ⟨rfl, below_cap hv hne hc⟩) ?_
      (by simp [PlannerRow, decisionRecordedRow, taskScheduledRow, plannerAudit])⟩
    · simp [PlanLoop.record, hd]
    · simp [PlanLoop.record, hd]
    · intro t ht
      rw [List.mem_singleton.mp ht]
      exact plannedTask_of_verdict hv hbase hp hne (Or.inl ⟨hd, rfl⟩)

end

/-! ### Policy events -/

/-- Every proposal is written in the caller's offset or in the customer's own zone. -/
theorem zoneResolved_proposal {rt : Runtime} {eventType : EventType} {now : Datetime}
    {key : String} {proposals : List ProposedOutreach} (hnow : ZoneResolved rt now)
    (h : proposalsForEvent rt eventType now key = .ok proposals) :
    ∀ p ∈ proposals, ZoneResolved rt p.scheduledAt := by
  have hadd {δ : Int} {d : Datetime} (hd : orThrow Failure.overflow (now.add δ) = .ok d) :
      ZoneResolved rt d := by
    have htz := (Datetime.ofWall_eq_some (orThrow_eq_ok.mp hd)).2.2
    intro k z hz
    exact hnow k z (htz ▸ hz)
  have hcall {d : Datetime} (hd : nextBusinessDayAt10 rt now key = .ok d) :
      ZoneResolved rt d := by
    obtain ⟨zone, hzone, hd⟩ := bind_eq_ok.mp hd
    obtain ⟨l, -, hd⟩ := bind_eq_ok.mp hd
    have htz := (Datetime.ofWall_eq_some (orThrow_eq_ok.mp hd)).2.2
    intro k z hz
    cases htz.symm.trans hz
    exact orThrow_eq_ok.mp hzone
  unfold proposalsForEvent at h
  split at h
  · obtain ⟨sms, hsms, h⟩ := bind_eq_ok.mp h
    obtain ⟨call, hc, h⟩ := bind_eq_ok.mp h
    cases h
    simp only [List.mem_cons, List.not_mem_nil, or_false, forall_eq_or_imp, forall_eq]
    exact ⟨hnow, hadd hsms, hcall hc⟩
  · obtain ⟨sms, hsms, h⟩ := bind_eq_ok.mp h
    cases h
    simp only [List.mem_cons, List.not_mem_nil, or_false, forall_eq_or_imp, forall_eq]
    exact ⟨hnow, hadd hsms⟩
  · cases h

/-- A planning pass over a fresh event ends with the store and the counters of a grown
loop state. -/
theorem planPolicyEvent_growth {rt : Runtime} {s s' : Store} {ctx : EventContext}
    {now : Datetime} {cap : Nat} {clock : Int} {r : PlannerResult}
    (hfresh : ∀ d ∈ s.policyDecisions, d.inboundEventId ≠ some ctx.inboundEventId)
    (hnow : ZoneResolved rt now)
    (h : planPolicyEvent rt s ctx now cap clock = .ok (s', r)) :
    ∃ n st ds ts as, recentAttemptCount s ctx.customerId now = .ok n ∧
      Growth rt ctx cap clock s n st ds ts as ∧ s' = st.store ∧
      r = { inboundEventId := ctx.inboundEventId
            createdTasks := st.createdTasks
            policyDecisions := st.policyDecisions
            blockedAttempts := st.blockedAttempts
            deferredAttempts := st.deferredAttempts } := by
  unfold planPolicyEvent at h
  split at h
  · next hany =>
    obtain ⟨d, hd, he⟩ := List.any_eq_true.mp hany
    exact absurd (of_decide_eq_true he) (hfresh d hd)
  · obtain ⟨n, hn, h⟩ := bind_eq_ok.mp h
    obtain ⟨proposals, hp, h⟩ := bind_eq_ok.mp h
    obtain ⟨st, hst, h⟩ := bind_eq_ok.mp h
    cases h
    have hz := zoneResolved_proposal hnow hp
    obtain ⟨ds, ts, as, hg⟩ := foldlM_invariant
      (P := fun st => ∃ ds ts as, Growth rt ctx cap clock s n st ds ts as) proposals
      (fun _ p _ hmem ⟨_, _, _, hg⟩ hstep => hg.step (hz p hmem) hstep)
      ⟨[], [], [], growth_start⟩ hst
    exact ⟨n, st, ds, ts, as, hn, hg, rfl, rfl⟩

/-! ### Cancelling events -/

private theorem foldl_cancelTask (ctx : EventContext) (tasks : List (OutreachTask × Nat))
    (s : Store) :
    tasks.foldl (cancelTask ctx) s = { s with
      outreachTasks := Table.updateEach s.outreachTasks (tasks.map Prod.snd) OutreachTask.cancel
      auditEvents := s.auditEvents ++ tasks.map (cancelledRow ctx) } := by
  induction tasks generalizing s with
  | nil => simp [Table.updateEach]
  | cons t tasks ih =>
    rw [List.foldl_cons, ih]
    simp [cancelTask, Store.appendAuditEvent, Table.updateEach]

/-- The cancellation loop cancels every matching task at once and appends one row for
each, and its count is the number of both. -/
theorem cancelScheduledTasks_eq (s : Store) (ctx : EventContext) :
    cancelScheduledTasks s ctx = ({ s with
      outreachTasks := s.outreachTasks.map (OutreachTask.cancelWhere (cancellable ctx))
      auditEvents := s.auditEvents ++
        (Table.select (cancellable ctx) s.outreachTasks).map (cancelledRow ctx) },
      s.outreachTasks.countP (cancellable ctx)) := by
  rw [cancelScheduledTasks]
  simp only [foldl_cancelTask, Table.updateEach_select, Table.length_select]
  rfl

/-- An event cancels scheduled tasks only. -/
theorem cancellable_scheduled {ctx : EventContext} {t : OutreachTask}
    (h : cancellable ctx t = true) : t.status = .scheduled := by
  simp only [cancellable, Bool.and_eq_true, decide_eq_true_eq] at h
  exact h.2

/-- The four cancelling events with their markers and own records. -/
inductive CancellingEvent (ctx : EventContext) : AuditEventType → (Store → Store) → Prop where
  | paymentReceived (h : ctx.inboundEvent.eventType = .paymentReceived) :
      CancellingEvent ctx .plannerPaymentReceivedProcessed id
  | optOutReceived (h : ctx.inboundEvent.eventType = .optOutReceived) :
      CancellingEvent ctx .plannerOptOutProcessed (recordOptOut ctx)
  | hardshipRequested (h : ctx.inboundEvent.eventType = .hardshipRequested) :
      CancellingEvent ctx .plannerHardshipProcessed (recordHardship ctx)
  | accountPaused (h : ctx.inboundEvent.eventType = .accountPaused) :
      CancellingEvent ctx .plannerAccountPausedProcessed (recordPause ctx)

/-- A successful planner call planned a policy event or handled a cancelling one. -/
theorem planEvent_cases {rt : Runtime} {s s' : Store} {ctx : EventContext} {now : Datetime}
    {cap : Nat} {clock : Int} {r : PlannerResult}
    (h : planEvent rt s ctx now cap clock = .ok (s', r)) :
    ((ctx.inboundEvent.eventType = .accountDelinquent ∨
        ctx.inboundEvent.eventType = .paymentFailed) ∧
      planPolicyEvent rt s ctx now cap clock = .ok (s', r)) ∨
    ∃ marker record, CancellingEvent ctx marker record ∧
      handleOnce s ctx marker record = (s', r) := by
  unfold planEvent at h
  split at h
  · next he => exact Or.inl ⟨Or.inl he, h⟩
  · next he => exact Or.inl ⟨Or.inr he, h⟩
  · next he => exact Or.inr ⟨_, _, .paymentReceived he, Except.ok.inj h⟩
  · next he => exact Or.inr ⟨_, _, .optOutReceived he, Except.ok.inj h⟩
  · next he => exact Or.inr ⟨_, _, .hardshipRequested he, Except.ok.inj h⟩
  · next he => exact Or.inr ⟨_, _, .accountPaused he, Except.ok.inj h⟩
  · cases h

/-- What the record of a cancelling event appends to the audit log. -/
def recordRows (ctx : EventContext) : List AuditEvent :=
  match ctx.inboundEvent.eventType with
  | .optOutReceived => [plannerAudit ctx .customerOptedOut .customer ctx.customerId
      { customerExternalId := some ctx.customer.externalId }]
  | .hardshipRequested => [plannerAudit ctx .hardshipEscalationRequired .account ctx.accountId
      { accountExternalId := some ctx.account.externalId }]
  | .accountPaused => [plannerAudit ctx .accountPaused .account ctx.accountId
      { accountExternalId := some ctx.account.externalId }]
  | _ => []

/-- Customers after the record of a cancelling event. -/
def recordCustomers (ctx : EventContext) (customers : List Customer) : List Customer :=
  match ctx.inboundEvent.eventType with
  | .optOutReceived => customers.modify ctx.customerId (fun c => { c with optedOut := true })
  | _ => customers

/-- Accounts after the record of a cancelling event. -/
def recordAccounts (ctx : EventContext) (accounts : List Account) : List Account :=
  match ctx.inboundEvent.eventType with
  | .accountPaused => accounts.modify ctx.accountId (fun a => { a with status := .paused })
  | _ => accounts

/-- A record keeps every customer's external id. -/
theorem recordCustomers_externalId (ctx : EventContext) (customers : List Customer) :
    (recordCustomers ctx customers).map Customer.externalId =
      customers.map Customer.externalId := by
  unfold recordCustomers
  split
  · apply Table.map_modify
    exact fun _ => rfl
  · rfl

/-- A record keeps every column of the accounts that a pause does not set. -/
theorem recordAccounts_column {α : Type} {f : Account → α}
    (hf : ∀ a : Account, f { a with status := .paused } = f a) (ctx : EventContext)
    (accounts : List Account) : (recordAccounts ctx accounts).map f = accounts.map f := by
  unfold recordAccounts
  split
  · apply Table.map_modify
    exact hf
  · rfl

/-- A record keeps every account's external id. -/
theorem recordAccounts_externalId (ctx : EventContext) (accounts : List Account) :
    (recordAccounts ctx accounts).map Account.externalId = accounts.map Account.externalId :=
  recordAccounts_column (fun _ => rfl) ctx accounts

/-- A record changes no consent of a customer. -/
theorem recordCustomers_origin (ctx : EventContext) {customers : List Customer} {i : Nat}
    {c' : Customer} (h : (recordCustomers ctx customers)[i]? = some c') :
    ∃ c, customers[i]? = some c ∧ c'.externalId = c.externalId ∧ c'.consent = c.consent := by
  unfold recordCustomers at h
  split at h
  · rw [List.getElem?_modify, Option.map_eq_map, Option.map_eq_some_iff] at h
    obtain ⟨c, hc, rfl⟩ := h
    refine ⟨c, hc, ?_⟩
    split
    · exact ⟨rfl, funext fun channel => by cases channel <;> rfl⟩
    · exact ⟨rfl, rfl⟩
  · exact ⟨c', h, rfl, rfl⟩

/-- A pause sets the status of its account. -/
theorem recordAccounts_stored (ctx : EventContext) {accounts : List Account}
    (h : accounts[ctx.accountId]? = some ctx.account) :
    (recordAccounts ctx accounts)[ctx.accountId]? = some { ctx.account with
      status := if ctx.inboundEvent.eventType = .accountPaused then .paused
        else ctx.account.status } := by
  unfold recordAccounts
  split
  · next he => simp [he, h]
  · next he => rw [if_neg he, h]

/-- A pause leaves every other account. -/
theorem recordAccounts_frame (ctx : EventContext) (accounts : List Account) {i : Nat}
    (hi : i ≠ ctx.accountId) : (recordAccounts ctx accounts)[i]? = accounts[i]? := by
  unfold recordAccounts
  split
  · simp [hi.symm]
  · rfl

/-- The store that a cancelling event leaves, as a whole. -/
def cancelledStore (s : Store) (ctx : EventContext) (marker : AuditEventType) : Store :=
  { s with
    customers := recordCustomers ctx s.customers
    accounts := recordAccounts ctx s.accounts
    outreachTasks := s.outreachTasks.map (OutreachTask.cancelWhere (cancellable ctx))
    auditEvents := s.auditEvents ++ (recordRows ctx ++
      ((Table.select (cancellable ctx) s.outreachTasks).map (cancelledRow ctx) ++
        [processedMarker ctx marker])) }

/-- A cancelling event without its marker leaves exactly that store and counts the
tasks that it cancelled. -/
theorem handleOnce_fresh {s : Store} {ctx : EventContext} {marker : AuditEventType}
    {record : Store → Store} (hc : CancellingEvent ctx marker record)
    (hm : hasProcessedMarker s ctx.inboundEventId marker = false) :
    handleOnce s ctx marker record = (cancelledStore s ctx marker,
      { inboundEventId := ctx.inboundEventId
        cancelledTasks := s.outreachTasks.countP (cancellable ctx) }) := by
  rw [handleOnce, hm]
  cases hc <;> next h =>
    simp [cancelScheduledTasks_eq, cancelledStore, recordRows, recordCustomers, recordAccounts,
      recordOptOut, recordHardship, recordPause, Store.appendAuditEvent, h]

/-- The audit rows of a record point at a customer or an account. -/
theorem recordRows_spec (ctx : EventContext) : ∀ a ∈ recordRows ctx, PlannerRow ctx a := by
  unfold recordRows
  split <;> simp [plannerAudit, PlannerRow]

/-! ### The rows that a call loads -/

/-- The planner loads a stored customer and one of that customer's accounts. -/
theorem loadCustomerAndAccount_eq_ok {s : Store} {e : InboundEvent} {cid aid : Nat}
    {c : Customer} {a : Account} :
    loadCustomerAndAccount s e = .ok ((cid, c), (aid, a)) ↔
      s.customerByExternalId e.customerExternalId = some cid ∧ s.customers[cid]? = some c ∧
      s.accountByExternalId e.accountExternalId = some aid ∧ s.accounts[aid]? = some a ∧
      a.customerId = cid := by
  unfold loadCustomerAndAccount
  constructor
  · intro h
    obtain ⟨cid', hcid, h⟩ := bind_eq_ok.mp h
    obtain ⟨c', hc, h⟩ := bind_eq_ok.mp h
    obtain ⟨aid', haid, h⟩ := bind_eq_ok.mp h
    obtain ⟨a', ha, h⟩ := bind_eq_ok.mp h
    split at h
    · next hown =>
      cases h
      exact ⟨orThrow_eq_ok.mp hcid, orThrow_eq_ok.mp hc, orThrow_eq_ok.mp haid,
        orThrow_eq_ok.mp ha, hown⟩
    · cases h
  · rintro ⟨hcid, hc, haid, ha, hown⟩
    simp only [hcid, hc, haid, ha, orThrow, bind, Except.bind, if_pos hown]

/-- A planner call by the rows that it loads. -/
theorem planOutreachForEvent_ok {rt : Runtime} {s : Store} {eventId correlationId : Nat}
    {now : Datetime} {cap : Nat} {clock : Int} {x : Store × PlannerResult}
    (h : planOutreachForEvent rt s eventId correlationId now cap clock = .ok x) :
    ∃ e c a, s.inboundEvents[eventId]? = some e ∧ loadCustomerAndAccount s e = .ok (c, a) ∧
      planEvent rt s ⟨eventId, e, c.1, c.2, a.1, a.2, correlationId⟩ now cap clock = .ok x := by
  obtain ⟨e, he, h⟩ := bind_eq_ok.mp h
  obtain ⟨⟨c, a⟩, hload, h⟩ := bind_eq_ok.mp h
  exact ⟨e, c, a, orThrow_eq_ok.mp he, hload, h⟩

end Orchestrator.Orchestration
