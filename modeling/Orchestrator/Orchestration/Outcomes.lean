import Orchestrator.Orchestration.PlannerEffect

/-!
# Outcomes of a planning pass

What the proposal loop decides, apart from where it stores it. Decisions depend on the
policy inputs alone and the rows of a pass are read off its decisions, so planning a
fresh event is computing its outcomes and then one write, errors included.
-/

namespace Orchestrator.Orchestration

open Base Policy

/-- What one proposal comes to: the policy's result and the time of its task, if any. -/
structure Outcome where
  result : PolicyResult
  scheduledAt : Option Datetime

/-- The time at which an evaluated proposal is scheduled,
`src/orchestrator/orchestration/planner.py:256–311`. -/
def scheduledTime (p : ProposedOutreach) (r : PolicyResult) : Option Datetime :=
  match r.decision with
  | .block => none
  | .allow => some p.scheduledAt
  | .defer => if .frequencyCapExceeded ∈ r.reasons then none else r.deferUntil

/-- The outcome of a policy result. A task time outside the `timestamptz` range raises. -/
def Outcome.ofResult (p : ProposedOutreach) (r : PolicyResult) : Except Failure Outcome :=
  match scheduledTime p r with
  | none => .ok ⟨r, none⟩
  | some time => (orThrow .overflow time.timestamptz).map fun _ => ⟨r, some time⟩

/-- Evaluate one proposal. -/
def decideProposal (rt : Runtime) (i : PolicyInput) (p : ProposedOutreach) :
    Except Failure Outcome := do
  let r ← evaluatePolicy rt i
  Outcome.ofResult p r

/-- Tasks of one outcome. -/
def Outcome.count (o : Outcome) : Nat := if o.scheduledAt.isSome then 1 else 0

/-- Evaluate the proposals in order; every task that is scheduled counts for the next. -/
def decideAll (rt : Runtime) (input : Nat → ProposedOutreach → PolicyInput) :
    Nat → List ProposedOutreach → Except Failure (List Outcome)
  | _, [] => .ok []
  | n, p :: ps => do
    let o ← decideProposal rt (input n p) p
    let os ← decideAll rt input (n + o.count) ps
    .ok (o :: os)

/-- The task row of an outcome, under its decision's key. -/
def Outcome.task (ctx : EventContext) (clock : Int) (x : Outcome × Nat) : Option OutreachTask :=
  x.1.scheduledAt.map fun time => taskRow ctx x.1.result.channel x.2 time.instant clock

/-- The audit row of the exit that a decision takes. -/
def exitRows (ctx : EventContext) (r : PolicyResult) : List AuditEvent :=
  match r.decision with
  | .block => [blockedRow ctx r]
  | .defer => [deferredRow ctx r]
  | .allow => []

/-- The audit rows of an outcome, under its decision's key. -/
def Outcome.rows (ctx : EventContext) (x : Outcome × Nat) : List AuditEvent :=
  decisionRecordedRow ctx x.2 x.1.result :: (exitRows ctx x.1.result ++
    (x.1.scheduledAt.map (taskScheduledRow ctx x.1.result.channel)).toList)

/-- The decisions of a pass. -/
def plannedDecisions (ctx : EventContext) (os : List Outcome) : List PolicyDecision :=
  os.map fun o => decisionRow ctx o.result

/-- The tasks of a pass whose first decision has the key `base`. -/
def plannedTasks (ctx : EventContext) (clock : Int) (base : Nat) (os : List Outcome) :
    List OutreachTask := (os.zipIdx base).filterMap (Outcome.task ctx clock)

/-- The audit rows of a pass whose first decision has the key `base`. -/
def plannedRows (ctx : EventContext) (base : Nat) (os : List Outcome) : List AuditEvent :=
  (os.zipIdx base).flatMap (Outcome.rows ctx)

/-- The store that a pass with these outcomes leaves. -/
def plannedStore (ctx : EventContext) (clock : Int) (s : Store) (os : List Outcome) : Store :=
  { s with
    policyDecisions := s.policyDecisions ++ plannedDecisions ctx os
    outreachTasks := s.outreachTasks ++ plannedTasks ctx clock s.policyDecisions.length os
    auditEvents := s.auditEvents ++ plannedRows ctx s.policyDecisions.length os }

/-- The result of a pass with these outcomes. -/
def plannedResult (eventId : Nat) (os : List Outcome) : PlannerResult where
  inboundEventId := eventId
  createdTasks := os.countP fun o => o.scheduledAt.isSome
  policyDecisions := os.length
  blockedAttempts := os.countP fun o => o.result.decision = .block
  deferredAttempts := os.countP fun o => o.result.decision = .defer

/-- The loop state after some outcomes. -/
def PlanLoop.apply (ctx : EventContext) (clock : Int) (st : PlanLoop) (os : List Outcome) :
    PlanLoop where
  store := plannedStore ctx clock st.store os
  recentCount := st.recentCount + os.countP fun o => o.scheduledAt.isSome
  createdTasks := st.createdTasks + os.countP fun o => o.scheduledAt.isSome
  policyDecisions := st.policyDecisions + os.length
  blockedAttempts := st.blockedAttempts + os.countP fun o => o.result.decision = .block
  deferredAttempts := st.deferredAttempts + os.countP fun o => o.result.decision = .defer

section

variable {rt : Runtime} {ctx : EventContext} {clock : Int}

@[simp] theorem plannedDecisions_append (os os' : List Outcome) :
    plannedDecisions ctx (os ++ os') = plannedDecisions ctx os ++ plannedDecisions ctx os' :=
  List.map_append

@[simp] theorem length_plannedDecisions (os : List Outcome) :
    (plannedDecisions ctx os).length = os.length := List.length_map _

@[simp] theorem plannedTasks_nil (base : Nat) : plannedTasks ctx clock base [] = [] := rfl

/-- The tasks of a pass, its first outcome first. -/
theorem plannedTasks_cons (base : Nat) (o : Outcome) (os : List Outcome) :
    plannedTasks ctx clock base (o :: os) =
      (Outcome.task ctx clock (o, base)).toList ++ plannedTasks ctx clock (base + 1) os := by
  rw [plannedTasks, List.zipIdx_cons, List.filterMap_cons]
  cases Outcome.task ctx clock (o, base) <;> rfl

/-- Later outcomes take later keys. -/
theorem plannedTasks_append (base : Nat) (os os' : List Outcome) :
    plannedTasks ctx clock base (os ++ os') =
      plannedTasks ctx clock base os ++ plannedTasks ctx clock (base + os.length) os' := by
  rw [plannedTasks, List.zipIdx_append, List.filterMap_append]
  rfl

@[simp] theorem plannedRows_nil (base : Nat) : plannedRows ctx base [] = [] := rfl

/-- The rows of a pass, its first outcome first. -/
theorem plannedRows_cons (base : Nat) (o : Outcome) (os : List Outcome) :
    plannedRows ctx base (o :: os) =
      Outcome.rows ctx (o, base) ++ plannedRows ctx (base + 1) os := by
  rw [plannedRows, List.zipIdx_cons, List.flatMap_cons]
  rfl

/-- Later outcomes take later keys. -/
theorem plannedRows_append (base : Nat) (os os' : List Outcome) :
    plannedRows ctx base (os ++ os') =
      plannedRows ctx base os ++ plannedRows ctx (base + os.length) os' := by
  rw [plannedRows, List.zipIdx_append, List.flatMap_append]
  rfl

/-- The tasks of a pass and the outcomes that they come from. -/
theorem mem_plannedTasks {base : Nat} {os : List Outcome} {t : OutreachTask} :
    t ∈ plannedTasks ctx clock base os ↔ ∃ j o time, os[j]? = some o ∧
      o.scheduledAt = some time ∧
      t = taskRow ctx o.result.channel (base + j) time.instant clock := by
  simp only [plannedTasks, List.mem_filterMap, Prod.exists, Outcome.task, Option.map_eq_some_iff]
  constructor
  · rintro ⟨o, k, hmem, time, htime, rfl⟩
    obtain ⟨hle, ho⟩ := List.mk_mem_zipIdx_iff_le_and_getElem?_sub.mp hmem
    exact ⟨k - base, o, time, ho, htime, by rw [Nat.add_sub_cancel' hle]⟩
  · rintro ⟨j, o, time, ho, htime, rfl⟩
    refine ⟨o, base + j, ?_, time, htime, rfl⟩
    rw [List.mk_mem_zipIdx_iff_le_and_getElem?_sub, Nat.add_sub_cancel_left]
    exact ⟨Nat.le_add_right _ _, ho⟩

/-- The audit rows of a pass and the outcomes that they come from. -/
theorem mem_plannedRows {base : Nat} {os : List Outcome} {a : AuditEvent}
    (h : a ∈ plannedRows ctx base os) : ∃ j o, os[j]? = some o ∧
      (a = decisionRecordedRow ctx (base + j) o.result ∨ a ∈ exitRows ctx o.result ∨
        ∃ time, a = taskScheduledRow ctx o.result.channel time) := by
  obtain ⟨⟨o, k⟩, hmem, ha⟩ := List.mem_flatMap.mp h
  obtain ⟨hle, ho⟩ := List.mk_mem_zipIdx_iff_le_and_getElem?_sub.mp hmem
  refine ⟨k - base, o, ho, ?_⟩
  simp only [Outcome.rows, List.mem_cons, List.mem_append, Option.mem_toList,
    Option.map_eq_some_iff] at ha
  rcases ha with rfl | ha | ⟨time, -, rfl⟩
  · exact Or.inl (by rw [Nat.add_sub_cancel' hle])
  · exact Or.inr (Or.inl ha)
  · exact Or.inr (Or.inr ⟨time, rfl⟩)

/-- A task of an outcome carries the outcome's channel in its idempotency key. -/
theorem Outcome.task_key {x : Outcome × Nat} {t : OutreachTask}
    (h : t ∈ Outcome.task ctx clock x) :
    t.idempotencyKey = ⟨ctx.inboundEventId, x.1.result.channel⟩ := by
  obtain ⟨time, -, rfl⟩ := Option.map_eq_some_iff.mp h
  rfl

private theorem map_filterMap_sublist {α β γ : Type} {f : α → Option β} {g : β → γ} {h : α → γ}
    (hgh : ∀ x, ∀ y ∈ f x, g y = h x) (l : List α) :
    ((l.filterMap f).map g).Sublist (l.map h) := by
  induction l with
  | nil => exact List.Sublist.refl _
  | cons x l ih =>
    cases hx : f x with
    | none =>
      rw [List.filterMap_cons_none hx, List.map_cons]
      exact ih.cons _
    | some y =>
      rw [List.filterMap_cons_some hx, List.map_cons, List.map_cons, hgh x y hx]
      exact ih.cons_cons _

/-- The tasks of a pass point at different decisions of the pass. -/
theorem plannedTasks_decisions (ctx : EventContext) (clock : Int) (base : Nat) (os : List Outcome) :
    ((plannedTasks ctx clock base os).map OutreachTask.policyDecisionId).Sublist
      ((List.range' base os.length).map some) := by
  rw [← List.zipIdx_map_snd, List.map_map]
  refine map_filterMap_sublist ?_ _
  intro x t ht
  obtain ⟨time, -, rfl⟩ := Option.map_eq_some_iff.mp ht
  rfl

/-- The tasks of a pass have the keys of different channels. -/
theorem plannedTasks_keys (ctx : EventContext) (clock : Int) (base : Nat) (os : List Outcome) :
    ((plannedTasks ctx clock base os).map OutreachTask.idempotencyKey).Sublist
      ((os.map fun o => o.result.channel).map (TaskIdempotencyKey.mk ctx.inboundEventId)) := by
  have hos : os.map (fun o => o.result.channel) =
      (os.zipIdx base).map fun x => x.1.result.channel := by
    conv_lhs => rw [← List.zipIdx_map_fst base os, List.map_map]
    rfl
  rw [hos, List.map_map]
  exact map_filterMap_sublist (fun x t ht => Outcome.task_key ht) _

/-- The audit rows of a pass are rows of the planner. -/
theorem plannedRows_spec {base : Nat} {os : List Outcome} :
    ∀ a ∈ plannedRows ctx base os, PlannerRow ctx a := by
  intro a ha
  obtain ⟨j, o, ho, rfl | hexit | ⟨time, rfl⟩⟩ := mem_plannedRows ha
  · simp [PlannerRow, decisionRecordedRow, plannerAudit]
  · unfold exitRows at hexit
    split at hexit <;>
      simp_all [PlannerRow, blockedRow, deferredRow, plannerAudit]
  · simp [PlannerRow, taskScheduledRow, plannerAudit]

/-- A loop that has decided nothing more is where it was. -/
theorem PlanLoop.apply_nil (st : PlanLoop) : st.apply ctx clock [] = st := by
  simp [PlanLoop.apply, plannedStore, plannedDecisions]

/-- Outcomes are applied one after the other. -/
theorem PlanLoop.apply_append (st : PlanLoop) (os os' : List Outcome) :
    (st.apply ctx clock os).apply ctx clock os' = st.apply ctx clock (os ++ os') := by
  simp [PlanLoop.apply, plannedStore, plannedTasks_append, plannedRows_append, Nat.add_assoc]

/-! ### The loop computes the outcomes -/

/-- The policy answers for the channel that it was asked about. -/
theorem evaluatePolicy_channel {i : PolicyInput} {r : PolicyResult}
    (h : evaluatePolicy rt i = .ok r) : r.channel = i.channel := by
  cases evaluatePolicy_verdict h <;> rfl

/-- An outcome is a policy result with the time that follows from it. -/
theorem decideProposal_ok {i : PolicyInput} {p : ProposedOutreach} {o : Outcome}
    (h : decideProposal rt i p = .ok o) :
    evaluatePolicy rt i = .ok o.result ∧ o.scheduledAt = scheduledTime p o.result ∧
      ∀ time, o.scheduledAt = some time → time.timestamptz = some time.instant := by
  obtain ⟨r, hr, h⟩ := bind_eq_ok.mp h
  unfold Outcome.ofResult at h
  split at h
  · next hnone =>
    cases h
    exact ⟨hr, hnone.symm, by rintro _ ⟨⟩⟩
  · next time htime =>
    cases hu : time.timestamptz with
    | none =>
      rw [hu] at h
      cases h
    | some u =>
      rw [hu] at h
      cases h
      refine ⟨hr, htime.symm, ?_⟩
      rintro _ ⟨⟩
      rw [hu, Datetime.timestamptz_eq_some hu]

/-- Recording a decision and taking its exit without a task applies that outcome. -/
private theorem exit_eq (ctx : EventContext) (clock : Int) (st : PlanLoop) (r : PolicyResult) :
    (r.decision = .block → (st.record ctx r).block ctx r = st.apply ctx clock [⟨r, none⟩]) ∧
    (r.decision = .allow → st.record ctx r = st.apply ctx clock [⟨r, none⟩]) ∧
    (r.decision = .defer → (st.record ctx r).defer ctx r = st.apply ctx clock [⟨r, none⟩]) := by
  refine ⟨?_, ?_, ?_⟩ <;> intro hd <;>
    simp [hd, PlanLoop.apply, PlanLoop.record, PlanLoop.block, PlanLoop.defer, plannedStore,
      plannedDecisions, plannedTasks_cons, plannedRows_cons, Outcome.task, Outcome.rows,
      exitRows, Store.appendAuditEvent]

/-- A task of the store has the key of the event and the channel. -/
def keyTaken (s : Store) (ctx : EventContext) (channel : OutreachChannel) : Bool :=
  s.outreachTasks.any fun t => t.idempotencyKey = ⟨ctx.inboundEventId, channel⟩

/-- Scheduling a recorded decision applies its outcome, unless its key is taken. -/
private theorem schedule_eq (ctx : EventContext) (clock : Int) (st : PlanLoop) (r : PolicyResult)
    (time : Datetime) :
    (st.apply ctx clock [⟨r, none⟩]).schedule ctx clock st.store.policyDecisions.length r.channel
        time =
      orThrow .overflow time.timestamptz >>= fun _ =>
        if keyTaken st.store ctx r.channel then .error (.integrity .outreachTasksIdempotencyKey)
        else .ok (st.apply ctx clock [⟨r, some time⟩]) := by
  have hsame : (st.apply ctx clock [⟨r, none⟩]).store.outreachTasks = st.store.outreachTasks := by
    simp [PlanLoop.apply, plannedStore, plannedTasks_cons, Outcome.task]
  unfold PlanLoop.schedule
  cases hu : time.timestamptz with
  | none => rfl
  | some u =>
    obtain rfl := Datetime.timestamptz_eq_some hu
    have htaken : ((st.apply ctx clock [⟨r, none⟩]).store.outreachTasks.any fun t =>
        t.idempotencyKey = (taskRow ctx r.channel st.store.policyDecisions.length time.instant
          clock).idempotencyKey) = keyTaken st.store ctx r.channel := by
      rw [hsame]
      rfl
    simp only [orThrow, bind, Except.bind, htaken]
    split
    · rfl
    · simp [PlanLoop.apply, plannedStore, plannedDecisions, plannedTasks_cons, plannedRows_cons,
        Outcome.task, Outcome.rows, Store.appendAuditEvent]

/-- An iteration applies the outcome of its proposal, unless the key of its task is taken. -/
theorem planProposal_spec (cap : Nat) (st : PlanLoop) (p : ProposedOutreach) :
    planProposal rt ctx cap clock st p =
      decideProposal rt (policyInput ctx cap st.recentCount p) p >>= fun o =>
        if o.scheduledAt.isSome && keyTaken st.store ctx p.channel then
          .error (.integrity .outreachTasksIdempotencyKey)
        else .ok (st.apply ctx clock [o]) := by
  unfold planProposal decideProposal
  cases hr : evaluatePolicy rt (policyInput ctx cap st.recentCount p) with
  | error e => rfl
  | ok r =>
    have hchannel : r.channel = p.channel := evaluatePolicy_channel hr
    obtain ⟨hblock, hallow, hdefer⟩ := exit_eq ctx clock st r
    have hschedule := schedule_eq ctx clock st r
    simp only [hchannel] at hschedule
    simp only [bind, Except.bind, Outcome.ofResult, scheduledTime]
    cases hd : r.decision with
    | block => simp [hblock hd]
    | allow =>
      simp only [hallow hd, hschedule, hchannel]
      cases p.scheduledAt.timestamptz <;> rfl
    | defer =>
      simp only [hdefer hd]
      by_cases hcap : Reason.frequencyCapExceeded ∈ r.reasons
      · simp [hcap]
      · cases hu : r.deferUntil with
        | none => simp [hcap]
        | some time =>
          simp only [hcap, if_false, hschedule, hchannel]
          cases time.timestamptz <;> rfl

/-- An iteration whose task key is unused applies the outcome of its proposal. -/
theorem planProposal_eq {cap : Nat} {st : PlanLoop} {p : ProposedOutreach}
    (hkey : ∀ t ∈ st.store.outreachTasks, t.idempotencyKey ≠ ⟨ctx.inboundEventId, p.channel⟩) :
    planProposal rt ctx cap clock st p =
      (decideProposal rt (policyInput ctx cap st.recentCount p) p).map
        fun o => st.apply ctx clock [o] := by
  have hfree : keyTaken st.store ctx p.channel = false := by
    simpa [keyTaken] using hkey
  rw [planProposal_spec]
  cases decideProposal rt (policyInput ctx cap st.recentCount p) p with
  | error e => rfl
  | ok o => simp [hfree, bind, Except.bind, Except.map]

/-- An iteration that succeeds applies the outcome of its proposal. -/
theorem planProposal_ok {cap : Nat} {st st' : PlanLoop} {p : ProposedOutreach}
    (h : planProposal rt ctx cap clock st p = .ok st') :
    ∃ o, decideProposal rt (policyInput ctx cap st.recentCount p) p = .ok o ∧
      st' = st.apply ctx clock [o] := by
  rw [planProposal_spec] at h
  obtain ⟨o, ho, h⟩ := bind_eq_ok.mp h
  split at h
  · cases h
  · cases h
    exact ⟨o, ho, rfl⟩

/-- A loop that succeeds applies the outcomes of its proposals. -/
theorem foldlM_planProposal_ok {cap : Nat} {ps : List ProposedOutreach} {st st' : PlanLoop}
    (h : ps.foldlM (planProposal rt ctx cap clock) st = .ok st') :
    ∃ os, decideAll rt (policyInput ctx cap) st.recentCount ps = .ok os ∧
      st' = st.apply ctx clock os := by
  induction ps generalizing st with
  | nil =>
    cases h
    exact ⟨[], rfl, (PlanLoop.apply_nil _).symm⟩
  | cons p ps ih =>
    rw [List.foldlM_cons] at h
    obtain ⟨st₁, h₁, h⟩ := bind_eq_ok.mp h
    obtain ⟨o, ho, rfl⟩ := planProposal_ok h₁
    obtain ⟨os, hos, rfl⟩ := ih h
    have hcount : (st.apply ctx clock [o]).recentCount = st.recentCount + o.count := by
      simp [PlanLoop.apply, Outcome.count]
    rw [hcount] at hos
    refine ⟨o :: os, ?_, PlanLoop.apply_append st [o] os⟩
    rw [decideAll, ho]
    simp only [bind, Except.bind, hos]

/-- A loop over distinct channels with unused task keys applies its outcomes. -/
theorem foldlM_planProposal {cap : Nat} {ps : List ProposedOutreach}
    (hps : (ps.map ProposedOutreach.channel).Nodup) {st : PlanLoop}
    (hkey : ∀ p ∈ ps, ∀ t ∈ st.store.outreachTasks,
      t.idempotencyKey ≠ ⟨ctx.inboundEventId, p.channel⟩) :
    ps.foldlM (planProposal rt ctx cap clock) st =
      (decideAll rt (policyInput ctx cap) st.recentCount ps).map (st.apply ctx clock) := by
  induction ps generalizing st with
  | nil => simp [decideAll, Except.map, PlanLoop.apply_nil, pure, Except.pure]
  | cons p ps ih =>
    rw [List.map_cons, List.nodup_cons] at hps
    rw [List.foldlM_cons, planProposal_eq (hkey p List.mem_cons_self)]
    unfold decideAll
    cases ho : decideProposal rt (policyInput ctx cap st.recentCount p) p with
    | error e => rfl
    | ok o =>
      have hchannel : o.result.channel = p.channel :=
        evaluatePolicy_channel (decideProposal_ok ho).1
      have hrest : ∀ q ∈ ps, ∀ t ∈ (st.apply ctx clock [o]).store.outreachTasks,
          t.idempotencyKey ≠ ⟨ctx.inboundEventId, q.channel⟩ := by
        intro q hq t ht
        simp only [PlanLoop.apply, plannedStore, plannedTasks_cons, plannedTasks_nil,
          List.append_nil, List.mem_append, Option.mem_toList] at ht
        rcases ht with ht | ht
        · exact hkey q (List.mem_cons_of_mem p hq) t ht
        · rw [Outcome.task_key ht, hchannel]
          intro he
          exact hps.1 (List.mem_map.mpr ⟨q, hq, (TaskIdempotencyKey.mk.inj he).2.symm⟩)
      have hcount : (st.apply ctx clock [o]).recentCount = st.recentCount + o.count := by
        simp [PlanLoop.apply, Outcome.count]
      simp only [bind, Except.bind, Except.map]
      rw [ih hps.2 hrest, hcount]
      cases decideAll rt (policyInput ctx cap) (st.recentCount + o.count) ps with
      | error e => rfl
      | ok os => simp [Except.map, PlanLoop.apply_append]

/-- A decision that gets a task: permission, or deferral without the frequency cap. -/
def TakesTask (decision : PolicyDecisionOutcome) (reasons : List Reason) : Prop :=
  decision = .allow ∨ decision = .defer ∧ .frequencyCapExceeded ∉ reasons

/-- An outcome has a task exactly when its decision gets one: a deferral that is not for
the cap is for quiet hours and names a time. -/
theorem scheduled_iff_takesTask {i : PolicyInput} {p : ProposedOutreach} {o : Outcome}
    (h : decideProposal rt i p = .ok o) :
    o.scheduledAt.isSome ↔ TakesTask o.result.decision o.result.reasons := by
  obtain ⟨hr, htime, -⟩ := decideProposal_ok h
  have hv := evaluatePolicy_verdict hr
  rw [htime]
  generalize o.result = r at hv ⊢
  cases hv with
  | block hb => simp [scheduledTime, TakesTask]
  | allow hb hq hc => simp [scheduledTime, TakesTask]
  | defer quiet hb hq hd =>
    by_cases hcap : Reason.frequencyCapExceeded ∈ deferReasons i quiet
    · simp [scheduledTime, TakesTask, hcap]
    · have hquiet : quiet.isSome = true := by
        cases quiet with
        | some time => rfl
        | none =>
          simp only [deferReasons, Option.isSome_none, Bool.false_eq_true, if_false,
            List.nil_append, ne_eq, ite_eq_right_iff, reduceCtorEq, imp_false, not_not] at hd
          simp [deferReasons, hd] at hcap
      simp [scheduledTime, TakesTask, hcap, hquiet]

/-- Every outcome of a pass is the outcome of one of its proposals. -/
theorem mem_decideAll {input : Nat → ProposedOutreach → PolicyInput} {n : Nat}
    {ps : List ProposedOutreach} {os : List Outcome} (h : decideAll rt input n ps = .ok os) :
    ∀ o ∈ os, ∃ m p, p ∈ ps ∧ decideProposal rt (input m p) p = .ok o := by
  induction ps generalizing n os with
  | nil =>
    cases h
    simp
  | cons p ps ih =>
    obtain ⟨o, ho, h⟩ := bind_eq_ok.mp h
    obtain ⟨os', hos, h⟩ := bind_eq_ok.mp h
    cases h
    intro q hq
    rcases List.mem_cons.mp hq with rfl | hq
    · exact ⟨n, p, List.mem_cons_self, ho⟩
    · obtain ⟨m, r, hr, hd⟩ := ih hos q hq
      exact ⟨m, r, List.mem_cons_of_mem p hr, hd⟩

/-! ### Planning a policy event -/

/-- `_PROCESSED_MARKERS`, `src/orchestrator/orchestration/planner.py:34–39`. -/
def processedMarkers : EventType → Option AuditEventType
  | .paymentReceived => some .plannerPaymentReceivedProcessed
  | .optOutReceived => some .plannerOptOutProcessed
  | .hardshipRequested => some .plannerHardshipProcessed
  | .accountPaused => some .plannerAccountPausedProcessed
  | .accountDelinquent | .paymentFailed | .other _ => none

/-- The channels that an event proposes. -/
def proposedChannels : EventType → List OutreachChannel
  | .accountDelinquent => [.email, .sms, .call]
  | .paymentFailed => [.email, .sms]
  | _ => []

/-- The channels of an event are distinct. -/
theorem nodup_proposedChannels (eventType : EventType) : (proposedChannels eventType).Nodup := by
  cases eventType <;> simp [proposedChannels]

/-- The proposals of an event are for its channels. -/
theorem proposals_channels {eventType : EventType} {now : Datetime} {key : String}
    {ps : List ProposedOutreach} (h : proposalsForEvent rt eventType now key = .ok ps) :
    ps.map ProposedOutreach.channel = proposedChannels eventType := by
  unfold proposalsForEvent at h
  split at h
  · obtain ⟨sms, -, h⟩ := bind_eq_ok.mp h
    obtain ⟨call, -, h⟩ := bind_eq_ok.mp h
    cases h
    rfl
  · obtain ⟨sms, -, h⟩ := bind_eq_ok.mp h
    cases h
    rfl
  · cases h

/-- The outcomes of a list of proposals are for the proposals' channels. -/
theorem decideAll_channels {input : Nat → ProposedOutreach → PolicyInput}
    (hinput : ∀ n p, (input n p).channel = p.channel) {n : Nat} {ps : List ProposedOutreach}
    {os : List Outcome} (h : decideAll rt input n ps = .ok os) :
    os.map (fun o => o.result.channel) = ps.map ProposedOutreach.channel := by
  induction ps generalizing n os with
  | nil =>
    cases h
    rfl
  | cons p ps ih =>
    obtain ⟨o, ho, h⟩ := bind_eq_ok.mp h
    obtain ⟨os', hos, h⟩ := bind_eq_ok.mp h
    cases h
    rw [List.map_cons, List.map_cons, ih hos,
      evaluatePolicy_channel (decideProposal_ok ho).1, hinput]

/-- Planning a policy event that has neither decisions nor tasks computes its outcomes and
writes them. -/
theorem planPolicyEvent_eq {s : Store} {now : Datetime} {cap : Nat}
    (hfresh : ∀ d ∈ s.policyDecisions, d.inboundEventId ≠ some ctx.inboundEventId)
    (hkey : ∀ t ∈ s.outreachTasks, t.idempotencyKey.inboundEventId ≠ ctx.inboundEventId) :
    planPolicyEvent rt s ctx now cap clock = (do
      let n ← recentAttemptCount s ctx.customerId now
      let ps ← proposalsForEvent rt ctx.inboundEvent.eventType now ctx.customer.timezone
      let os ← decideAll rt (policyInput ctx cap) n ps
      .ok (plannedStore ctx clock s os, plannedResult ctx.inboundEventId os)) := by
  unfold planPolicyEvent
  rw [if_neg]
  · cases recentAttemptCount s ctx.customerId now with
    | error e => rfl
    | ok n =>
      cases hps : proposalsForEvent rt ctx.inboundEvent.eventType now ctx.customer.timezone with
      | error e => rfl
      | ok ps =>
        have hnodup : (ps.map ProposedOutreach.channel).Nodup := by
          rw [proposals_channels hps]
          exact nodup_proposedChannels _
        simp only [bind, Except.bind]
        rw [foldlM_planProposal hnodup]
        · cases decideAll rt (policyInput ctx cap) n ps with
          | error e => rfl
          | ok os => simp [Except.map, PlanLoop.apply, plannedResult]
        · intro p _ t ht he
          exact hkey t ht (by rw [he])
  · intro hany
    obtain ⟨d, hd, he⟩ := List.any_eq_true.mp hany
    exact hfresh d hd (of_decide_eq_true he)

/-- A pass over a policy event that succeeds found the event decided already, or it computed
the outcomes of its proposals and wrote them. -/
theorem planPolicyEvent_ok {s s' : Store} {now : Datetime} {cap : Nat} {result : PlannerResult}
    (h : planPolicyEvent rt s ctx now cap clock = .ok (s', result)) :
    (∃ d ∈ s.policyDecisions, d.inboundEventId = some ctx.inboundEventId) ∧ s' = s ∨
    ∃ n ps os, recentAttemptCount s ctx.customerId now = .ok n ∧
      proposalsForEvent rt ctx.inboundEvent.eventType now ctx.customer.timezone = .ok ps ∧
      decideAll rt (policyInput ctx cap) n ps = .ok os ∧ s' = plannedStore ctx clock s os := by
  unfold planPolicyEvent at h
  split at h
  · next hany =>
    obtain ⟨d, hd, he⟩ := List.any_eq_true.mp hany
    cases h
    exact Or.inl ⟨⟨d, hd, of_decide_eq_true he⟩, rfl⟩
  · obtain ⟨n, hn, h⟩ := bind_eq_ok.mp h
    obtain ⟨ps, hps, h⟩ := bind_eq_ok.mp h
    obtain ⟨st, hst, h⟩ := bind_eq_ok.mp h
    obtain ⟨os, hos, rfl⟩ := foldlM_planProposal_ok hst
    cases h
    exact Or.inr ⟨n, ps, os, hn, hps, hos, rfl⟩

/-! ### Exceptions of a planning pass -/

/-- The two event types that propose outreach. -/
def PolicyEvent (eventType : EventType) : Prop :=
  eventType = .accountDelinquent ∨ eventType = .paymentFailed

/-- The exceptions of time arithmetic in a named zone: a time out of range, or no such zone. -/
inductive TimeFailure (rt : Runtime) (key : String) : Failure → Prop where
  | overflow : TimeFailure rt key .overflow
  | unknownZone {e : Failure} (h : rt.zoneInfo key = none)
    (he : e = .zoneInfoNotFound key ∨ ∃ text, e = .valueError text) :
    TimeFailure rt key e

/-- The exceptions of date arithmetic and of unknown zones and event types. -/
def PlanningFailure : Failure → Prop
  | .valueError _ | .zoneInfoNotFound _ | .overflow => True
  | _ => False

/-- Time arithmetic raises while planning. -/
theorem TimeFailure.planning {key : String} {e : Failure} (h : TimeFailure rt key e) :
    PlanningFailure e := by
  cases h with
  | overflow => trivial
  | unknownZone _ he => rcases he with rfl | ⟨text, rfl⟩ <;> trivial

/-- In a known zone only times out of range raise. -/
theorem TimeFailure.of_zone {key : String} {e : Failure} (h : TimeFailure rt key e)
    (hz : (rt.zoneInfo key).isSome = true) : e = .overflow := by
  cases h with
  | overflow => rfl
  | unknownZone h _ => simp [h] at hz

/-- A lookup of a zone raises for an unknown one. -/
private theorem zoneInfo_raises {key : String} {e : Failure}
    (he : e = .zoneInfoNotFound key ∨ ∃ text, e = .valueError text) :
    Raises (TimeFailure rt key) (orThrow e (rt.zoneInfo key)) := by
  cases h : rt.zoneInfo key with
  | none => exact .error (.unknownZone h he)
  | some z => exact .ok z

/-- The policy raises for unknown zones and for times out of range. -/
theorem evaluatePolicy_raises (i : PolicyInput) :
    Raises (TimeFailure rt i.customerTimezone) (evaluatePolicy rt i) := by
  unfold evaluatePolicy
  split
  · exact .ok _
  · refine .bind ?_ fun quiet _ => ?_
    · unfold quietHoursDeferUntil getCustomerTimezone
      split
      · exact .ok _
      · refine .bind (zoneInfo_raises (Or.inr ⟨_, rfl⟩)) fun zone _ =>
          .bind (.orThrow .overflow _) fun l _ => ?_
        dsimp only
        split
        · exact .ok _
        · split
          · exact .ok _
          · exact .bind (.orThrow .overflow _) fun _ _ => .ok _
    · split <;> exact .ok _

/-- A proposal raises what the policy raises, or for a task time out of range. -/
theorem decideProposal_raises (i : PolicyInput) (p : ProposedOutreach) :
    Raises (TimeFailure rt i.customerTimezone) (decideProposal rt i p) := by
  refine .bind (evaluatePolicy_raises i) fun r _ => ?_
  unfold Outcome.ofResult
  split
  · exact .ok _
  · exact .map (.orThrow .overflow _)

/-- A loop raises what its proposals raise. -/
theorem decideAll_raises {input : Nat → ProposedOutreach → PolicyInput} {key : String}
    (hkey : ∀ n p, (input n p).customerTimezone = key) (n : Nat) (ps : List ProposedOutreach) :
    Raises (TimeFailure rt key) (decideAll rt input n ps) := by
  induction ps generalizing n with
  | nil => exact .ok _
  | cons p ps ih =>
    exact .bind (hkey n p ▸ decideProposal_raises _ p) fun o _ => .bind (ih _) fun _ _ => .ok _

/-- The proposal rules raise for unknown zones and for times out of range. -/
theorem proposalsForEvent_raises {eventType : EventType} (he : PolicyEvent eventType)
    (now : Datetime) (key : String) :
    Raises (TimeFailure rt key) (proposalsForEvent rt eventType now key) := by
  rcases he with rfl | rfl
  · refine .bind (.orThrow .overflow _) fun _ _ => .bind ?_ fun _ _ => .ok _
    refine .bind (zoneInfo_raises ?_) fun _ _ => .bind (.orThrow .overflow _) fun _ _ =>
      .orThrow .overflow _
    cases rt.zoneInfoError key with
    | none => exact Or.inl rfl
    | some text => exact Or.inr ⟨text, rfl⟩
  · exact .bind (.orThrow .overflow _) fun _ _ => .ok _

end

end Orchestrator.Orchestration
