import Orchestrator.Orchestration.Range

/-!
# Closed form of a planning pass

What a pass writes, read off its proposals. Block rules do not look at the running count,
so the proposals that none of them hits are known beforehand, and the cap admits as many
of them, in order, as it has room for after the recent attempts.
-/

namespace Orchestrator.Orchestration

open Base Policy

/-- No block rule hits the proposal, whatever the count and the cap. -/
def unblocked (ctx : EventContext) (p : ProposedOutreach) : Bool :=
  blockReasons (policyInput ctx 0 0 p) = []

/-- The proposals that no block rule hits, each under the key of its decision. -/
def openProposals (ctx : EventContext) (base : Nat) (ps : List ProposedOutreach) :
    List (ProposedOutreach × Nat) := (ps.zipIdx base).filter fun x => unblocked ctx x.1

/-- The time of a proposal's task: its own, or the deferral by quiet hours. -/
def taskTime (rt : Runtime) (ctx : EventContext) (p : ProposedOutreach) : Datetime :=
  ((quietHoursDeferUntil rt (policyInput ctx 0 0 p)).toOption.join).getD p.scheduledAt

/-- How an evaluated proposal ends, by block rules, room under the cap and quiet hours. -/
inductive Ending (rt : Runtime) (i : PolicyInput) (p : ProposedOutreach) : Outcome → Prop where
  | blocked (hb : blockReasons i ≠ []) :
      Ending rt i p ⟨{ decision := .block, channel := i.channel, reasons := blockReasons i }, none⟩
  | capped (hb : blockReasons i = []) (hc : i.frequencyCap ≤ i.recentOutboundAttemptCount)
      (quiet : Option Datetime) (hq : quietHoursDeferUntil rt i = .ok quiet) :
      Ending rt i p ⟨{ decision := .defer, channel := i.channel, reasons := deferReasons i quiet,
                       deferUntil := quiet }, none⟩
  | allowed (hb : blockReasons i = []) (hc : i.recentOutboundAttemptCount < i.frequencyCap)
      (hq : quietHoursDeferUntil rt i = .ok none) :
      Ending rt i p ⟨{ decision := .allow, channel := i.channel, reasons := [.policyAllowed] },
        some p.scheduledAt⟩
  | deferred (hb : blockReasons i = []) (hc : i.recentOutboundAttemptCount < i.frequencyCap)
      (time : Datetime) (hq : quietHoursDeferUntil rt i = .ok (some time)) :
      Ending rt i p ⟨{ decision := .defer, channel := i.channel, reasons := [.quietHours],
                       deferUntil := some time }, some time⟩

section

variable {rt : Runtime} {ctx : EventContext} {clock : Int} {cap : Nat}

/-- Every outcome is one of the four endings. -/
theorem decideProposal_ending {i : PolicyInput} {p : ProposedOutreach} {o : Outcome}
    (h : decideProposal rt i p = .ok o) : Ending rt i p o := by
  obtain ⟨hr, htime, -⟩ := decideProposal_ok h
  have hv := evaluatePolicy_verdict hr
  obtain ⟨r, time⟩ := o
  dsimp only at htime hv
  subst htime
  cases hv with
  | block hb => exact .blocked hb
  | allow hb hq hc => exact .allowed hb hc hq
  | defer quiet hb hq hd =>
    by_cases hc : i.frequencyCap ≤ i.recentOutboundAttemptCount
    · have hcapped : Reason.frequencyCapExceeded ∈ deferReasons i quiet := by
        simp [deferReasons, hc]
      simp only [scheduledTime, hcapped, if_true]
      exact .capped hb hc quiet hq
    · cases quiet with
      | none => simp [deferReasons, hc] at hd
      | some until' =>
        have hreasons : deferReasons i (some until') = [.quietHours] := by
          simp [deferReasons, hc]
        simp only [hreasons, scheduledTime, List.mem_singleton, reduceCtorEq, if_false]
        exact .deferred hb (Nat.lt_of_not_le hc) until' hq

/-- Block rules see neither the count nor the cap. -/
theorem unblocked_iff (ctx : EventContext) (cap n : Nat) (p : ProposedOutreach) :
    unblocked ctx p = true ↔ blockReasons (policyInput ctx cap n p) = [] := decide_eq_true_iff

/-- Quiet hours see neither the count nor the cap. -/
theorem taskTime_eq {n : Nat} {p : ProposedOutreach} {quiet : Option Datetime}
    (h : quietHoursDeferUntil rt (policyInput ctx cap n p) = .ok quiet) :
    taskTime rt ctx p = quiet.getD p.scheduledAt := by
  have h' : quietHoursDeferUntil rt (policyInput ctx 0 0 p) = .ok quiet := h
  rw [taskTime, h']
  rfl

/-- A proposal gets a task when no block rule hits it and the cap has room. -/
theorem scheduledAt_eq {n : Nat} {p : ProposedOutreach} {o : Outcome}
    (h : decideProposal rt (policyInput ctx cap n p) p = .ok o) :
    o.scheduledAt =
      if unblocked ctx p = true ∧ n < cap then some (taskTime rt ctx p) else none := by
  have hopen := unblocked_iff ctx cap n p
  cases decideProposal_ending h with
  | blocked hb =>
    rw [if_neg]
    exact fun hp => hb (hopen.mp hp.1)
  | capped hb hc quiet hq =>
    rw [if_neg]
    exact fun hp => Nat.not_le_of_lt hp.2 hc
  | allowed hb hc hq =>
    rw [if_pos ⟨hopen.mpr hb, hc⟩, taskTime_eq hq]
    rfl
  | deferred hb hc time hq =>
    rw [if_pos ⟨hopen.mpr hb, hc⟩, taskTime_eq hq]
    rfl

/-- The count that a proposal is evaluated with: the recent attempts and the tasks of the
unblocked proposals before it, as far as the cap had room. -/
theorem decideAll_count {m j : Nat} {ps : List ProposedOutreach} {os : List Outcome}
    (h : decideAll rt (policyInput ctx cap) m ps = .ok os) {p : ProposedOutreach} {o : Outcome}
    (hp : ps[j]? = some p) (ho : os[j]? = some o) :
    decideProposal rt (policyInput ctx cap
      (m + min ((ps.take j).countP (unblocked ctx)) (cap - m)) p) p = .ok o := by
  induction ps generalizing m j os with
  | nil => simp at hp
  | cons q qs ih =>
    obtain ⟨o₁, ho₁, h⟩ := bind_eq_ok.mp h
    obtain ⟨os', hos, h⟩ := bind_eq_ok.mp h
    cases h
    cases j with
    | zero =>
      obtain rfl : q = p := by simpa using hp
      obtain rfl : o₁ = o := by simpa using ho
      simpa using ho₁
    | succ j =>
      rw [List.getElem?_cons_succ] at hp ho
      have hrest := ih hos hp ho
      have hcount : m + o₁.count + min ((qs.take j).countP (unblocked ctx)) (cap - (m + o₁.count)) =
          m + min (((q :: qs).take (j + 1)).countP (unblocked ctx)) (cap - m) := by
        rw [List.take_succ_cons, List.countP_cons, Outcome.count, scheduledAt_eq ho₁]
        by_cases hq : unblocked ctx q = true
        · by_cases hc : m < cap
          · simp only [hq, hc, and_self, if_true, Option.isSome_some]
            omega
          · simp only [hq, hc, and_false, if_false, if_true, Option.isSome_none,
              Bool.false_eq_true]
            omega
        · simp [hq]
      rwa [hcount] at hrest

/-- The tasks of a pass are those of the first unblocked proposals, as many as the cap has
room for. -/
theorem plannedTasks_decideAll (clock : Int) {m : Nat} {ps : List ProposedOutreach}
    {os : List Outcome} (h : decideAll rt (policyInput ctx cap) m ps = .ok os) (base : Nat) :
    plannedTasks ctx clock base os = ((openProposals ctx base ps).take (cap - m)).map
      fun x => taskRow ctx x.1.channel x.2 (taskTime rt ctx x.1).instant clock := by
  induction ps generalizing m base os with
  | nil =>
    cases h
    simp [openProposals]
  | cons p ps ih =>
    obtain ⟨o, ho, h⟩ := bind_eq_ok.mp h
    obtain ⟨os', hos, h⟩ := bind_eq_ok.mp h
    cases h
    have hchannel : o.result.channel = p.channel := evaluatePolicy_channel (decideProposal_ok ho).1
    have htime := scheduledAt_eq ho
    rw [plannedTasks_cons, ih hos, openProposals, openProposals, List.zipIdx_cons,
      List.filter_cons, Outcome.count, Outcome.task, htime, hchannel]
    by_cases hp : unblocked ctx p = true
    · by_cases hc : m < cap
      · have hroom : cap - m = (cap - (m + 1)) + 1 := by omega
        simp [hp, hc, hroom]
      · have hroom : cap - m = 0 := by omega
        simp [hp, hc, hroom]
    · simp [hp]

/-- A decision is one of three. -/
private theorem length_eq_countP (ds : List PolicyDecision) :
    ds.length = ds.countP (fun d => d.decision = .block) +
      ds.countP (fun d => d.decision = .defer) + ds.countP (fun d => d.decision = .allow) := by
  induction ds with
  | nil => rfl
  | cons d ds ih =>
    rw [List.length_cons, List.countP_cons, List.countP_cons, List.countP_cons, ih]
    cases d.decision <;> simp <;> omega

private theorem countP_plannedDecisions (os : List Outcome) (outcome : PolicyDecisionOutcome) :
    (plannedDecisions ctx os).countP (fun d => d.decision = outcome) =
      os.countP fun o => o.result.decision = outcome := by
  rw [plannedDecisions, List.countP_map]
  rfl

private theorem length_plannedTasks (base : Nat) (os : List Outcome) :
    (plannedTasks ctx clock base os).length = os.countP fun o => o.scheduledAt.isSome := by
  induction os generalizing base with
  | nil => rfl
  | cons o os ih =>
    rw [plannedTasks_cons, List.length_append, ih, List.countP_cons, Outcome.task, Nat.add_comm]
    cases o.scheduledAt <;> rfl

end

/-- The rows and the result of a pass over the proposals `ps` under the cap `cap`, with
`n` recent attempts before it and `base` decisions stored. -/
structure ClosedForm (rt : Runtime) (ctx : EventContext) (cap : Nat) (clock : Int)
    (n base : Nat) (ps : List ProposedOutreach) (ds : List PolicyDecision)
    (ts : List OutreachTask) (result : PlannerResult) : Prop where
  channels : ds.map PolicyDecision.channel = ps.map fun p => some p.channel
  tasks : ts = ((openProposals ctx base ps).take (cap - n)).map
    fun x => taskRow ctx x.1.channel x.2 (taskTime rt ctx x.1).instant clock
  taskCount : ts.length = min (ps.countP (unblocked ctx)) (cap - n)
  admitted : ∀ (j : Nat) (p : ProposedOutreach) (d : PolicyDecision), ps[j]? = some p →
    ds[j]? = some d → unblocked ctx p = true →
    (ps.take j).countP (unblocked ctx) < cap - n →
      d.decision = .allow ∧ taskTime rt ctx p = p.scheduledAt ∨
      d.decision = .defer ∧ d.reasons = [.quietHours] ∧
        quietHoursDeferUntil rt (policyInput ctx cap n p) = .ok (some (taskTime rt ctx p))
  capped : ∀ (j : Nat) (p : ProposedOutreach) (d : PolicyDecision), ps[j]? = some p →
    ds[j]? = some d → unblocked ctx p = true →
    cap - n ≤ (ps.take j).countP (unblocked ctx) →
      d.decision = .defer ∧ .frequencyCapExceeded ∈ d.reasons
  blocked : ∀ (j : Nat) (p : ProposedOutreach) (d : PolicyDecision), ps[j]? = some p →
    ds[j]? = some d → unblocked ctx p = false → d.decision = .block
  createdTasks : result.createdTasks = ts.length
  policyDecisions : result.policyDecisions = ds.length
  blockedAttempts : result.blockedAttempts = ds.countP fun d => d.decision = .block
  deferredAttempts : result.deferredAttempts = ds.countP fun d => d.decision = .defer
  recorded : result.policyDecisions = result.blockedAttempts + result.deferredAttempts +
    ds.countP fun d => d.decision = .allow

section

variable {rt : Runtime} {ctx : EventContext} {cap : Nat}

private theorem length_openProposals (ctx : EventContext) (base : Nat)
    (ps : List ProposedOutreach) :
    (openProposals ctx base ps).length = ps.countP (unblocked ctx) := by
  conv_rhs => rw [← List.zipIdx_map_fst base ps, List.countP_map]
  rw [openProposals, ← List.countP_eq_length_filter]
  rfl

/-- The outcomes of a pass have the closed form. -/
private theorem closedForm_of_decideAll (clock : Int) {n : Nat} {ps : List ProposedOutreach}
    {os : List Outcome} (h : decideAll rt (policyInput ctx cap) n ps = .ok os) (base : Nat) :
    ClosedForm rt ctx cap clock n base ps (plannedDecisions ctx os)
      (plannedTasks ctx clock base os) (plannedResult ctx.inboundEventId os) := by
  have htasks := plannedTasks_decideAll clock h base
  have hoverall : ∀ j p d, ps[j]? = some p → (plannedDecisions ctx os)[j]? = some d →
      ∃ o, decideProposal rt (policyInput ctx cap
        (n + min ((ps.take j).countP (unblocked ctx)) (cap - n)) p) p = .ok o ∧
        d = decisionRow ctx o.result := by
    intro j p d hp hd
    rw [plannedDecisions, List.getElem?_map, Option.map_eq_some_iff] at hd
    obtain ⟨o, ho, rfl⟩ := hd
    exact ⟨o, decideAll_count h hp ho, rfl⟩
  constructor
  case channels =>
    have hchannels := congrArg (List.map some) (decideAll_channels (fun _ _ => rfl) h)
    rw [List.map_map, List.map_map] at hchannels
    rw [plannedDecisions, List.map_map]
    exact hchannels
  case tasks => exact htasks
  case taskCount =>
    rw [htasks, List.length_map, List.length_take, length_openProposals, Nat.min_comm]
  case admitted =>
    intro j p d hp hd hopen hroom
    obtain ⟨o, ho, rfl⟩ := hoverall j p d hp hd
    have hnil := (unblocked_iff ctx cap
      (n + min ((ps.take j).countP (unblocked ctx)) (cap - n)) p).mp hopen
    cases decideProposal_ending ho with
    | blocked hb => exact absurd hnil hb
    | capped _ hc _ _ =>
      simp only [policyInput] at hc
      omega
    | allowed _ _ hq => exact Or.inl ⟨rfl, by rw [taskTime_eq hq]; rfl⟩
    | deferred _ _ time hq =>
      refine Or.inr ⟨rfl, rfl, ?_⟩
      rw [taskTime_eq hq]
      exact hq
  case capped =>
    intro j p d hp hd hopen hfull
    obtain ⟨o, ho, rfl⟩ := hoverall j p d hp hd
    have hnil := (unblocked_iff ctx cap
      (n + min ((ps.take j).countP (unblocked ctx)) (cap - n)) p).mp hopen
    cases decideProposal_ending ho with
    | blocked hb => exact absurd hnil hb
    | capped _ hc quiet _ => exact ⟨rfl, by simp [decisionRow, deferReasons, hc]⟩
    | allowed _ hc _ =>
      simp only [policyInput] at hc
      omega
    | deferred _ hc _ _ =>
      simp only [policyInput] at hc
      omega
  case blocked =>
    intro j p d hp hd hblocked
    obtain ⟨o, ho, rfl⟩ := hoverall j p d hp hd
    have hne := mt (unblocked_iff ctx cap
      (n + min ((ps.take j).countP (unblocked ctx)) (cap - n)) p).mpr
        (by rw [hblocked]; exact Bool.false_ne_true)
    cases decideProposal_ending ho with
    | blocked _ => rfl
    | capped hb _ _ _ => exact absurd hb hne
    | allowed hb _ _ => exact absurd hb hne
    | deferred hb _ _ _ => exact absurd hb hne
  case createdTasks => exact (length_plannedTasks base os).symm
  case policyDecisions => exact (length_plannedDecisions os).symm
  case blockedAttempts => exact (countP_plannedDecisions os _).symm
  case deferredAttempts => exact (countP_plannedDecisions os _).symm
  case recorded =>
    have hlength := length_eq_countP (plannedDecisions ctx os)
    rw [countP_plannedDecisions, countP_plannedDecisions, length_plannedDecisions] at hlength
    exact hlength

/-- A pass away from the ends of the calendar over an event that was not planned before has
the closed form, for every cap, history and state of the customer and the account. -/
theorem planPolicyEvent_closedForm {rt : Runtime} {ctx : EventContext} {s : Store}
    {now : Datetime} (he : PolicyEvent ctx.inboundEvent.eventType)
    (hz : (rt.zoneInfo ctx.customer.timezone).isSome = true) (hnow : AwayFromEnds now)
    (hfresh : ∀ d ∈ s.policyDecisions, d.inboundEventId ≠ some ctx.inboundEventId)
    (hkey : ∀ t ∈ s.outreachTasks, t.idempotencyKey.inboundEventId ≠ ctx.inboundEventId)
    (cap : Nat) (clock : Int) :
    ∃ n ps ds ts rows result, recentAttemptCount s ctx.customerId now = .ok n ∧
      proposalsForEvent rt ctx.inboundEvent.eventType now ctx.customer.timezone = .ok ps ∧
      planPolicyEvent rt s ctx now cap clock =
        .ok ({ s with
          policyDecisions := s.policyDecisions ++ ds
          outreachTasks := s.outreachTasks ++ ts
          auditEvents := s.auditEvents ++ rows }, result) ∧
      ClosedForm rt ctx cap clock n s.policyDecisions.length ps ds ts result := by
  obtain ⟨n, hn⟩ := recentAttemptCount_of_margin s ctx.customerId hnow
  obtain ⟨ps, hps, hmargin⟩ := proposalsForEvent_of_margin he hz hnow
  obtain ⟨os, hos⟩ : Returns (decideAll rt (policyInput ctx cap) n ps) := by
    apply decideAll_returns
    intro p hp m
    obtain ⟨hlo, hhi⟩ := hmargin p hp
    exact decideProposal_returns rfl fun _ => schedules_of_margin hz hlo hhi
  refine ⟨n, ps, plannedDecisions ctx os, plannedTasks ctx clock s.policyDecisions.length os,
    plannedRows ctx s.policyDecisions.length os, plannedResult ctx.inboundEventId os, hn, hps, ?_,
    closedForm_of_decideAll clock hos _⟩
  rw [planPolicyEvent_eq hfresh hkey, hn, hps]
  simp only [bind, Except.bind, hos]
  rfl

end

/-- A tz database that knows `UTC` only. -/
def utcRuntime : Runtime where
  zoneInfo key := if key = "UTC" then some (.fixed 0 utcOffset_mem) else none
  sha256hex text := text

/-- A reading at UTC. -/
def utcReading (w : Int) (h : InRange w) : Datetime := ⟨w, false, .offset 0 utcOffset_mem, h⟩

/-- A first delinquency of a customer with every consent. -/
def delinquentContext : EventContext where
  inboundEventId := 0
  inboundEvent :=
    { source := "servicing"
      externalId := "event-1"
      eventType := .accountDelinquent
      customerExternalId := "cust-1"
      accountExternalId := "acct-1"
      payload :=
        { source := "servicing"
          externalId := "event-1"
          eventType := .accountDelinquent
          customer := ⟨"cust-1", "Ada", "UTC", none, none, true, true, true⟩
          account := ⟨"acct-1", .delinquent, 12500, 30⟩
          occurredAt := ⟨15 * day, 0⟩
          metadata := [] }
      idempotencyKey := "inbound_event:servicing:event-1"
      processingStatus := .received }
  customerId := 0
  customer := ⟨"cust-1", "Ada", "UTC", none, none, true, true, true, false⟩
  accountId := 0
  account := ⟨"acct-1", 0, .delinquent, 12500, 30⟩
  correlationId := 0

/-- The store that the planner sees for that event. -/
def delinquentStore : Store where
  customers := [delinquentContext.customer]
  accounts := [delinquentContext.account]
  inboundEvents := [delinquentContext.inboundEvent]
  policyDecisions := []
  outreachTasks := []
  auditEvents := []

/-- The closed form of the first pass of that customer under a cap of two. -/
theorem planPolicyEvent_closedForm_demo :
    ∃ n ps ds ts rows result,
      recentAttemptCount delinquentStore 0 (utcReading (15 * day) (by decide)) = .ok n ∧
      proposalsForEvent utcRuntime .accountDelinquent (utcReading (15 * day) (by decide)) "UTC" =
        .ok ps ∧
      planPolicyEvent utcRuntime delinquentStore delinquentContext
          (utcReading (15 * day) (by decide)) 2 0 =
        .ok ({ delinquentStore with
          policyDecisions := delinquentStore.policyDecisions ++ ds
          outreachTasks := delinquentStore.outreachTasks ++ ts
          auditEvents := delinquentStore.auditEvents ++ rows }, result) ∧
      ClosedForm utcRuntime delinquentContext 2 0 n 0 ps ds ts result := by
  have hz : (utcRuntime.zoneInfo delinquentContext.customer.timezone).isSome = true := by decide
  have hnow : AwayFromEnds (utcReading (15 * day) (by decide)) := by
    constructor <;> decide
  have hfresh : ∀ d ∈ delinquentStore.policyDecisions,
      d.inboundEventId ≠ some delinquentContext.inboundEventId := by
    rintro d ⟨⟩
  have hkey : ∀ t ∈ delinquentStore.outreachTasks,
      t.idempotencyKey.inboundEventId ≠ delinquentContext.inboundEventId := by
    rintro t ⟨⟩
  exact planPolicyEvent_closedForm (Or.inl rfl) hz hnow hfresh hkey 2 0

end Orchestrator.Orchestration
