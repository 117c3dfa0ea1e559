import Orchestrator.Domain.EventIngestion
import Orchestrator.Orchestration.ClosedForm

/-!
# Planning and the form of an instant

`occurred_at` arrives with a UTC offset of its writer's choice. Every addition keeps that
offset, every comparison with a date or a time of day goes through the customer's zone, and
so two forms of one instant are planned alike: the same decisions, and tasks at the same
instants.
-/

namespace Orchestrator.Domain

open Base Orchestration Policy

/-- A day or more from the first and from the last moment of the calendar. -/
def DayInside (d : Datetime) : Prop := day ≤ d.wall ∧ d.wall + day ≤ wallEnd

/-- Inside that margin less than a day is added, and a day subtracted, without overflow. -/
theorem DayInside.add {d : Datetime} (h : DayInside d) {δ : Int} (hδ : -day ≤ δ ∧ δ < day) :
    ∃ e, d.add δ = some e := by
  have hrange : InRange (d.wall + δ) := by
    obtain ⟨hlo, hhi⟩ := h
    unfold InRange
    omega
  exact ⟨_, Datetime.ofWall_of_inRange hrange false d.tz⟩

section

variable {rt : Runtime} {d d' : Datetime}

/-! ### The policy -/

variable (rt) in
/-- The quiet hours see the proposed time through its local time. -/
theorem quietHoursDeferUntil_sameTime (h : d.SameTime d') (i : PolicyInput) :
    quietHoursDeferUntil rt { i with scheduledAt := d } =
      quietHoursDeferUntil rt { i with scheduledAt := d' } := by
  unfold quietHoursDeferUntil
  simp only [h.astimezone]

variable (rt) in
/-- The policy gives one answer for two forms of a proposed time. -/
theorem evaluatePolicy_sameTime (h : d.SameTime d') (i : PolicyInput) :
    evaluatePolicy rt { i with scheduledAt := d } =
      evaluatePolicy rt { i with scheduledAt := d' } := by
  unfold evaluatePolicy
  rw [quietHoursDeferUntil_sameTime rt h]
  rfl

/-- Two proposals of one contact. -/
structure SameProposal (p p' : ProposedOutreach) : Prop where
  channel : p.channel = p'.channel
  time : p.scheduledAt.SameTime p'.scheduledAt

/-- Two outcomes with one result and with tasks at one instant. -/
structure SameOutcome (o o' : Outcome) : Prop where
  result : o.result = o'.result
  time : o.scheduledAt.map Datetime.instant = o'.scheduledAt.map Datetime.instant

/-- One result gives the same task, if it gives one. -/
private theorem ofResult_sameTime {p p' : ProposedOutreach} (h : SameProposal p p')
    (r : PolicyResult) : Agrees SameOutcome (Outcome.ofResult p r) (Outcome.ofResult p' r) := by
  unfold Outcome.ofResult scheduledTime
  cases r.decision with
  | block => exact .ok ⟨rfl, rfl⟩
  | allow =>
    dsimp only
    rw [h.time.timestamptz]
    cases p'.scheduledAt.timestamptz with
    | none => exact .error _
    | some u => exact .ok ⟨rfl, congrArg some h.time.instant⟩
  | defer =>
    dsimp only
    split
    · exact .ok ⟨rfl, rfl⟩
    · next time _ =>
      cases time.timestamptz with
      | none => exact .error _
      | some u => exact .ok ⟨rfl, rfl⟩

/-- Two proposals of one contact have one outcome. -/
theorem decideProposal_sameTime {p p' : ProposedOutreach} (h : SameProposal p p')
    (ctx : EventContext) (cap n : Nat) :
    Agrees SameOutcome (decideProposal rt (policyInput ctx cap n p) p)
      (decideProposal rt (policyInput ctx cap n p') p') := by
  have heval : evaluatePolicy rt (policyInput ctx cap n p) =
      evaluatePolicy rt (policyInput ctx cap n p') := by
    have hsame := evaluatePolicy_sameTime rt h.time (policyInput ctx cap n p)
    have hinput : { policyInput ctx cap n p with scheduledAt := p'.scheduledAt } =
        policyInput ctx cap n p' := by
      simp only [policyInput, h.channel]
    rw [hinput] at hsame
    exact hsame
  rw [decideProposal, decideProposal, heval]
  exact .bind_same fun r _ => ofResult_sameTime h r

/-! ### The planner -/

/-- Two stores that differ in their events and audit rows at most. -/
structure SameTables (s s' : Store) : Prop where
  customers : s.customers = s'.customers
  accounts : s.accounts = s'.accounts
  policyDecisions : s.policyDecisions = s'.policyDecisions
  outreachTasks : s.outreachTasks = s'.outreachTasks

/-- Two states of the proposal loop with the same tables and counters. -/
structure SameLoop (st st' : PlanLoop) : Prop where
  store : SameTables st.store st'.store
  counters : st' = { st with store := st'.store }

/-- One outcome gives one task row. -/
private theorem task_sameTime {o o' : Outcome} (h : SameOutcome o o') (ctx : EventContext)
    (clock : Int) (k : Nat) : Outcome.task ctx clock (o, k) = Outcome.task ctx clock (o', k) := by
  have hrow (x : Outcome) : Outcome.task ctx clock (x, k) =
      (x.scheduledAt.map Datetime.instant).map
        fun u => taskRow ctx x.result.channel k u clock := by
    rw [Option.map_map]
    rfl
  rw [hrow, hrow, h.time, h.result]

/-- One outcome is applied to both loop states alike, whatever the event's payload says. -/
private theorem apply_sameTime {o o' : Outcome} (h : SameOutcome o o') {st st' : PlanLoop}
    (hst : SameLoop st st') (ctx : EventContext) (e : InboundEvent) (clock : Int) :
    SameLoop (st.apply ctx clock [o])
      (st'.apply { ctx with inboundEvent := e } clock [o']) := by
  have hsome : o.scheduledAt.isSome = o'.scheduledAt.isSome := by
    rw [← Option.isSome_map (f := Datetime.instant), h.time, Option.isSome_map]
  have hdecision : plannedDecisions { ctx with inboundEvent := e } [o'] =
      plannedDecisions ctx [o] := by
    simp only [plannedDecisions, List.map_cons, List.map_nil, h.result]
    rfl
  have htask (k : Nat) : plannedTasks { ctx with inboundEvent := e } clock k [o'] =
      plannedTasks ctx clock k [o] := by
    simp only [plannedTasks_cons, plannedTasks_nil, task_sameTime h]
    rfl
  have hcounters := hst.counters
  constructor
  · constructor
    · exact hst.store.customers
    · exact hst.store.accounts
    · simp only [PlanLoop.apply, plannedStore, hdecision, hst.store.policyDecisions]
    · simp only [PlanLoop.apply, plannedStore, htask, hst.store.policyDecisions,
        hst.store.outreachTasks]
  · rw [hcounters]
    simp [PlanLoop.apply, hsome, h.result]

/-- One iteration takes both loop states to the same tables and counters. -/
theorem planProposal_sameTime {p p' : ProposedOutreach} (h : SameProposal p p')
    {st st' : PlanLoop} (hst : SameLoop st st') (ctx : EventContext) (e : InboundEvent) (cap : Nat)
    (clock : Int) :
    Agrees SameLoop (planProposal rt ctx cap clock st p)
      (planProposal rt { ctx with inboundEvent := e } cap clock st' p') := by
  have hrecent : st'.recentCount = st.recentCount := by rw [hst.counters]
  have hkey : keyTaken st'.store { ctx with inboundEvent := e } p'.channel =
      keyTaken st.store ctx p.channel := by
    rw [keyTaken, keyTaken, hst.store.outreachTasks, h.channel]
  rw [planProposal_spec, planProposal_spec, hkey, hrecent]
  refine (decideProposal_sameTime h ctx cap st.recentCount).bind fun o o' ho => ?_
  have hsome : o'.scheduledAt.isSome = o.scheduledAt.isSome := by
    rw [← Option.isSome_map (f := Datetime.instant), ← ho.time, Option.isSome_map]
  rw [hsome]
  split
  · exact .error _
  · exact .ok (apply_sameTime ho hst ctx e clock)

/-- Two forms of one instant, a day or more inside the calendar. -/
structure Forms (a b : OffsetDatetime) : Prop where
  instant : a.toDatetime.instant = b.toDatetime.instant
  first : DayInside a.toDatetime
  second : DayInside b.toDatetime

namespace Forms

variable {a b : OffsetDatetime}

/-- The two forms are one time. -/
theorem sameTime (h : Forms a b) : a.toDatetime.SameTime b.toDatetime := by
  have hfirst : a.toDatetime.tz = .offset a.offset a.offset_lt := rfl
  have hsecond : b.toDatetime.tz = .offset b.offset b.offset_lt := rfl
  exact Datetime.sameTime_of_offset hfirst hsecond h.instant

/-- Moved by less than a day they are still one time. -/
theorem add (h : Forms a b) {δ : Int} (hδ : -day ≤ δ ∧ δ < day) :
    ∃ d e, a.toDatetime.add δ = some d ∧ b.toDatetime.add δ = some e ∧ d.SameTime e := by
  obtain ⟨d, hd⟩ := h.first.add hδ
  obtain ⟨e, he⟩ := h.second.add hδ
  exact ⟨d, e, hd, he, OffsetDatetime.sameTime_add h.instant hd he⟩

/-- The recent attempts are counted from one moment. -/
theorem recentAttemptCount_eq (h : Forms a b) {s s' : Store}
    (hs : s.outreachTasks = s'.outreachTasks) (customerId : Nat) :
    recentAttemptCount s customerId a.toDatetime =
      recentAttemptCount s' customerId b.toDatetime := by
  obtain ⟨d, e, hd, he, hde⟩ := h.add (δ := -(24 * hour)) (by decide)
  rw [recentAttemptCount, recentAttemptCount, hd, he]
  simp only [orThrow, bind, Except.bind, hde.timestamptz, hs]

/-- The next business day is one day of the customer's calendar. -/
theorem nextBusinessDay_eq (h : Forms a b) (key : String) :
    nextBusinessDayAt10 rt a.toDatetime key = nextBusinessDayAt10 rt b.toDatetime key := by
  unfold nextBusinessDayAt10
  simp only [h.sameTime.astimezone]

/-- The same contacts are proposed. -/
theorem proposals (h : Forms a b) {eventType : EventType} (he : PolicyEvent eventType)
    (key : String) :
    Agrees (List.Forall₂ SameProposal) (proposalsForEvent rt eventType a.toDatetime key)
      (proposalsForEvent rt eventType b.toDatetime key) := by
  have hnow : SameProposal ⟨.email, a.toDatetime⟩ ⟨.email, b.toDatetime⟩ := ⟨rfl, h.sameTime⟩
  rcases he with rfl | rfl
  · obtain ⟨d, e, hd, he, hde⟩ := h.add (δ := 30 * minute) (by decide)
    have hsms : SameProposal ⟨.sms, d⟩ ⟨.sms, e⟩ := ⟨rfl, hde⟩
    simp only [proposalsForEvent, hd, he, h.nextBusinessDay_eq]
    refine .bind_same fun call _ => .ok ?_
    have hcall : SameProposal ⟨.call, call⟩ ⟨.call, call⟩ := ⟨rfl, .refl call⟩
    exact .cons hnow (.cons hsms (.cons hcall .nil))
  · obtain ⟨d, e, hd, he, hde⟩ := h.add (δ := 15 * minute) (by decide)
    have hsms : SameProposal ⟨.sms, d⟩ ⟨.sms, e⟩ := ⟨rfl, hde⟩
    simp only [proposalsForEvent, hd, he]
    exact .ok (.cons hnow (.cons hsms .nil))

variable (rt) in
/-- A planning pass ends with the same tables and the same result. -/
theorem planPolicyEvent_agrees (h : Forms a b) {s s' : Store} (hs : SameTables s s')
    {ctx : EventContext} (he : PolicyEvent ctx.inboundEvent.eventType) {e : InboundEvent}
    (htype : e.eventType = ctx.inboundEvent.eventType) (cap : Nat) (clock : Int) :
    Agrees (fun x y => SameTables x.1 y.1 ∧ x.2 = y.2)
      (planPolicyEvent rt s ctx a.toDatetime cap clock)
      (planPolicyEvent rt s' { ctx with inboundEvent := e } b.toDatetime cap clock) := by
  unfold planPolicyEvent
  simp only [hs.policyDecisions]
  split
  · exact .ok ⟨hs, rfl⟩
  · rw [h.recentAttemptCount_eq hs.outreachTasks]
    refine .bind_same fun n _ => ?_
    rw [htype]
    refine (h.proposals he _).bind fun ps ps' hps => ?_
    have hstart : SameLoop { store := s, recentCount := n } { store := s', recentCount := n } :=
      ⟨hs, rfl⟩
    have hstep : ∀ (st st' : PlanLoop) (p p' : ProposedOutreach), SameLoop st st' →
        SameProposal p p' → Agrees SameLoop (planProposal rt ctx cap clock st p)
          (planProposal rt { ctx with inboundEvent := e } cap clock st' p') :=
      fun _ _ _ _ hst hp => planProposal_sameTime hp hst ctx e cap clock
    refine (Agrees.foldlM hstep hps hstart).bind fun st st' hst => .ok ⟨hst.store, ?_⟩
    rw [hst.counters]

/-- A planner call ends with the same tables and the same result. -/
theorem planOutreachForEvent_agrees (h : Forms a b) {s s' : Store} (hs : SameTables s s') {k : Nat}
    {e e' : InboundEvent} (he : s.inboundEvents[k]? = some e)
    (he' : s'.inboundEvents[k]? = some e') (hsame : e' = { e with payload := e'.payload })
    (hpolicy : PolicyEvent e.eventType) (correlationId cap : Nat) (clock : Int) :
    Agrees (fun x y => SameTables x.1 y.1 ∧ x.2 = y.2)
      (planOutreachForEvent rt s k correlationId a.toDatetime cap clock)
      (planOutreachForEvent rt s' k correlationId b.toDatetime cap clock) := by
  generalize e'.payload = payload at hsame
  subst hsame
  have hload : loadCustomerAndAccount s' { e with payload := payload } =
      loadCustomerAndAccount s e := by
    simp only [loadCustomerAndAccount, Store.customerByExternalId, Store.accountByExternalId,
      hs.customers, hs.accounts]
  have hplan (ctx : EventContext) (hctx : ctx.inboundEvent = e) :
      Agrees (fun x y => SameTables x.1 y.1 ∧ x.2 = y.2)
        (planEvent rt s ctx a.toDatetime cap clock)
        (planEvent rt s' { ctx with inboundEvent := { e with payload := payload } } b.toDatetime
          cap clock) := by
    subst hctx
    have hpass := h.planPolicyEvent_agrees rt hs hpolicy
      (e := { ctx.inboundEvent with payload := payload }) rfl cap clock
    rcases hpolicy with hpolicy | hpolicy <;> simpa only [planEvent, hpolicy] using hpass
  unfold planOutreachForEvent
  rw [he, he']
  show Agrees _ (loadCustomerAndAccount s e >>= _)
    (loadCustomerAndAccount s' { e with payload := payload } >>= _)
  rw [hload]
  refine .bind_same fun rows _ => ?_
  exact hplan ⟨k, e, rows.1.1, rows.1.2, rows.2.1, rows.2.2, correlationId⟩ rfl

end Forms

/-! ### Ingestion -/

/-- The insert of an event does not look at its payload. -/
theorem insertInboundEvent_payload (s : Store) {row row' : InboundEvent}
    (h : row' = { row with payload := row'.payload }) :
    (∃ e, insertInboundEvent s row = .error e ∧ insertInboundEvent s row' = .error e) ∨
    insertInboundEvent s row =
        .ok ({ s with inboundEvents := s.inboundEvents ++ [row] }, s.inboundEvents.length) ∧
      insertInboundEvent s row' =
        .ok ({ s with inboundEvents := s.inboundEvents ++ [row'] }, s.inboundEvents.length) := by
  generalize row'.payload = payload at h
  subst h
  have hfits : InboundEvent.fits { row with payload := payload } = row.fits := rfl
  unfold insertInboundEvent
  rw [hfits]
  by_cases h₁ : (!row.fits) = true
  · exact Or.inl ⟨_, if_pos h₁, if_pos h₁⟩
  · rw [if_neg h₁, if_neg h₁]
    by_cases h₂ : (s.inboundEvents.any fun e =>
        e.source = row.source ∧ e.externalId = row.externalId) = true
    · exact Or.inl ⟨_, if_pos h₂, if_pos h₂⟩
    · rw [if_neg h₂, if_neg h₂]
      by_cases h₃ : (s.inboundEvents.any fun e => e.idempotencyKey = row.idempotencyKey) = true
      · exact Or.inl ⟨_, if_pos h₃, if_pos h₃⟩
      · exact Or.inr ⟨if_neg h₃, if_neg h₃⟩

/-- Marking an event as processed keeps the tables. -/
theorem SameTables.markProcessed {s s' : Store} (h : SameTables s s') (k : Nat) :
    SameTables (Domain.markProcessed s k) (Domain.markProcessed s' k) :=
  ⟨h.customers, h.accounts, h.policyDecisions, h.outreachTasks⟩

variable (rt) in
/-- Two forms of the time of an event are two payloads of one row. -/
theorem inboundEventRow_payload (sub : EventSubmission) (b : OffsetDatetime) :
    inboundEventRow rt { sub with occurredAt := b } = { inboundEventRow rt sub with
      payload := (inboundEventRow rt { sub with occurredAt := b }).payload } := rfl

/-- What follows the insert ends with the same tables and the same result. -/
theorem Forms.processInboundEvent_agrees {sub : EventSubmission} {b : OffsetDatetime}
    (h : Forms sub.occurredAt b) (hpolicy : PolicyEvent sub.eventType) (s : Store) (clock : Int) :
    Agrees (fun x y => SameTables x.1 y.1 ∧ x.2 = y.2)
      (processInboundEvent rt
        { s with inboundEvents := s.inboundEvents ++ [inboundEventRow rt sub] }
        (inboundEventRow rt sub) s.inboundEvents.length sub clock)
      (processInboundEvent rt
        { s with inboundEvents := s.inboundEvents ++
            [inboundEventRow rt { sub with occurredAt := b }] }
        (inboundEventRow rt { sub with occurredAt := b }) s.inboundEvents.length
        { sub with occurredAt := b } clock) := by
  unfold processInboundEvent
  have hrow := inboundEventRow_payload rt sub b
  refine Agrees.bind (h.planOutreachForEvent_agrees ?_ ?_ ?_ hrow hpolicy _ _ _) fun x y hxy =>
    .ok ⟨?_, ?_⟩
  · exact ⟨rfl, rfl, rfl, rfl⟩
  · exact List.getElem?_concat_length
  · exact List.getElem?_concat_length
  · exact hxy.1.markProcessed _
  · dsimp only
    rw [hxy.2]

/-- A reply that is read back is the same for both forms. -/
private theorem replied_agrees (s : Store) (eventId : Nat) :
    Agrees (fun x y => SameTables x.1 y.1 ∧ x.2 = y.2)
      ((resultFromExistingEvent s eventId).map fun result => (s, result))
      ((resultFromExistingEvent s eventId).map fun result => (s, result)) := by
  cases resultFromExistingEvent s eventId with
  | error e => exact .error e
  | ok result => exact .ok ⟨⟨rfl, rfl, rfl, rfl⟩, rfl⟩

/-- Ingestion plans an event by the instant at which it occurred: for two forms of that
instant it raises the same exception, or it commits the same customers, accounts, decisions
and tasks and answers with the same counts. -/
theorem ingestEventSnapshot_sameInstant (rt : Runtime) (s : Store) {sub : EventSubmission}
    {occurredAt : OffsetDatetime} (hpolicy : PolicyEvent sub.eventType)
    (h : Forms sub.occurredAt occurredAt) (clock : Int) :
    (∀ customerId, recentAttemptCount s customerId sub.occurredAt.toDatetime =
        recentAttemptCount s customerId occurredAt.toDatetime) ∧
      Agrees (fun x y => SameTables x.1 y.1 ∧ x.2 = y.2)
        (ingestEventSnapshot rt s sub clock)
        (ingestEventSnapshot rt s { sub with occurredAt := occurredAt } clock) := by
  refine ⟨h.recentAttemptCount_eq rfl, ?_⟩
  unfold ingestEventSnapshot
  dsimp only
  split
  · exact replied_agrees s _
  · refine .bind_same fun x _ => .bind_same fun y _ => ?_
    have hinsert := insertInboundEvent_payload y.1
      (inboundEventRow_payload rt sub occurredAt)
    rcases hinsert with ⟨e, he, he'⟩ | ⟨hok, hok'⟩
    · rw [he, he']
      split
      · next heq => cases heq
      · split
        · exact replied_agrees s _
        · exact .error _
      · exact .error _
    · rw [hok, hok']
      exact h.processInboundEvent_agrees hpolicy y.1 clock

end

/-- 2024-01-19T23:30:00Z, a Friday. -/
def lateFriday : OffsetDatetime :=
  ⟨738903 * day + 23 * hour + 30 * minute, 0, utcOffset_mem, by decide⟩

/-- The same moment an hour further east, where it is Saturday. -/
def earlySaturday : OffsetDatetime := ⟨738904 * day + 30 * minute, hour, by decide, by decide⟩

/-- A delinquency at that moment. -/
def midnightEvent : EventSubmission where
  source := "servicing"
  externalId := "event-1"
  eventType := .accountDelinquent
  customer := ⟨"cust-1", "Ada", "UTC", none, none, true, true, true⟩
  account := ⟨"acct-1", .delinquent, 12500, 30⟩
  occurredAt := lateFriday
  metadata := []
  correlationId := 1

/-- Written on either side of midnight it is planned alike. -/
theorem ingestEventSnapshot_sameInstant_demo :
    (∀ customerId, recentAttemptCount Store.empty customerId lateFriday.toDatetime =
        recentAttemptCount Store.empty customerId earlySaturday.toDatetime) ∧
      Agrees (fun x y => SameTables x.1 y.1 ∧ x.2 = y.2)
        (ingestEventSnapshot utcRuntime Store.empty midnightEvent 0)
        (ingestEventSnapshot utcRuntime Store.empty
          { midnightEvent with occurredAt := earlySaturday } 0) := by
  have hforms : Forms lateFriday earlySaturday := by
    refine ⟨by decide, ?_, ?_⟩ <;> exact ⟨by decide, by decide⟩
  have hpolicy : PolicyEvent midnightEvent.eventType := Or.inl rfl
  exact ingestEventSnapshot_sameInstant utcRuntime Store.empty hpolicy hforms 0

end Orchestrator.Domain
