import Orchestrator.System.Provenance

/-!
# What holds when a worker claims a task

Quiet hours, consent and account state are checked when a task is planned and not again
when it is claimed. A first attempt was scheduled inside the window, and the rows at the
claim are those of the latest events; a late pass, a retry or a newer snapshot may
violate what planning had checked.
-/

namespace Orchestrator.System

open Base Domain Orchestration Policy Workers

/-! ### Quiet hours -/

/-- Pass times of a run. -/
def passTimes (ops : List Op) : List Int :=
  ops.filterMap fun
    | .startPass _ config => some config.now
    | _ => none

/-- Retry delays of a run. -/
def retryDelays (ops : List Op) : List Int :=
  ops.filterMap fun
    | .startPass _ config => some config.retryDelay
    | _ => none

/-- A claimed SMS or call is due, and on its first attempt it was scheduled inside the
window of the zone in the snapshot of the event that planned it. -/
theorem first_attempt_scheduled_in_window (rt : Runtime) (clock : Int) (ops : List Op) (next : Op)
    (c : Claim) (hclaim : claimed (run (step rt) (start clock) ops) next = some c)
    (hchannel : c.task.channel ≠ .email) :
    let s := (run (step rt) (start clock) ops).store
    ∃ e customer, planningEvent s c.task = some e ∧
      s.customers[c.task.customerId]? = some customer ∧
      customer.externalId = e.customerExternalId ∧ c.task.scheduledAt ≤ c.now ∧
      (c.task.attemptCount = 1 → ∀ z, rt.zoneInfo e.payload.customer.timezone = some z →
        z.RegularOn outreachWindowStart outreachWindowEnd →
        InWindow outreachWindowStart outreachWindowEnd z c.task.scheduledAt) := by
  intro s
  obtain ⟨_, _, _, t, -, -, -, ht, hdue, he⟩ := claimed_eq_some hclaim
  obtain ⟨e, hp⟩ := run_provenance rt clock ops ht
  obtain ⟨customer, hrow, hx⟩ := hp.customer
  rw [he] at hchannel ⊢
  refine ⟨e, customer, hp.planned, hrow, hx, (due_iff.mp hdue).2, fun hone => ?_⟩
  exact hp.inWindow (Nat.succ.inj hone) hchannel

/-- The text message of a payment failure, claimed for the first time at `now`. -/
def demoSms (now : Int) : Claim where
  taskId := 1
  now := now
  task :=
    { demoDispatching with
      channel := .sms
      scheduledAt := demoMonday + 12 * hour + 15 * minute
      idempotencyKey := ⟨0, .sms⟩
      policyDecisionId := some 1 }

/-- A pass that has dispatched the email of a payment failure. -/
def demoPass (now : Int) : List Op :=
  [.ingestEvent (demoEvent "event-1" .paymentFailed "acct-1" demoNoon), .startPass 0 { now := now },
    .claim 0, .settle 0 (.delivered ⟨"mock-1", []⟩)]

/-- A text message claimed at half past twelve. -/
theorem first_attempt_scheduled_in_window_demo :
    let s := (run (step demoRuntime) (start 0)
      (demoPass (demoMonday + 12 * hour + 30 * minute))).store
    let c := demoSms (demoMonday + 12 * hour + 30 * minute)
    ∃ e customer, planningEvent s c.task = some e ∧
      s.customers[c.task.customerId]? = some customer ∧
      customer.externalId = e.customerExternalId ∧ c.task.scheduledAt ≤ c.now ∧
      (c.task.attemptCount = 1 → ∀ z, demoRuntime.zoneInfo e.payload.customer.timezone = some z →
        z.RegularOn outreachWindowStart outreachWindowEnd →
        InWindow outreachWindowStart outreachWindowEnd z c.task.scheduledAt) :=
  first_attempt_scheduled_in_window demoRuntime 0 (demoPass (demoMonday + 12 * hour + 30 * minute))
    (.claim 0) (demoSms (demoMonday + 12 * hour + 30 * minute)) (by decide +kernel) (by decide)

/-- A pass at eleven at night claims the text message of that noon. -/
theorem claim_in_quiet_hours :
    ¬ ∀ (rt : Runtime) (clock : Int) (ops : List Op) (next : Op) (c : Claim)
      (customer : Customer) (z : TimeZone),
      (passTimes ops).Pairwise (· ≤ ·) → (∀ δ ∈ retryDelays ops, 0 ≤ δ) →
      claimed (run (step rt) (start clock) ops) next = some c → c.task.channel ≠ .email →
      (run (step rt) (start clock) ops).store.customers[c.task.customerId]? = some customer →
      rt.zoneInfo customer.timezone = some z →
      InWindow outreachWindowStart outreachWindowEnd z c.now := by
  intro h
  have hlate := h demoRuntime 0 (demoPass (demoMonday + 23 * hour)) (.claim 0)
    (demoSms (demoMonday + 23 * hour))
    (applyCustomerSnapshot demoCustomer (newCustomer "cust-1" "Ada")) utc (by decide) (by decide)
    (by decide +kernel) (by decide) (by decide +kernel) rfl
  exact absurd hlate (by decide)

/-! ### Consent and account state -/

/-- The rows of a task, the event that planned it, and the latest events of its customer
and of its account. -/
structure SendState (s : Store) (t : OutreachTask) (customer : Customer) (account : Account)
    (plan lastOfCustomer lastOfAccount : InboundEvent) : Prop where
  customerRow : s.customers[t.customerId]? = some customer
  accountRow : s.accounts[t.accountId]? = some account
  planned : planningEvent s t = some plan
  planCustomer : plan.customerExternalId = customer.externalId
  planAccount : plan.accountExternalId = account.externalId
  consentedThen : plan.payload.customer.consent t.channel = true
  openThen : plan.payload.account.status ≠ .paused ∧ plan.payload.account.status ≠ .resolved
  latestOfCustomer : latest (fun e => e.customerExternalId = customer.externalId)
    s.inboundEvents = some lastOfCustomer
  latestOfAccount : latest (fun e => e.accountExternalId = account.externalId)
    s.inboundEvents = some lastOfAccount
  consentNow : customer.consent t.channel = lastOfCustomer.payload.customer.consent t.channel
  statusNow : account.status = lastOfAccount.leavesStatus

/-- A claimed task was planned by an event of its customer and account whose snapshot gave
consent and an open account; at the claim the rows are those of their latest events. -/
theorem claim_send_state (rt : Runtime) (clock : Int) (ops : List Op) (next : Op) (c : Claim)
    (hclaim : claimed (run (step rt) (start clock) ops) next = some c) :
    ∃ customer account plan lastOfCustomer lastOfAccount,
      SendState (run (step rt) (start clock) ops).store c.task customer account plan
        lastOfCustomer lastOfAccount := by
  obtain ⟨_, _, _, t, -, -, -, ht, -, he⟩ := claimed_eq_some hclaim
  obtain ⟨plan, hp⟩ := run_provenance rt clock ops ht
  have hm := run_mirrors rt clock ops
  obtain ⟨customer, hcustomer, hcx⟩ := hp.customer
  obtain ⟨account, haccount, hax⟩ := hp.account
  obtain ⟨lastOfCustomer, hlc, hconsent⟩ := hm.customer _ customer hcustomer
  obtain ⟨lastOfAccount, hla, hstatus⟩ := hm.account _ account haccount
  rw [he]
  exact ⟨customer, account, plan, lastOfCustomer, lastOfAccount,
    { customerRow := hcustomer
      accountRow := haccount
      planned := hp.planned
      planCustomer := hcx.symm
      planAccount := hax.symm
      consentedThen := hp.consented
      openThen := hp.accountOpen
      latestOfCustomer := hlc
      latestOfAccount := hla
      consentNow := congrFun hconsent _
      statusNow := hstatus }⟩

/-- The email of a payment failure, claimed at noon. -/
theorem claim_send_state_demo :
    ∃ customer account plan lastOfCustomer lastOfAccount,
      SendState (run (step demoRuntime) (start 0)
        [.ingestEvent (demoEvent "event-1" .paymentFailed "acct-1" demoNoon),
          .startPass 0 { now := demoMonday + 12 * hour }]).store demoDispatching customer account
        plan lastOfCustomer lastOfAccount :=
  claim_send_state demoRuntime 0 _ (.claim 0) ⟨0, demoMonday + 12 * hour, demoDispatching⟩
    (by decide +kernel)

/-- A second payment failure withdraws the consent for email, and the email of the first
is claimed. -/
theorem claim_without_consent :
    ¬ ∀ (rt : Runtime) (clock : Int) (ops : List Op) (next : Op) (c : Claim)
      (customer : Customer) (account : Account),
      claimed (run (step rt) (start clock) ops) next = some c →
      (run (step rt) (start clock) ops).store.customers[c.task.customerId]? = some customer →
      (run (step rt) (start clock) ops).store.accounts[c.task.accountId]? = some account →
      customer.consent c.task.channel = true ∧ account.status ≠ .paused ∧
        account.status ≠ .resolved := by
  intro h
  have hrevoked := h demoRuntime 0
    [.ingestEvent (demoEvent "event-1" .paymentFailed "acct-1" demoNoon),
      .ingestEvent { demoEvent "event-2" .paymentFailed "acct-1" demoNoon with
        customer := { demoCustomer with emailConsent := false } },
      .startPass 0 { now := demoMonday + 12 * hour }]
    (.claim 0) ⟨0, demoMonday + 12 * hour, demoDispatching⟩
    (applyCustomerSnapshot { demoCustomer with emailConsent := false }
      (newCustomer "cust-1" "Ada"))
    (newAccount (demoAccount "acct-1") 0) (by decide +kernel) (by decide +kernel)
    (by decide +kernel)
  exact absurd hrevoked.1 (by decide)

end Orchestrator.System
