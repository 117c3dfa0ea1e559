import Orchestrator.Domain.IngestionEffect
import Orchestrator.Orchestration.Outcomes

/-!
# What a first ingestion reads, decides and writes

The ingestion of an unseen event in three parts: the few values that it reads from the
store, the decision that it takes from these and from its own snapshot, and the rows
that it writes. The code interleaves the three; on a store whose references are sound
the composition is exact, errors included.
-/

namespace Orchestrator.Domain

open Base Orchestration Policy

/-- What a first ingestion reads from the store: the opt-out of its customer, whether its
account belongs to another one, whether its replay key is taken, and the customer's
recent attempts. -/
structure Reads where
  optedOut : Bool
  foreign : Bool
  keyTaken : Bool
  recent : Nat
  deriving DecidableEq, Repr

/-- What a first ingestion does to its customer: plan outreach or cancel it. -/
inductive Effect where
  | planned (outcomes : List Outcome)
  | cancelled (marker : AuditEventType)

/-- The customer row that a new customer's snapshot gives. -/
def snapshotCustomer (snapshot : CustomerSnapshot) : Customer :=
  applyCustomerSnapshot snapshot (newCustomer snapshot.externalId snapshot.fullName)

/-- Customers after the upsert of an event. -/
def upsertedCustomers (s : Store) (sub : EventSubmission) : List Customer :=
  Table.upsert Customer.externalId sub.customer.externalId (snapshotCustomer sub.customer)
    (applyCustomerSnapshot sub.customer) s.customers

/-- Key of the customer of an event. -/
def customerKey (s : Store) (sub : EventSubmission) : Nat :=
  Table.upsertKey Customer.externalId sub.customer.externalId s.customers

/-- Accounts after the upsert of an event. -/
def upsertedAccounts (s : Store) (sub : EventSubmission) : List Account :=
  Table.upsert Account.externalId sub.account.externalId
    (newAccount sub.account (customerKey s sub)) (applyAccountSnapshot sub.account) s.accounts

/-- The rows that planning an unseen event holds in memory. -/
def contextOf (rt : Runtime) (s : Store) (sub : EventSubmission) : EventContext where
  inboundEventId := s.inboundEvents.length
  inboundEvent := inboundEventRow rt sub
  customerId := customerKey s sub
  customer := Table.upsertRow Customer.externalId sub.customer.externalId
    (snapshotCustomer sub.customer) (applyCustomerSnapshot sub.customer) s.customers
  accountId := Table.upsertKey Account.externalId sub.account.externalId s.accounts
  account := Table.upsertRow Account.externalId sub.account.externalId
    (newAccount sub.account (customerKey s sub)) (applyAccountSnapshot sub.account) s.accounts
  correlationId := sub.correlationId

/-- A task that counts as a recent attempt of a customer since an instant,
`src/orchestrator/orchestration/planner.py:408–417`. -/
def recentTask (customerId : Nat) (since : Int) (t : OutreachTask) : Bool :=
  t.customerId = customerId && recentAttemptStatus t.status && since ≤ t.createdAt

/-- The values that a first ingestion reads. -/
def readsOf (rt : Runtime) (s : Store) (sub : EventSubmission) : Reads where
  optedOut := (contextOf rt s sub).customer.optedOut
  foreign := (contextOf rt s sub).account.customerId ≠ customerKey s sub
  keyTaken := s.inboundEvents.any fun e =>
    e.idempotencyKey = inboundEventIdempotencyKey rt sub.source sub.externalId
  recent := s.outreachTasks.countP
    (recentTask (customerKey s sub) (sub.occurredAt.toDatetime.instant - day))

/-- The policy input of a proposal: everything but the opt-out and the count is the event's
own snapshot. -/
def snapshotInput (sub : EventSubmission) (optedOut : Bool) (recent : Nat)
    (p : ProposedOutreach) : PolicyInput where
  channel := p.channel
  scheduledAt := p.scheduledAt
  customerTimezone := sub.customer.timezone
  smsConsent := sub.customer.smsConsent
  callConsent := sub.customer.callConsent
  emailConsent := sub.customer.emailConsent
  optedOut := optedOut
  accountStatus := sub.account.status
  recentOutboundAttemptCount := recent
  frequencyCap := defaultFrequencyCap

/-- The start of the 24 hours that are counted must be a datetime and an instant. -/
def checkWindow (at' : OffsetDatetime) : Except Failure Unit := do
  let since ← orThrow .overflow (at'.toDatetime.add (-(24 * hour)))
  let _ ← orThrow .overflow since.timestamptz
  .ok ()

/-- The decision of an admitted event, by its type. -/
def decideEffect (rt : Runtime) (sub : EventSubmission) (optedOut : Bool) (recent : Nat) :
    Except Failure Effect :=
  match sub.eventType with
  | .accountDelinquent | .paymentFailed => do
    checkWindow sub.occurredAt
    let ps ← proposalsForEvent rt sub.eventType sub.occurredAt.toDatetime sub.customer.timezone
    let os ← decideAll rt (snapshotInput sub optedOut) recent ps
    .ok (.planned os)
  | .paymentReceived => .ok (.cancelled .plannerPaymentReceivedProcessed)
  | .optOutReceived => .ok (.cancelled .plannerOptOutProcessed)
  | .hardshipRequested => .ok (.cancelled .plannerHardshipProcessed)
  | .accountPaused => .ok (.cancelled .plannerAccountPausedProcessed)
  | .other text => .error (.valueError ("Unsupported inbound event type: " ++ text))

/-- The decision of an unseen event: its rows must fit their columns, its account must not
be another customer's and its replay key must be free. -/
def decideIngestion (rt : Runtime) (sub : EventSubmission) (reads : Reads) :
    Except Failure Effect :=
  if !(snapshotCustomer sub.customer).fits then .error (.dataError "customers")
  else if reads.foreign then
    .error (.eventIngestionValidation "Account external_id already belongs to another customer")
  else if !(newAccount sub.account 0).fits then .error (.dataError "accounts")
  else if !(inboundEventRow rt sub).fits then .error (.dataError "inbound_events")
  else if reads.keyTaken then .error (.integrity .inboundEventsIdempotencyKey)
  else decideEffect rt sub reads.optedOut reads.recent

/-- What a first ingestion writes, and the result that it returns. -/
def applied (rt : Runtime) (s : Store) (sub : EventSubmission) (clock : Int) (effect : Effect) :
    Store × EventIngestionResult :=
  let ctx := contextOf rt s sub
  match effect with
  | .planned os =>
    ({ customers := upsertedCustomers s sub
       accounts := upsertedAccounts s sub
       inboundEvents := s.inboundEvents ++ [storedEvent rt sub]
       policyDecisions := s.policyDecisions ++ plannedDecisions ctx os
       outreachTasks := s.outreachTasks ++ plannedTasks ctx clock s.policyDecisions.length os
       auditEvents := s.auditEvents ++ (receiptRows rt sub s.inboundEvents.length ++
         plannedRows ctx s.policyDecisions.length os) },
      resultFromPlanner s.inboundEvents.length (plannedResult s.inboundEvents.length os))
  | .cancelled marker =>
    ({ customers := recordCustomers ctx (upsertedCustomers s sub)
       accounts := recordAccounts ctx (upsertedAccounts s sub)
       inboundEvents := s.inboundEvents ++ [storedEvent rt sub]
       policyDecisions := s.policyDecisions
       outreachTasks := s.outreachTasks.map (OutreachTask.cancelWhere (cancellable ctx))
       auditEvents := s.auditEvents ++ (receiptRows rt sub s.inboundEvents.length ++
         (recordRows ctx ++ ((Table.select (cancellable ctx) s.outreachTasks).map
           (cancelledRow ctx) ++ [processedMarker ctx marker]))) },
      { eventId := s.inboundEvents.length
        createdTasks := 0
        blockedTasks := 0
        deferredTasks := 0
        cancelledTasks := s.outreachTasks.countP (cancellable ctx)
        policyDecisions := 0 })

/-- The two kinds of decision, with their grounds. -/
inductive Decided (rt : Runtime) (sub : EventSubmission) (optedOut : Bool) (recent : Nat) :
    Effect → Prop where
  | planned {ps : List ProposedOutreach} {os : List Outcome}
      (policyEvent : PolicyEvent sub.eventType)
      (window : checkWindow sub.occurredAt = .ok ())
      (proposed : proposalsForEvent rt sub.eventType sub.occurredAt.toDatetime
        sub.customer.timezone = .ok ps)
      (decided : decideAll rt (snapshotInput sub optedOut) recent ps = .ok os) :
      Decided rt sub optedOut recent (.planned os)
  | cancelled {marker : AuditEventType} (h : processedMarkers sub.eventType = some marker) :
      Decided rt sub optedOut recent (.cancelled marker)

/-- The decision of a policy event: its window, its proposals and their outcomes. -/
theorem decideEffect_policyEvent {rt : Runtime} {sub : EventSubmission}
    (he : PolicyEvent sub.eventType) (optedOut : Bool) (recent : Nat) :
    decideEffect rt sub optedOut recent = (do
      checkWindow sub.occurredAt
      let ps ← proposalsForEvent rt sub.eventType sub.occurredAt.toDatetime sub.customer.timezone
      let os ← decideAll rt (snapshotInput sub optedOut) recent ps
      .ok (Effect.planned os)) := by
  unfold decideEffect
  rcases he with he | he <;> simp only [he]

/-- A successful decision is of one of the two kinds. -/
theorem decideEffect_ok {rt : Runtime} {sub : EventSubmission} {optedOut : Bool} {recent : Nat}
    {effect : Effect} (h : decideEffect rt sub optedOut recent = .ok effect) :
    Decided rt sub optedOut recent effect := by
  by_cases he : PolicyEvent sub.eventType
  · rw [decideEffect_policyEvent he] at h
    obtain ⟨_, hwindow, h⟩ := bind_eq_ok.mp h
    obtain ⟨ps, hps, h⟩ := bind_eq_ok.mp h
    obtain ⟨os, hos, h⟩ := bind_eq_ok.mp h
    cases h
    exact .planned he hwindow hps hos
  · rw [PolicyEvent, not_or] at he
    unfold decideEffect at h
    cases ht : sub.eventType with
    | accountDelinquent => exact absurd ht he.1
    | paymentFailed => exact absurd ht he.2
    | other text =>
      simp only [ht] at h
      cases h
    | _ =>
      simp only [ht] at h
      cases h
      exact .cancelled (by rw [ht]; rfl)

/-- A successful decision admitted the event. -/
theorem decideIngestion_ok {rt : Runtime} {sub : EventSubmission} {reads : Reads}
    {effect : Effect} (h : decideIngestion rt sub reads = .ok effect) :
    reads.foreign = false ∧ reads.keyTaken = false ∧
      decideEffect rt sub reads.optedOut reads.recent = .ok effect := by
  unfold decideIngestion at h
  split at h
  · cases h
  · split at h
    · cases h
    · next hforeign =>
      split at h
      · cases h
      · split at h
        · cases h
        · split at h
          · cases h
          · next hkey => exact ⟨Bool.eq_false_iff.mpr hforeign, Bool.eq_false_iff.mpr hkey, h⟩

/-- The rows of an admitted event fit their columns. -/
theorem decideIngestion_fits {rt : Runtime} {sub : EventSubmission} {reads : Reads}
    {effect : Effect} (h : decideIngestion rt sub reads = .ok effect) :
    (snapshotCustomer sub.customer).fits = true ∧ (newAccount sub.account 0).fits = true ∧
      (inboundEventRow rt sub).fits = true := by
  unfold decideIngestion at h
  split at h
  · cases h
  · next hcustomer =>
    split at h
    · cases h
    · split at h
      · cases h
      · next haccount =>
        split at h
        · cases h
        · next hevent =>
          rw [Bool.not_eq_true', Bool.not_eq_false] at hcustomer haccount hevent
          exact ⟨hcustomer, haccount, hevent⟩

/-- Deciding a policy event raises only exceptions of time arithmetic. -/
theorem decideEffect_policyEvent_raises {rt : Runtime} {sub : EventSubmission}
    (he : PolicyEvent sub.eventType) (optedOut : Bool) (recent : Nat) :
    Raises (TimeFailure rt sub.customer.timezone) (decideEffect rt sub optedOut recent) := by
  have hkey (n : Nat) (p : ProposedOutreach) :
      (snapshotInput sub optedOut n p).customerTimezone = sub.customer.timezone := rfl
  rw [decideEffect_policyEvent he]
  refine .bind ?_ fun _ _ => .bind (proposalsForEvent_raises he _ _) fun _ _ =>
    .bind (decideAll_raises hkey _ _) fun _ _ => .ok _
  exact .bind (.orThrow .overflow _) fun _ _ => .bind (.orThrow .overflow _) fun _ _ => .ok _

/-- Deciding an admitted event raises only exceptions of planning. -/
theorem decideEffect_raises (rt : Runtime) (sub : EventSubmission) (optedOut : Bool)
    (recent : Nat) : Raises PlanningFailure (decideEffect rt sub optedOut recent) := by
  by_cases he : PolicyEvent sub.eventType
  · exact (decideEffect_policyEvent_raises he optedOut recent).mono fun _ => TimeFailure.planning
  · rw [PolicyEvent, not_or] at he
    unfold decideEffect
    cases ht : sub.eventType with
    | accountDelinquent => exact absurd ht he.1
    | paymentFailed => exact absurd ht he.2
    | other text => exact .error trivial
    | _ => exact .ok _

/-- The exceptions of an ingestion. The only unique index among them is the replay key's. -/
def IngestionFailure : Failure → Prop
  | .taskStateConflict _ => False
  | .integrity index => index = .inboundEventsIdempotencyKey
  | _ => True

/-- An ingestion raises for its rows, its account, its replay key or its plan. -/
theorem decideIngestion_raises (rt : Runtime) (sub : EventSubmission) (reads : Reads) :
    Raises IngestionFailure (decideIngestion rt sub reads) := by
  unfold decideIngestion
  split
  · exact .error trivial
  · split
    · exact .error trivial
    · split
      · exact .error trivial
      · split
        · exact .error trivial
        · split
          · exact .error rfl
          · refine (decideEffect_raises rt sub _ _).mono fun e he => ?_
            cases e <;> trivial

/-- An ingestion whose replay key is free violates no unique index. -/
theorem decideIngestion_free (rt : Runtime) (sub : EventSubmission) {reads : Reads}
    (h : reads.keyTaken = false) :
    Raises (fun e => ∀ index, e ≠ .integrity index) (decideIngestion rt sub reads) := by
  unfold decideIngestion
  rw [h]
  split
  · exact .error (by simp)
  · split
    · exact .error (by simp)
    · split
      · exact .error (by simp)
      · split
        · exact .error (by simp)
        · refine (decideEffect_raises rt sub _ _).mono fun e he index hindex => ?_
          rw [hindex] at he
          exact he

/-! ### The parts of the code's ingestion -/

section

variable {rt : Runtime} {s : Store} {sub : EventSubmission}

/-- An updated customer row fits exactly when the new row of its snapshot would. -/
theorem applyCustomerSnapshot_fits {snapshot : CustomerSnapshot} {c : Customer}
    (h : c.externalId = snapshot.externalId) :
    (applyCustomerSnapshot snapshot c).fits = (snapshotCustomer snapshot).fits := by
  simp [Customer.fits, applyCustomerSnapshot, snapshotCustomer, newCustomer, h]

/-- The customer upsert succeeds exactly when its row fits. -/
theorem upsertCustomer_eq (s : Store) (sub : EventSubmission) :
    upsertCustomer s sub.customer =
      if (snapshotCustomer sub.customer).fits then
        .ok ({ s with customers := upsertedCustomers s sub }, customerKey s sub)
      else .error (.dataError "customers") := by
  unfold upsertCustomer upsertedCustomers customerKey Table.upsert Table.upsertKey
    Store.customerByExternalId
  cases hl : Table.lookup Customer.externalId sub.customer.externalId s.customers with
  | none => rfl
  | some k =>
    obtain ⟨c, hc, hx⟩ := Table.lookup_eq_some hl
    simp [hc, applyCustomerSnapshot_fits hx]

/-- The account upsert succeeds exactly when the account is not another customer's and its
row fits. -/
theorem upsertAccount_eq (rt : Runtime) (s : Store) (sub : EventSubmission)
    (customers : List Customer) :
    upsertAccount { s with customers := customers } sub.account (customerKey s sub) =
      if (readsOf rt s sub).foreign then .error (.eventIngestionValidation
        "Account external_id already belongs to another customer")
      else if (newAccount sub.account 0).fits then
        .ok ({ s with customers := customers, accounts := upsertedAccounts s sub },
          (contextOf rt s sub).accountId)
      else .error (.dataError "accounts") := by
  unfold upsertAccount upsertedAccounts readsOf contextOf Table.upsert Table.upsertKey
    Table.upsertRow Store.accountByExternalId
  cases hl : Table.lookup Account.externalId sub.account.externalId s.accounts with
  | none => simp [newAccount, Account.fits]
  | some k =>
    obtain ⟨a, ha, hx⟩ := Table.lookup_eq_some hl
    simp [ha, applyAccountSnapshot, newAccount, Account.fits, hx]

/-- The insert of an unseen event succeeds exactly when its row fits and its key is free. -/
theorem insertInboundEvent_eq (h : s.findExistingEvent sub.source sub.externalId = none)
    (customers : List Customer) (accounts : List Account) :
    insertInboundEvent { s with customers := customers, accounts := accounts }
        (inboundEventRow rt sub) =
      if !(inboundEventRow rt sub).fits then .error (.dataError "inbound_events")
      else if (readsOf rt s sub).keyTaken then .error (.integrity .inboundEventsIdempotencyKey)
      else .ok ({ s with
        customers := customers
        accounts := accounts
        inboundEvents := s.inboundEvents ++ [inboundEventRow rt sub] },
        s.inboundEvents.length) := by
  have hpair : s.inboundEvents.any (fun e => decide (e.source = (inboundEventRow rt sub).source ∧
      e.externalId = (inboundEventRow rt sub).externalId)) = false := by
    rw [Store.findExistingEvent, Table.lookup_eq_none] at h
    rw [List.any_eq_false]
    intro e he hsame
    have hsame := of_decide_eq_true hsame
    exact h e he (Prod.ext hsame.1 hsame.2)
  unfold insertInboundEvent
  simp only [hpair]
  rfl

/-- The recent count of an event is a check of its window and a count of rows. -/
theorem recentAttemptCount_eq (s : Store) (customerId : Nat) (at' : OffsetDatetime) :
    recentAttemptCount s customerId at'.toDatetime = (checkWindow at').map fun _ =>
      s.outreachTasks.countP (recentTask customerId (at'.toDatetime.instant - day)) := by
  unfold recentAttemptCount checkWindow
  cases hsince : at'.toDatetime.add (-(24 * hour)) with
  | none => rfl
  | some since =>
    cases hu : since.timestamptz with
    | none => simp [orThrow, bind, Except.bind, Except.map, hu]
    | some u =>
      obtain ⟨hw, -, htz⟩ := Datetime.ofWall_eq_some hsince
      have hinstant : u = at'.toDatetime.instant - day := by
        rw [Datetime.timestamptz_eq_some hu]
        simp only [Datetime.instant, Datetime.utcoffset, htz, hw, OffsetDatetime.toDatetime,
          TzInfo.utcoffset, day]
        omega
      simp only [orThrow, bind, Except.bind, Except.map, hu, hinstant]
      rfl

/-- The upserts of an unseen event whose account is not another customer's. -/
theorem contextOf_fresh (hnew : s.findExistingEvent sub.source sub.externalId = none)
    (hown : (readsOf rt s sub).foreign = false) :
    Fresh rt s sub (contextOf rt s sub) (upsertedCustomers s sub) (upsertedAccounts s sub) where
  unseen := hnew
  inboundEventId := rfl
  inboundEvent := rfl
  correlationId := rfl
  customer := Table.upsert_spec _ _ _ _ _
  account := Table.upsert_spec _ _ _ _ _
  owner := not_not.mp (of_decide_eq_false hown)

/-- The planner's policy input is the event's own snapshot. -/
theorem policyInput_eq (h : Fresh rt s sub (contextOf rt s sub) (upsertedCustomers s sub)
    (upsertedAccounts s sub)) :
    policyInput (contextOf rt s sub) defaultFrequencyCap =
      snapshotInput sub (readsOf rt s sub).optedOut := by
  obtain ⟨htz, hconsent⟩ := h.snapshot
  have hstatus := h.status
  have hsms : (contextOf rt s sub).customer.smsConsent = sub.customer.smsConsent :=
    congrFun hconsent .sms
  have hcall : (contextOf rt s sub).customer.callConsent = sub.customer.callConsent :=
    congrFun hconsent .call
  have hemail : (contextOf rt s sub).customer.emailConsent = sub.customer.emailConsent :=
    congrFun hconsent .email
  funext n p
  simp only [policyInput, snapshotInput, htz, hsms, hcall, hemail, hstatus, readsOf]

/-- The references of a task, with so many customers, accounts and events stored. -/
structure TaskRefs (customers accounts events : Nat) (t : OutreachTask) : Prop where
  customer : t.customerId < customers
  account : t.accountId < accounts
  event : t.idempotencyKey.inboundEventId < events

/-- The references of a decision. -/
structure DecisionRefs (customers accounts : Nat) (d : PolicyDecision) : Prop where
  customer : d.customerId < customers
  account : d.accountId < accounts

/-- The references of an audit row to customers, accounts and decisions. -/
structure EntityRefs (customers accounts decisions : Nat) (a : AuditEvent) : Prop where
  customer : a.entityType = .customer → a.entityId < customers
  account : a.entityType = .account → a.entityId < accounts
  decision : a.entityType = .policyDecision → a.entityId < decisions

/-- Every reference of the store points at a row that exists. -/
structure Sourced (s : Store) : Prop extends WellFormed s where
  owners : ∀ a ∈ s.accounts, a.customerId < s.customers.length
  decisions : ∀ d ∈ s.policyDecisions, DecisionRefs s.customers.length s.accounts.length d
  tasks : ∀ t ∈ s.outreachTasks,
    TaskRefs s.customers.length s.accounts.length s.inboundEvents.length t
  audits : ∀ a ∈ s.auditEvents,
    EntityRefs s.customers.length s.accounts.length s.policyDecisions.length a

/-- The store and the planner's result after an effect, before the event is marked. -/
private def plannedBy (rt : Runtime) (s : Store) (sub : EventSubmission) (clock : Int)
    (effect : Effect) : Store × PlannerResult :=
  let ctx := contextOf rt s sub
  let accepted := acceptedStore rt s sub (upsertedCustomers s sub) (upsertedAccounts s sub)
  match effect with
  | .planned os => (plannedStore ctx clock accepted os, plannedResult s.inboundEvents.length os)
  | .cancelled marker => (cancelledStore accepted ctx marker,
      { inboundEventId := s.inboundEvents.length
        cancelledTasks := s.outreachTasks.countP (cancellable ctx) })

private theorem planPolicyEvent_decided (hs : Sourced s) (clock : Int)
    (h : Fresh rt s sub (contextOf rt s sub) (upsertedCustomers s sub) (upsertedAccounts s sub)) :
    planPolicyEvent rt (acceptedStore rt s sub (upsertedCustomers s sub) (upsertedAccounts s sub))
        (contextOf rt s sub) sub.occurredAt.toDatetime defaultFrequencyCap clock =
      Except.map (plannedBy rt s sub clock) (do
        checkWindow sub.occurredAt
        let ps ← proposalsForEvent rt sub.eventType sub.occurredAt.toDatetime
          sub.customer.timezone
        let os ← decideAll rt (snapshotInput sub (readsOf rt s sub).optedOut)
          (readsOf rt s sub).recent ps
        .ok (.planned os)) := by
  have hkey : ∀ t ∈ s.outreachTasks, t.idempotencyKey.inboundEventId ≠
      (contextOf rt s sub).inboundEventId := fun t ht => Nat.ne_of_lt (hs.tasks t ht).event
  have hplan : planPolicyEvent rt
      (acceptedStore rt s sub (upsertedCustomers s sub) (upsertedAccounts s sub))
      (contextOf rt s sub) sub.occurredAt.toDatetime defaultFrequencyCap clock = _ :=
    planPolicyEvent_eq (h.undecided hs.toWellFormed) hkey
  have htype : (contextOf rt s sub).inboundEvent.eventType = sub.eventType := rfl
  have hrecent : (acceptedStore rt s sub (upsertedCustomers s sub)
      (upsertedAccounts s sub)).outreachTasks.countP (recentTask (contextOf rt s sub).customerId
        (sub.occurredAt.toDatetime.instant - day)) = (readsOf rt s sub).recent := rfl
  rw [hplan, recentAttemptCount_eq, policyInput_eq h, h.snapshot.1, htype]
  cases checkWindow sub.occurredAt with
  | error e => rfl
  | ok _ =>
    cases proposalsForEvent rt sub.eventType sub.occurredAt.toDatetime sub.customer.timezone with
    | error e => rfl
    | ok ps =>
      simp only [bind, Except.bind, Except.map, hrecent]
      cases decideAll rt (snapshotInput sub (readsOf rt s sub).optedOut)
        (readsOf rt s sub).recent ps <;> rfl

private theorem planEvent_eq (hs : Sourced s) (clock : Int)
    (h : Fresh rt s sub (contextOf rt s sub) (upsertedCustomers s sub) (upsertedAccounts s sub)) :
    planEvent rt (acceptedStore rt s sub (upsertedCustomers s sub) (upsertedAccounts s sub))
        (contextOf rt s sub) sub.occurredAt.toDatetime defaultFrequencyCap clock =
      (decideEffect rt sub (readsOf rt s sub).optedOut (readsOf rt s sub).recent).map
        (plannedBy rt s sub clock) := by
  have htype : (contextOf rt s sub).inboundEvent.eventType = sub.eventType := rfl
  have hpolicy := planPolicyEvent_decided hs clock h
  have hcancel {marker : AuditEventType} {record : Store → Store}
      (hc : CancellingEvent (contextOf rt s sub) marker record) :
      handleOnce (acceptedStore rt s sub (upsertedCustomers s sub) (upsertedAccounts s sub))
        (contextOf rt s sub) marker record = plannedBy rt s sub clock (.cancelled marker) :=
    handleOnce_fresh hc (h.unmarked hs.toWellFormed hc)
  unfold planEvent decideEffect
  rw [htype]
  cases he : sub.eventType <;> simp only
  · rw [he] at hpolicy
    exact hpolicy
  · rw [he] at hpolicy
    exact hpolicy
  · exact congrArg Except.ok (hcancel (.paymentReceived he))
  · exact congrArg Except.ok (hcancel (.hardshipRequested he))
  · exact congrArg Except.ok (hcancel (.optOutReceived he))
  · exact congrArg Except.ok (hcancel (.accountPaused he))
  · rfl

private theorem markProcessed_plannedBy (clock : Int) (effect : Effect) :
    (markProcessed (plannedBy rt s sub clock effect).1 s.inboundEvents.length,
      resultFromPlanner s.inboundEvents.length (plannedBy rt s sub clock effect).2) =
      applied rt s sub clock effect := by
  have hstored : (fun e : InboundEvent => { e with processingStatus := .processed })
      (inboundEventRow rt sub) = storedEvent rt sub := rfl
  cases effect with
  | planned os =>
    simp only [plannedBy, applied, plannedStore, acceptedStore, markProcessed,
      Table.modify_append_length, hstored, List.append_assoc]
  | cancelled marker =>
    simp only [plannedBy, applied, cancelledStore, acceptedStore, markProcessed,
      Table.modify_append_length, hstored, List.append_assoc, resultFromPlanner]

private theorem processInboundEvent_eq (hs : Sourced s) (clock : Int)
    (h : Fresh rt s sub (contextOf rt s sub) (upsertedCustomers s sub) (upsertedAccounts s sub)) :
    processInboundEvent rt { s with
        customers := upsertedCustomers s sub
        accounts := upsertedAccounts s sub
        inboundEvents := s.inboundEvents ++ [inboundEventRow rt sub] }
        (inboundEventRow rt sub) s.inboundEvents.length sub clock =
      (decideEffect rt sub (readsOf rt s sub).optedOut (readsOf rt s sub).recent).map
        (applied rt s sub clock) := by
  have hplan : planOutreachForEvent rt (acceptedStore rt s sub (upsertedCustomers s sub)
      (upsertedAccounts s sub)) s.inboundEvents.length sub.correlationId
        sub.occurredAt.toDatetime defaultFrequencyCap clock =
      (decideEffect rt sub (readsOf rt s sub).optedOut (readsOf rt s sub).recent).map
        (plannedBy rt s sub clock) := by
    rw [← planEvent_eq hs clock h]
    exact planOutreachForEvent_accepted (h.customer.found (fun _ => rfl) rfl) h.customer.stored
      (h.account.found (fun _ => rfl) rfl) h.account.stored h.owner
  have haccepted : Store.appendAuditEvent (Store.appendAuditEvent { s with
        customers := upsertedCustomers s sub
        accounts := upsertedAccounts s sub
        inboundEvents := s.inboundEvents ++ [inboundEventRow rt sub] }
      (ingestionAudit (inboundEventRow rt sub) s.inboundEvents.length sub.correlationId
        .eventReceived .apiClient))
      (ingestionAudit (inboundEventRow rt sub) s.inboundEvents.length sub.correlationId
        .eventAccepted .system) =
      acceptedStore rt s sub (upsertedCustomers s sub) (upsertedAccounts s sub) := by
    simp [acceptedStore, receiptRows, Store.appendAuditEvent]
  simp only [processInboundEvent, haccepted, hplan]
  cases decideEffect rt sub (readsOf rt s sub).optedOut (readsOf rt s sub).recent with
  | error e => rfl
  | ok effect => exact congrArg Except.ok (markProcessed_plannedBy clock effect)

/-- The ingestion of an unseen event reads, decides and writes. -/
theorem ingestEventSnapshot_eq (hs : Sourced s) (clock : Int)
    (hnew : s.findExistingEvent sub.source sub.externalId = none) :
    ingestEventSnapshot rt s sub clock =
      (decideIngestion rt sub (readsOf rt s sub)).map (applied rt s sub clock) := by
  unfold ingestEventSnapshot decideIngestion
  simp only [hnew, upsertCustomer_eq]
  cases hcustomer : (snapshotCustomer sub.customer).fits with
  | false => rfl
  | true =>
    simp only [if_true, bind, Except.bind, upsertAccount_eq rt]
    cases hforeign : (readsOf rt s sub).foreign with
    | true => rfl
    | false =>
      cases haccount : (newAccount sub.account 0).fits with
      | false => rfl
      | true =>
        simp only [if_true, Bool.false_eq_true, if_false, insertInboundEvent_eq hnew]
        cases hevent : (inboundEventRow rt sub).fits with
        | false => rfl
        | true =>
          cases hkey : (readsOf rt s sub).keyTaken with
          | true => rfl
          | false =>
            have hfresh := contextOf_fresh hnew hforeign
            exact processInboundEvent_eq hs clock hfresh

end

/-! ### The customer that an event names -/

/-- The stored opt-out of a customer; an unknown customer has none. -/
def storedOptOut (s : Store) (externalId : String) : Bool :=
  ((s.customerByExternalId externalId).bind fun id => s.customers[id]?).any Customer.optedOut

/-- The recent attempts of a customer at a time; an unknown customer has none. -/
def storedRecentAttempts (s : Store) (externalId : String) (now : Datetime) :
    Except Failure Nat :=
  ((s.customerByExternalId externalId).map fun id => recentAttemptCount s id now).getD (.ok 0)

/-- The snapshot of an event does not change the opt-out that planning reads. -/
theorem readsOf_optedOut (rt : Runtime) (s : Store) (sub : EventSubmission) :
    (readsOf rt s sub).optedOut = storedOptOut s sub.customer.externalId := by
  unfold readsOf contextOf Table.upsertRow storedOptOut Store.customerByExternalId
  cases h : Table.lookup Customer.externalId sub.customer.externalId s.customers with
  | none => rfl
  | some id =>
    obtain ⟨c, hc, -⟩ := Table.lookup_eq_some h
    simp [hc, applyCustomerSnapshot]

/-- Planning counts the recent attempts of the stored customer. -/
theorem readsOf_recent (rt : Runtime) {s : Store} (hs : Sourced s) {sub : EventSubmission}
    (hwindow : checkWindow sub.occurredAt = .ok ()) :
    storedRecentAttempts s sub.customer.externalId sub.occurredAt.toDatetime =
      .ok (readsOf rt s sub).recent := by
  unfold storedRecentAttempts readsOf customerKey Table.upsertKey Store.customerByExternalId
  cases Table.lookup Customer.externalId sub.customer.externalId s.customers with
  | some id =>
    rw [Option.map_some, Option.getD_some, recentAttemptCount_eq, hwindow]
    rfl
  | none =>
    have hnone : ∀ t ∈ s.outreachTasks, ¬recentTask s.customers.length
        (sub.occurredAt.toDatetime.instant - day) t = true := by
      intro t ht h
      simp only [recentTask, Bool.and_eq_true, decide_eq_true_eq] at h
      exact Nat.ne_of_lt (hs.tasks t ht).customer h.1.1
    rw [Option.getD_none, List.countP_eq_zero.mpr hnone]
    rfl

/-! ### References -/

section

variable {customers customers' accounts accounts' events events' decisions decisions' : Nat}

/-- More rows keep the references of a task. -/
theorem TaskRefs.mono {t : OutreachTask} (h : TaskRefs customers accounts events t)
    (hc : customers ≤ customers') (ha : accounts ≤ accounts') (he : events ≤ events') :
    TaskRefs customers' accounts' events' t :=
  ⟨Nat.lt_of_lt_of_le h.customer hc, Nat.lt_of_lt_of_le h.account ha,
    Nat.lt_of_lt_of_le h.event he⟩

/-- More rows keep the references of a decision. -/
theorem DecisionRefs.mono {d : PolicyDecision} (h : DecisionRefs customers accounts d)
    (hc : customers ≤ customers') (ha : accounts ≤ accounts') :
    DecisionRefs customers' accounts' d :=
  ⟨Nat.lt_of_lt_of_le h.customer hc, Nat.lt_of_lt_of_le h.account ha⟩

/-- More rows keep the references of an audit row. -/
theorem EntityRefs.mono {a : AuditEvent} (h : EntityRefs customers accounts decisions a)
    (hc : customers ≤ customers') (ha : accounts ≤ accounts') (hd : decisions ≤ decisions') :
    EntityRefs customers' accounts' decisions' a :=
  ⟨fun he => Nat.lt_of_lt_of_le (h.customer he) hc, fun he => Nat.lt_of_lt_of_le (h.account he) ha,
    fun he => Nat.lt_of_lt_of_le (h.decision he) hd⟩

/-- References of a task that keeps its planned columns. -/
theorem TaskRefs.planned {t t' : OutreachTask} (h : TaskRefs customers accounts events t)
    (hp : t'.planned = t.planned) : TaskRefs customers accounts events t' := by
  have hcustomer : t'.customerId = t.customerId := congrArg (fun x => x.customerId) hp
  have haccount : t'.accountId = t.accountId := congrArg (fun x => x.accountId) hp
  have hkey : t'.idempotencyKey = t.idempotencyKey := congrArg (fun x => x.idempotencyKey) hp
  exact ⟨hcustomer ▸ h.customer, haccount ▸ h.account, hkey ▸ h.event⟩

/-- A row about a task or an event refers to no customer, account or decision. -/
theorem EntityRefs.other {a : AuditEvent}
    (h : a.entityType = .outreachTask ∨ a.entityType = .inboundEvent) :
    EntityRefs customers accounts decisions a := by
  rcases h with h | h <;> constructor <;> intro he <;> rw [h] at he <;> cases he

/-- The planner's rows of a pass refer to its own account and decisions. -/
theorem plannedRows_refs {ctx : EventContext} {base : Nat} {os : List Outcome}
    (ha : ctx.accountId < accounts) (hd : base + os.length ≤ decisions) :
    ∀ a ∈ plannedRows ctx base os, EntityRefs customers accounts decisions a := by
  intro a hmem
  obtain ⟨j, o, ho, rfl | hexit | ⟨time, rfl⟩⟩ := mem_plannedRows hmem
  · have hj := (List.getElem?_eq_some_iff.mp ho).1
    refine ⟨by rintro ⟨⟩, by rintro ⟨⟩, fun _ => ?_⟩
    simp only [decisionRecordedRow, plannerAudit]
    omega
  · have hrow : a = blockedRow ctx o.result ∨ a = deferredRow ctx o.result := by
      unfold exitRows at hexit
      split at hexit <;> simp_all
    rcases hrow with rfl | rfl <;> exact ⟨by rintro ⟨⟩, fun _ => ha, by rintro ⟨⟩⟩
  · exact ⟨by rintro ⟨⟩, fun _ => ha, by rintro ⟨⟩⟩

/-- The record of a cancelling event refers to its own customer or account. -/
theorem recordRows_refs {ctx : EventContext} (hc : ctx.customerId < customers)
    (ha : ctx.accountId < accounts) :
    ∀ a ∈ recordRows ctx, EntityRefs customers accounts decisions a := by
  unfold recordRows
  split <;> simp only [List.mem_singleton, List.not_mem_nil, forall_eq, false_imp_iff,
    implies_true]
  · exact ⟨fun _ => hc, by rintro ⟨⟩, by rintro ⟨⟩⟩
  · exact ⟨by rintro ⟨⟩, fun _ => ha, by rintro ⟨⟩⟩
  · exact ⟨by rintro ⟨⟩, fun _ => ha, by rintro ⟨⟩⟩

end

end Orchestrator.Domain
