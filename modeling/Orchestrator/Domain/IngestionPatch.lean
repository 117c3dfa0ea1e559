import Orchestrator.Base.Patch
import Orchestrator.Domain.IngestionDecision

/-!
# Ingestions as patches

An ingestion rewrites the rows of its own customer, account and tasks and appends rows. What
it writes depends on the store through a few values only: whether its customer and account
are known, the rows that planning holds, the key of its first decision and the tasks that it
cancels.
-/

namespace Orchestrator.Domain

open Base Orchestration

/-- A patch of every table. -/
structure StorePatch where
  customers : Patch Customer := {}
  accounts : Patch Account := {}
  inboundEvents : Patch InboundEvent := {}
  policyDecisions : Patch PolicyDecision := {}
  outreachTasks : Patch OutreachTask := {}
  auditEvents : Patch AuditEvent := {}

/-- The store after a patch. -/
def StorePatch.apply (p : StorePatch) (s : Store) : Store where
  customers := p.customers.apply s.customers
  accounts := p.accounts.apply s.accounts
  inboundEvents := p.inboundEvents.apply s.inboundEvents
  policyDecisions := p.policyDecisions.apply s.policyDecisions
  outreachTasks := p.outreachTasks.apply s.outreachTasks
  auditEvents := p.auditEvents.apply s.auditEvents

/-- The empty patch changes nothing. -/
theorem StorePatch.apply_empty (s : Store) : StorePatch.apply {} s = s := by
  simp [StorePatch.apply, Patch.apply]

/-- What an event leaves in the row of its customer. -/
def leaveCustomer (sub : EventSubmission) (c : Customer) : Customer :=
  { applyCustomerSnapshot sub.customer c with
    optedOut := c.optedOut || sub.eventType = .optOutReceived }

/-- What an event leaves in the row of its account. -/
def leaveAccount (sub : EventSubmission) (a : Account) : Account :=
  { applyAccountSnapshot sub.account a with
    status := if sub.eventType = .accountPaused then .paused else sub.account.status }

/-- The customers' patch of an event, by whether its customer is known. -/
def customerPatch (sub : EventSubmission) (known : Bool) : Patch Customer where
  update c := if c.externalId = sub.customer.externalId then leaveCustomer sub c else c
  rows := if known then []
    else [leaveCustomer sub (newCustomer sub.customer.externalId sub.customer.fullName)]

/-- The accounts' patch of an event, by whether its account is known. -/
def accountPatch (sub : EventSubmission) (known : Bool) (customerId : Nat) : Patch Account where
  update a := if a.externalId = sub.account.externalId then leaveAccount sub a else a
  rows := if known then [] else [leaveAccount sub (newAccount sub.account customerId)]

/-- Which rows an event finds. -/
structure Known where
  customer : Bool
  account : Bool

/-- The patch of an admitted event. -/
def effectPatch (rt : Runtime) (sub : EventSubmission) (clock : Int) (known : Known)
    (ctx : EventContext) (base : Nat) (cancelled : List (OutreachTask × Nat)) :
    Effect → StorePatch
  | .planned os =>
    { customers := customerPatch sub known.customer
      accounts := accountPatch sub known.account ctx.customerId
      inboundEvents := { rows := [storedEvent rt sub] }
      policyDecisions := { rows := plannedDecisions ctx os }
      outreachTasks := { rows := plannedTasks ctx clock base os }
      auditEvents := { rows := receiptRows rt sub ctx.inboundEventId ++ plannedRows ctx base os } }
  | .cancelled marker =>
    { customers := customerPatch sub known.customer
      accounts := accountPatch sub known.account ctx.customerId
      inboundEvents := { rows := [storedEvent rt sub] }
      outreachTasks := { update := OutreachTask.cancelWhere (cancellable ctx) }
      auditEvents :=
        { rows := receiptRows rt sub ctx.inboundEventId ++ (recordRows ctx ++
            (cancelled.map (cancelledRow ctx) ++ [processedMarker ctx marker])) } }

/-- What an event finds in a store. -/
def knownOf (s : Store) (sub : EventSubmission) : Known where
  customer := (s.customerByExternalId sub.customer.externalId).isSome
  account := (s.accountByExternalId sub.account.externalId).isSome

/-- The effect of an event, if it is neither a replay nor refused. -/
def effectOf (rt : Runtime) (s : Store) (sub : EventSubmission) : Option Effect :=
  if (s.findExistingEvent sub.source sub.externalId).isSome then none
  else (decideIngestion rt sub (readsOf rt s sub)).toOption

/-- The patch of an ingestion. -/
def ingestPatch (rt : Runtime) (s : Store) (sub : EventSubmission) (clock : Int) : StorePatch :=
  (effectOf rt s sub).elim {} (effectPatch rt sub clock (knownOf s sub) (contextOf rt s sub)
    s.policyDecisions.length (Table.select (cancellable (contextOf rt s sub)) s.outreachTasks))

/-- External ids of customers and of accounts are unique. -/
structure UniqueIds (s : Store) : Prop where
  customers : (s.customers.map Customer.externalId).Nodup
  accounts : (s.accounts.map Account.externalId).Nodup

section

variable {rt : Runtime} {s : Store} {sub : EventSubmission} {clock : Int} {effect : Effect}

private theorem recordCustomers_upserted (hu : UniqueIds s) :
    recordCustomers (contextOf rt s sub) (upsertedCustomers s sub) =
      (customerPatch sub (knownOf s sub).customer).apply s.customers := by
  have hmodify : recordCustomers (contextOf rt s sub) (upsertedCustomers s sub) =
      (upsertedCustomers s sub).modify (customerKey s sub)
        (fun c => { c with optedOut := c.optedOut || sub.eventType = .optOutReceived }) := by
    have htype : (contextOf rt s sub).inboundEvent.eventType = sub.eventType := rfl
    have hkey : (contextOf rt s sub).customerId = customerKey s sub := rfl
    rw [recordCustomers, htype, hkey]
    split
    · next he => simp [he]
    · next he =>
      have hid : (fun c : Customer =>
          { c with optedOut := c.optedOut || sub.eventType = .optOutReceived }) = id := by
        funext c
        simp only [decide_eq_false he, Bool.or_false]
        rfl
      rw [hid, List.modify_id]
  rw [hmodify]
  exact Patch.modify_upsert hu.customers _ _ _ _

private theorem recordAccounts_upserted (hu : UniqueIds s) :
    recordAccounts (contextOf rt s sub) (upsertedAccounts s sub) =
      (accountPatch sub (knownOf s sub).account (customerKey s sub)).apply s.accounts := by
  have hmodify : recordAccounts (contextOf rt s sub) (upsertedAccounts s sub) =
      (upsertedAccounts s sub).modify (Table.upsertKey Account.externalId sub.account.externalId
        s.accounts) (fun a => { a with
          status := if sub.eventType = .accountPaused then .paused else a.status }) := by
    have htype : (contextOf rt s sub).inboundEvent.eventType = sub.eventType := rfl
    rw [recordAccounts, htype]
    split
    · next he =>
      simp [he]
      rfl
    · next he =>
      have hid : (fun a : Account =>
          { a with status := if sub.eventType = .accountPaused then .paused else a.status }) =
          id := by
        funext a
        simp only [if_neg he]
        rfl
      rw [hid, List.modify_id]
  rw [hmodify]
  exact Patch.modify_upsert hu.accounts _ _ _ _

/-- The records of a policy event change nothing. -/
private theorem record_policyEvent (ctx : EventContext)
    (h : PolicyEvent ctx.inboundEvent.eventType) (customers : List Customer)
    (accounts : List Account) :
    recordCustomers ctx customers = customers ∧ recordAccounts ctx accounts = accounts := by
  unfold recordCustomers recordAccounts
  rcases h with h | h <;> simp [h]

/-- An admitted event applies its patch. -/
theorem applied_eq_apply (hu : UniqueIds s)
    (hd : Decided rt sub (readsOf rt s sub).optedOut (readsOf rt s sub).recent effect) :
    (applied rt s sub clock effect).1 =
      (effectPatch rt sub clock (knownOf s sub) (contextOf rt s sub) s.policyDecisions.length
        (Table.select (cancellable (contextOf rt s sub)) s.outreachTasks) effect).apply s := by
  have hcustomers : recordCustomers (contextOf rt s sub) (upsertedCustomers s sub) = _ :=
    recordCustomers_upserted hu
  have haccounts : recordAccounts (contextOf rt s sub) (upsertedAccounts s sub) = _ :=
    recordAccounts_upserted hu
  have hevent : (contextOf rt s sub).inboundEventId = s.inboundEvents.length := rfl
  have hkey : (contextOf rt s sub).customerId = customerKey s sub := rfl
  cases hd with
  | planned policyEvent window proposed decided =>
    obtain ⟨hc, ha⟩ := record_policyEvent (contextOf rt s sub) policyEvent
      (upsertedCustomers s sub) (upsertedAccounts s sub)
    rw [hc] at hcustomers
    rw [ha] at haccounts
    simp [applied, effectPatch, StorePatch.apply, hcustomers, haccounts, hevent, hkey]
  | cancelled hmarker =>
    simp [applied, effectPatch, StorePatch.apply, hcustomers, haccounts, hevent, hkey, Patch.apply]

/-- An ingestion applies its patch. -/
theorem ingest_eq_apply (hs : Sourced s) (hu : UniqueIds s) (sub : EventSubmission)
    (clock : Int) : ingest rt s sub clock = (ingestPatch rt s sub clock).apply s := by
  unfold ingest ingestPatch effectOf
  cases hseen : s.findExistingEvent sub.source sub.externalId with
  | some id =>
    rw [ingestEventSnapshot_seen hseen]
    cases resultFromExistingEvent s id <;> simp [Except.map, StorePatch.apply_empty]
  | none =>
    rw [ingestEventSnapshot_eq hs clock hseen]
    cases heffect : decideIngestion rt sub (readsOf rt s sub) with
    | error e => simp [Except.map, Except.toOption, StorePatch.apply_empty]
    | ok effect =>
      have hd := decideEffect_ok (decideIngestion_ok heffect).2.2
      simp [Except.map, Except.toOption, applied_eq_apply hu hd]

end

end Orchestrator.Domain
