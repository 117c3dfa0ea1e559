import Orchestrator.Domain.Renaming

/-!
# Ingestions of different customers

An ingestion touches the rows of its own customer and account alone. After it, another
customer's event reads the same values, is decided the same way, and writes the same patch
in a renamed context.
-/

namespace Orchestrator.Domain

open Base Orchestration

/-- A patch that touches the rows of one event's customer and account alone. -/
structure Confined (rt : Runtime) (s : Store) (sub : EventSubmission) (p : StorePatch) :
    Prop where
  customerId : ∀ c, (p.customers.update c).externalId = c.externalId
  customer : ∀ c, c.externalId ≠ sub.customer.externalId → p.customers.update c = c
  newCustomer : ∀ c ∈ p.customers.rows, c.externalId = sub.customer.externalId
  accountId : ∀ a, (p.accounts.update a).externalId = a.externalId
  account : ∀ a, a.externalId ≠ sub.account.externalId → p.accounts.update a = a
  newAccount : ∀ a ∈ p.accounts.rows, a.externalId = sub.account.externalId
  event : p.inboundEvents.update = id
  newEvent : ∀ e ∈ p.inboundEvents.rows, e = storedEvent rt sub
  decision : p.policyDecisions.update = id
  taskCustomer : ∀ t, (p.outreachTasks.update t).customerId = t.customerId
  task : ∀ t, t.customerId ≠ customerKey s sub → p.outreachTasks.update t = t
  newTask : ∀ t ∈ p.outreachTasks.rows, t.customerId = customerKey s sub
  audit : p.auditEvents.update = id

section

variable {rt : Runtime} {s : Store} {sub : EventSubmission} {clock : Int}

/-- The patch of an event is confined to it. -/
theorem confined_effectPatch {known : Known} {ctx : EventContext} {base : Nat}
    {cancelled : List (OutreachTask × Nat)} {effect : Effect}
    (hctx : ctx.customerId = customerKey s sub) :
    Confined rt s sub (effectPatch rt sub clock known ctx base cancelled effect) := by
  have hcustomerId (c : Customer) :
      ((customerPatch sub known.customer).update c).externalId = c.externalId := by
    simp only [customerPatch]
    split <;> rfl
  have hcustomer (c : Customer) (h : c.externalId ≠ sub.customer.externalId) :
      (customerPatch sub known.customer).update c = c := if_neg h
  have hnewCustomer : ∀ c ∈ (customerPatch sub known.customer).rows,
      c.externalId = sub.customer.externalId := by
    cases hk : known.customer <;> simp [customerPatch, leaveCustomer, newCustomer,
      applyCustomerSnapshot]
  have haccountId (a : Account) :
      ((accountPatch sub known.account ctx.customerId).update a).externalId = a.externalId := by
    simp only [accountPatch]
    split <;> rfl
  have haccount (a : Account) (h : a.externalId ≠ sub.account.externalId) :
      (accountPatch sub known.account ctx.customerId).update a = a := if_neg h
  have hnewAccount : ∀ a ∈ (accountPatch sub known.account ctx.customerId).rows,
      a.externalId = sub.account.externalId := by
    cases hk : known.account <;> simp [accountPatch, leaveAccount, newAccount,
      applyAccountSnapshot]
  cases effect with
  | planned os =>
    refine ⟨hcustomerId, hcustomer, hnewCustomer, haccountId, haccount, hnewAccount, rfl,
      fun e he => List.mem_singleton.mp he, rfl, fun _ => rfl, fun _ _ => rfl, ?_, rfl⟩
    intro t ht
    obtain ⟨j, o, time, -, -, rfl⟩ := mem_plannedTasks.mp ht
    exact hctx
  | cancelled marker =>
    refine ⟨hcustomerId, hcustomer, hnewCustomer, haccountId, haccount, hnewAccount, rfl,
      fun e he => List.mem_singleton.mp he, rfl, ?_, ?_, fun t ht => absurd ht List.not_mem_nil,
      rfl⟩
    · intro t
      simp only [effectPatch, OutreachTask.cancelWhere]
      split <;> rfl
    · intro t ht
      have hnot : cancellable ctx t = false := by
        simp [cancellable, hctx, ht]
      simp [effectPatch, OutreachTask.cancelWhere, hnot]

/-- The patch of an ingestion is confined to its event. -/
theorem confined_ingestPatch (rt : Runtime) (s : Store) (sub : EventSubmission) (clock : Int) :
    Confined rt s sub (ingestPatch rt s sub clock) := by
  unfold ingestPatch
  cases effectOf rt s sub with
  | none =>
    refine ⟨fun _ => rfl, fun _ _ => rfl, ?_, fun _ => rfl, fun _ _ => rfl, ?_, rfl, ?_, rfl,
      fun _ => rfl, fun _ _ => rfl, ?_, rfl⟩ <;> exact fun _ h => absurd h List.not_mem_nil
  | some effect => exact confined_effectPatch rfl

/-- An admitted event's customer is stored under its key. -/
theorem customer_stored {effect : Effect} (h : effectOf rt s sub = some effect) (clock : Int) :
    ∃ c, ((ingestPatch rt s sub clock).apply s).customers[customerKey s sub]? = some c ∧
      c.externalId = sub.customer.externalId := by
  have hpatch : (ingestPatch rt s sub clock).customers =
      customerPatch sub (knownOf s sub).customer := by
    rw [ingestPatch, h]
    cases effect <;> rfl
  have hconfined := confined_ingestPatch rt s sub clock
  unfold StorePatch.apply customerKey Table.upsertKey
  cases hl : Table.lookup Customer.externalId sub.customer.externalId s.customers with
  | some k =>
    obtain ⟨c, hc, hx⟩ := Table.lookup_eq_some hl
    exact ⟨_, Patch.getElem?_apply _ hc, (hconfined.customerId c).trans hx⟩
  | none =>
    have hunknown : (knownOf s sub).customer = false := by
      rw [knownOf, Store.customerByExternalId, hl]
      rfl
    refine ⟨leaveCustomer sub (newCustomer sub.customer.externalId sub.customer.fullName), ?_, rfl⟩
    simp [hpatch, customerPatch, hunknown, Patch.apply]

end

/-- Events with nothing in common. -/
structure Independent (rt : Runtime) (sub other : EventSubmission) : Prop where
  identity : (sub.source, sub.externalId) ≠ (other.source, other.externalId)
  key : inboundEventIdempotencyKey rt sub.source sub.externalId ≠
    inboundEventIdempotencyKey rt other.source other.externalId
  customer : sub.customer.externalId ≠ other.customer.externalId
  account : sub.account.externalId ≠ other.account.externalId

theorem Independent.symm {rt : Runtime} {sub other : EventSubmission}
    (h : Independent rt sub other) : Independent rt other sub :=
  ⟨h.identity.symm, h.key.symm, h.customer.symm, h.account.symm⟩

section

variable {rt : Runtime} {s : Store} {sub other : EventSubmission} {p : StorePatch}

/-! ### What another customer's event finds afterwards -/

/-- The event is found afterwards exactly when it was before. -/
theorem findExistingEvent_apply (hi : Independent rt sub other) (hp : Confined rt s other p) :
    (p.apply s).findExistingEvent sub.source sub.externalId =
      s.findExistingEvent sub.source sub.externalId := by
  refine Patch.lookup_apply (fun e => by rw [hp.event]; rfl) fun e he => ?_
  rw [hp.newEvent e he]
  exact hi.identity.symm

/-- The customer is found afterwards exactly when it was before. -/
theorem customerByExternalId_apply (hi : Independent rt sub other) (hp : Confined rt s other p) :
    Table.lookup Customer.externalId sub.customer.externalId (p.apply s).customers =
      Table.lookup Customer.externalId sub.customer.externalId s.customers := by
  refine Patch.lookup_apply hp.customerId fun c hc => ?_
  rw [hp.newCustomer c hc]
  exact hi.customer.symm

/-- The account is found afterwards exactly when it was before. -/
theorem accountByExternalId_apply (hi : Independent rt sub other) (hp : Confined rt s other p) :
    Table.lookup Account.externalId sub.account.externalId (p.apply s).accounts =
      Table.lookup Account.externalId sub.account.externalId s.accounts := by
  refine Patch.lookup_apply hp.accountId fun a ha => ?_
  rw [hp.newAccount a ha]
  exact hi.account.symm

/-- A renaming under which an event's context afterwards is the one before. -/
structure Carries (σ : Renaming) (s : Store) (sub : EventSubmission) (p : StorePatch) : Prop
    extends σ.Fixes s where
  newCustomer : s.customerByExternalId sub.customer.externalId = none →
    σ.customer s.customers.length = (p.apply s).customers.length
  newAccount : s.accountByExternalId sub.account.externalId = none →
    σ.account s.accounts.length = (p.apply s).accounts.length
  newEvent : σ.event s.inboundEvents.length = (p.apply s).inboundEvents.length

section

variable {σ : Renaming}

/-- The customer's key is renamed. -/
theorem customerKey_apply (hi : Independent rt sub other) (hp : Confined rt s other p)
    (hσ : Carries σ s sub p) : customerKey (p.apply s) sub = σ.customer (customerKey s sub) := by
  unfold customerKey Table.upsertKey
  rw [customerByExternalId_apply hi hp]
  cases h : Table.lookup Customer.externalId sub.customer.externalId s.customers with
  | none => exact (hσ.newCustomer h).symm
  | some k =>
    obtain ⟨c, hc, -⟩ := Table.lookup_eq_some h
    exact (hσ.customer k (List.getElem?_eq_some_iff.mp hc).1).symm

/-- The rows that planning holds are renamed. -/
theorem contextOf_apply (hs : Sourced s) (hi : Independent rt sub other)
    (hp : Confined rt s other p) (hσ : Carries σ s sub p) :
    contextOf rt (p.apply s) sub = σ.onContext (contextOf rt s sub) := by
  have hkey := customerKey_apply hi hp hσ
  have hcustomer : Table.upsertRow Customer.externalId sub.customer.externalId
      (snapshotCustomer sub.customer) (applyCustomerSnapshot sub.customer)
        (p.apply s).customers =
      Table.upsertRow Customer.externalId sub.customer.externalId
        (snapshotCustomer sub.customer) (applyCustomerSnapshot sub.customer) s.customers := by
    unfold Table.upsertRow
    rw [customerByExternalId_apply hi hp]
    cases h : Table.lookup Customer.externalId sub.customer.externalId s.customers with
    | none => rfl
    | some k =>
      obtain ⟨c, hc, hx⟩ := Table.lookup_eq_some h
      have hsame : p.customers.update c = c := hp.customer c (hx ▸ hi.customer)
      have hrow : (p.apply s).customers[k]? = some c := hsame ▸ Patch.getElem?_apply _ hc
      simp only [Option.bind_some, hrow, hc]
  have haccountKey : Table.upsertKey Account.externalId sub.account.externalId
      (p.apply s).accounts =
      σ.account (Table.upsertKey Account.externalId sub.account.externalId s.accounts) := by
    unfold Table.upsertKey
    rw [accountByExternalId_apply hi hp]
    cases h : Table.lookup Account.externalId sub.account.externalId s.accounts with
    | none => exact (hσ.newAccount h).symm
    | some k =>
      obtain ⟨a, ha, -⟩ := Table.lookup_eq_some h
      exact (hσ.account k (List.getElem?_eq_some_iff.mp ha).1).symm
  have haccount : Table.upsertRow Account.externalId sub.account.externalId
      (newAccount sub.account (σ.customer (customerKey s sub)))
        (applyAccountSnapshot sub.account) (p.apply s).accounts =
      σ.onAccount (Table.upsertRow Account.externalId sub.account.externalId
        (newAccount sub.account (customerKey s sub)) (applyAccountSnapshot sub.account)
          s.accounts) := by
    unfold Table.upsertRow
    rw [accountByExternalId_apply hi hp]
    cases h : Table.lookup Account.externalId sub.account.externalId s.accounts with
    | none => rfl
    | some k =>
      obtain ⟨a, ha, hx⟩ := Table.lookup_eq_some h
      have hsame : p.accounts.update a = a := hp.account a (hx ▸ hi.account)
      have hrow : (p.apply s).accounts[k]? = some a := hsame ▸ Patch.getElem?_apply _ ha
      have howner := hσ.customer _ (hs.owners a (List.mem_of_getElem? ha))
      simp only [Option.bind_some, hrow, ha, Option.elim_some, Renaming.onAccount,
        applyAccountSnapshot, howner]
  unfold contextOf Renaming.onContext
  simp only [hcustomer, haccountKey, haccount, hkey, hσ.newEvent]

/-! ### What it selects -/

/-- A selection of one customer's tasks sees only the tasks that were stored before. -/
theorem select_outreachTasks (hp : Confined rt s other p) {key : Nat}
    (hkey : ∀ t, t.customerId = key → p.outreachTasks.update t = t)
    (hnew : ∀ t ∈ p.outreachTasks.rows, t.customerId ≠ key) {q q' : OutreachTask → Bool}
    (hq' : ∀ t, q' t = true → t.customerId = key)
    (hsame : ∀ t ∈ s.outreachTasks, q' t = q t) :
    Table.select q' (p.apply s).outreachTasks = Table.select q s.outreachTasks := by
  have hfalse {t : OutreachTask} (h : t.customerId ≠ key) : q' t = false :=
    Bool.eq_false_iff.mpr fun ht => h (hq' t ht)
  refine Patch.select_apply (fun t ht => ?_) (fun t ht hqt => ?_) fun t ht => hfalse (hnew t ht)
  · by_cases h : t.customerId = key
    · rw [hkey t h, hsame t ht]
    · rw [hfalse (by rwa [hp.taskCustomer]), ← hsame t ht, hfalse h]
  · exact hkey t (hq' t (by rw [hsame t ht, hqt]))

/-- An admitted event's customer is not the other event's. -/
theorem customerKey_ne {effect : Effect} (hi : Independent rt sub other)
    (h : effectOf rt s other = some effect) (clock : Int) : customerKey s other ≠
      customerKey ((ingestPatch rt s other clock).apply s) sub := by
  obtain ⟨c, hc, hx⟩ := customer_stored h clock
  intro hkey
  unfold customerKey Table.upsertKey at hkey
  cases hl : Table.lookup Customer.externalId sub.customer.externalId
      ((ingestPatch rt s other clock).apply s).customers with
  | none =>
    have hlt := (List.getElem?_eq_some_iff.mp hc).1
    rw [hl, Option.getD_none] at hkey
    unfold customerKey Table.upsertKey at hlt
    omega
  | some k =>
    obtain ⟨c', hc', hx'⟩ := Table.lookup_eq_some hl
    rw [hl, Option.getD_some] at hkey
    unfold customerKey Table.upsertKey at hc
    rw [hkey, hc', Option.some.injEq] at hc
    exact hi.customer (by rw [← hx, ← hx', hc])

/-- An ingestion leaves the tasks of every other customer alone, and adds none. -/
theorem tasks_spared (hi : Independent rt sub other) (clock : Int) :
    let p := ingestPatch rt s other clock
    (∀ t, t.customerId = customerKey (p.apply s) sub → p.outreachTasks.update t = t) ∧
      ∀ t ∈ p.outreachTasks.rows, t.customerId ≠ customerKey (p.apply s) sub := by
  intro p
  have hp : Confined rt s other p := confined_ingestPatch rt s other clock
  cases h : effectOf rt s other with
  | none =>
    have hempty : p = {} := by
      simp only [p, ingestPatch, h]
      rfl
    rw [hempty]
    exact ⟨fun _ _ => rfl, fun _ ht => absurd ht List.not_mem_nil⟩
  | some effect =>
    have hne := customerKey_ne hi h clock
    refine ⟨fun t ht => hp.task t fun h' => hne (h'.symm.trans ht), fun t ht h' => ?_⟩
    exact hne ((hp.newTask t ht).symm.trans h')

/-- The tasks that the event may cancel afterwards are those that it might before. -/
theorem select_cancellable (hs : Sourced s) (hi : Independent rt sub other) (clock : Int)
    (hσ : Carries σ s sub (ingestPatch rt s other clock)) :
    Table.select (cancellable (contextOf rt ((ingestPatch rt s other clock).apply s) sub))
        ((ingestPatch rt s other clock).apply s).outreachTasks =
      Table.select (cancellable (contextOf rt s sub)) s.outreachTasks := by
  have hp := confined_ingestPatch rt s other clock
  obtain ⟨hkey, hnew⟩ := tasks_spared (s := s) hi clock
  refine select_outreachTasks hp hkey hnew (fun t ht => ?_) fun t ht => ?_
  · simp only [cancellable, Bool.and_eq_true, decide_eq_true_eq] at ht
    exact ht.1.2
  · rw [contextOf_apply hs hi hp hσ]
    calc cancellable (σ.onContext (contextOf rt s sub)) t
        = cancellable (σ.onContext (contextOf rt s sub)) (σ.onTask t) := by
          rw [hσ.onTask_eq hs ht]
      _ = cancellable (contextOf rt s sub) t := Renaming.cancellable_onContext t

/-! ### What it reads, decides and writes -/

/-- A renaming that makes room for one row in every table. -/
private def room (s : Store) (p : StorePatch) : Renaming where
  customer := blockSwap s.customers.length 1 p.customers.rows.length
  account := blockSwap s.accounts.length 1 p.accounts.rows.length
  event := blockSwap s.inboundEvents.length 1 p.inboundEvents.rows.length
  decision := blockSwap s.policyDecisions.length 1 p.policyDecisions.rows.length
  task := blockSwap s.outreachTasks.length 1 p.outreachTasks.rows.length
  audit := blockSwap s.auditEvents.length 1 p.auditEvents.rows.length

private theorem carries_room (s : Store) (sub : EventSubmission) (p : StorePatch) :
    Carries (room s p) s sub p where
  customer _ h := blockSwap_of_lt _ _ h
  account _ h := blockSwap_of_lt _ _ h
  event _ h := blockSwap_of_lt _ _ h
  decision _ h := blockSwap_of_lt _ _ h
  task _ h := blockSwap_of_lt _ _ h
  audit _ h := blockSwap_of_lt _ _ h
  newCustomer _ := (blockSwap_add _ Nat.one_pos).trans (Patch.length_apply _ _).symm
  newAccount _ := (blockSwap_add _ Nat.one_pos).trans (Patch.length_apply _ _).symm
  newEvent := (blockSwap_add _ Nat.one_pos).trans (Patch.length_apply _ _).symm

/-- The event reads what it would have read before. -/
theorem readsOf_apply (hs : Sourced s) (hi : Independent rt sub other) (clock : Int) :
    readsOf rt ((ingestPatch rt s other clock).apply s) sub = readsOf rt s sub := by
  have hp := confined_ingestPatch rt s other clock
  have hσ := carries_room s sub (ingestPatch rt s other clock)
  have hctx := contextOf_apply hs hi hp hσ
  have hkey := customerKey_apply hi hp hσ
  obtain ⟨hspared, hnew⟩ := tasks_spared (s := s) hi clock
  have hrecent : ((ingestPatch rt s other clock).apply s).outreachTasks.countP (recentTask
        (customerKey ((ingestPatch rt s other clock).apply s) sub)
        (sub.occurredAt.toDatetime.instant - day)) =
      s.outreachTasks.countP (recentTask (customerKey s sub)
        (sub.occurredAt.toDatetime.instant - day)) := by
    rw [← Table.length_select, ← Table.length_select]
    refine congrArg List.length (select_outreachTasks hp hspared hnew (fun t ht => ?_)
      fun t ht => ?_)
    · simp only [recentTask, Bool.and_eq_true, decide_eq_true_eq] at ht
      exact ht.1.1
    · have hcustomer := hσ.customer _ (hs.tasks t ht).customer
      have hiff : t.customerId = customerKey ((ingestPatch rt s other clock).apply s) sub ↔
          t.customerId = customerKey s sub := by
        conv_lhs => rw [hkey, ← hcustomer]
        exact (room s _).customer.apply_eq_iff_eq
      simp only [recentTask, hiff]
  have htaken : ((ingestPatch rt s other clock).apply s).inboundEvents.any (fun e =>
        e.idempotencyKey = inboundEventIdempotencyKey rt sub.source sub.externalId) =
      s.inboundEvents.any fun e =>
        e.idempotencyKey = inboundEventIdempotencyKey rt sub.source sub.externalId := by
    have hrows : (ingestPatch rt s other clock).inboundEvents.rows.any (fun e =>
        e.idempotencyKey = inboundEventIdempotencyKey rt sub.source sub.externalId) = false := by
      rw [List.any_eq_false]
      intro e he
      rw [hp.newEvent e he, decide_eq_true_eq]
      exact hi.key.symm
    simp only [StorePatch.apply, Patch.apply, hp.event, List.map_id, List.any_append, hrows,
      Bool.or_false]
  have hforeign : (contextOf rt ((ingestPatch rt s other clock).apply s) sub).account.customerId =
        customerKey ((ingestPatch rt s other clock).apply s) sub ↔
      (contextOf rt s sub).account.customerId = customerKey s sub := by
    rw [hctx, hkey]
    exact (room s _).customer.apply_eq_iff_eq
  unfold readsOf
  simp only [hrecent, htaken, ne_eq, hforeign]
  rw [hctx]
  rfl

/-- The event has the effect that it would have had before. -/
theorem effectOf_apply (hs : Sourced s) (hi : Independent rt sub other) (clock : Int) :
    effectOf rt ((ingestPatch rt s other clock).apply s) sub = effectOf rt s sub := by
  unfold effectOf
  rw [findExistingEvent_apply hi (confined_ingestPatch rt s other clock), readsOf_apply hs hi]

/-- The renaming between the two orders of two patches. -/
def swapOf (s : Store) (p p' : StorePatch) : Renaming where
  customer := blockSwap s.customers.length p.customers.rows.length p'.customers.rows.length
  account := blockSwap s.accounts.length p.accounts.rows.length p'.accounts.rows.length
  event := blockSwap s.inboundEvents.length p.inboundEvents.rows.length
    p'.inboundEvents.rows.length
  decision := blockSwap s.policyDecisions.length p.policyDecisions.rows.length
    p'.policyDecisions.rows.length
  task := blockSwap s.outreachTasks.length p.outreachTasks.rows.length
    p'.outreachTasks.rows.length
  audit := blockSwap s.auditEvents.length p.auditEvents.rows.length p'.auditEvents.rows.length

/-- Swapping the patches turns the renaming round. -/
theorem swapOf_symm (s : Store) (p p' : StorePatch) : (swapOf s p p').symm = swapOf s p' p := rfl

/-- Used ids keep their names. -/
theorem fixes_swapOf (s : Store) (p p' : StorePatch) : (swapOf s p p').Fixes s where
  customer _ h := blockSwap_of_lt _ _ h
  account _ h := blockSwap_of_lt _ _ h
  event _ h := blockSwap_of_lt _ _ h
  decision _ h := blockSwap_of_lt _ _ h
  task _ h := blockSwap_of_lt _ _ h
  audit _ h := blockSwap_of_lt _ _ h

/-- An admitted event's context is renamed so. -/
theorem carries_swapOf {effect : Effect} (h : effectOf rt s sub = some effect) (clock : Int)
    (p : StorePatch) : Carries (swapOf s (ingestPatch rt s sub clock) p) s sub p where
  toFixes := fixes_swapOf s _ p
  newCustomer hnone := by
    have hone : 0 < (ingestPatch rt s sub clock).customers.rows.length := by
      rw [ingestPatch, h]
      cases effect <;> simp [effectPatch, customerPatch, knownOf, hnone]
    exact (blockSwap_add _ hone).trans (Patch.length_apply _ _).symm
  newAccount hnone := by
    have hone : 0 < (ingestPatch rt s sub clock).accounts.rows.length := by
      rw [ingestPatch, h]
      cases effect <;> simp [effectPatch, accountPatch, knownOf, hnone]
    exact (blockSwap_add _ hone).trans (Patch.length_apply _ _).symm
  newEvent := by
    have hone : 0 < (ingestPatch rt s sub clock).inboundEvents.rows.length := by
      rw [ingestPatch, h]
      cases effect <;> simp [effectPatch]
    exact (blockSwap_add _ hone).trans (Patch.length_apply _ _).symm

/-- The event writes the renamed patch. -/
theorem moves_ingestPatch (hs : Sourced s) (hi : Independent rt sub other) (clock clock' : Int) :
    (swapOf s (ingestPatch rt s sub clock) (ingestPatch rt s other clock')).Moves
      (ingestPatch rt s sub clock)
      (ingestPatch rt ((ingestPatch rt s other clock').apply s) sub clock) := by
  have hp := confined_ingestPatch rt s other clock'
  have heffect := effectOf_apply hs hi clock'
  cases h : effectOf rt s sub with
  | none =>
    have hempty (s' : Store) (h' : effectOf rt s' sub = none) :
        ingestPatch rt s' sub clock = {} := by
      rw [ingestPatch, h']
      rfl
    rw [hempty s h, hempty _ (heffect.trans h)]
    constructor <;> exact ⟨rfl, fun _ => rfl⟩
  | some effect =>
    have hσ := carries_swapOf h clock (ingestPatch rt s other clock')
    have hknown : knownOf ((ingestPatch rt s other clock').apply s) sub = knownOf s sub := by
      unfold knownOf Store.customerByExternalId Store.accountByExternalId
      rw [customerByExternalId_apply hi hp, accountByExternalId_apply hi hp]
    have hselect := select_cancellable hs hi clock' hσ
    have hctx := contextOf_apply hs hi hp hσ
    have hbefore : ingestPatch rt s sub clock = effectPatch rt sub clock (knownOf s sub)
        (contextOf rt s sub) s.policyDecisions.length
        (Table.select (cancellable (contextOf rt s sub)) s.outreachTasks) effect := by
      rw [ingestPatch, h]
      rfl
    have hafter : ingestPatch rt ((ingestPatch rt s other clock').apply s) sub clock =
        effectPatch rt sub clock (knownOf s sub)
          ((swapOf s (ingestPatch rt s sub clock)
            (ingestPatch rt s other clock')).onContext (contextOf rt s sub))
          ((ingestPatch rt s other clock').apply s).policyDecisions.length
          (Table.select (cancellable (contextOf rt s sub)) s.outreachTasks) effect := by
      rw [ingestPatch, heffect, h, Option.elim_some, hselect, hknown, hctx]
    rw [hafter]
    conv =>
      arg 2
      rw [hbefore]
    refine Renaming.moves_effectPatch ?_ ?_
    · rintro os rfl j hj
      have hrows : (ingestPatch rt s sub clock).policyDecisions.rows.length = os.length := by
        rw [hbefore]
        exact length_plannedDecisions os
      exact (blockSwap_add _ (hrows ▸ hj)).trans
        (congrArg (· + j) (Patch.length_apply _ _).symm)
    · rintro ⟨t, k⟩ hx
      exact hσ.task k (List.getElem?_eq_some_iff.mp (Table.mem_select.mp hx).1).1

end

end

end Orchestrator.Domain
