import Orchestrator.Domain.IngestionFrame
import Orchestrator.System.Provenance
import Orchestrator.System.Replay
import Orchestrator.System.Transactions

/-!
# Independent customers

Two events with different identities, keys, customers and accounts can be ingested in either
order: the stores are the same up to the names of the generated ids, so are the two outcomes,
and neither ingestion touches a row of the other's customer.
-/

namespace Orchestrator.System

open Base Domain Orchestration

/-- What the caller of an ingestion gets back: its counts or the exception. -/
def outcome (rt : Runtime) (s : Store) (sub : EventSubmission) (clock : Int) :
    Except Failure EventIngestionResult :=
  (ingestEventSnapshot rt s sub clock).map Prod.snd

section

variable {rt : Runtime} {s : Store} {sub other : EventSubmission}

/-- An ingestion is a step of the system. -/
private theorem ingest_step (rt : Runtime) (s : Store) (sub : EventSubmission) (clock : Int) :
    (step rt ⟨s, fun _ => none, clock⟩ (.ingestEvent sub)).store = ingest rt s sub clock := rfl

/-- An ingestion keeps every reference. -/
theorem ingest_sourced (hs : Sourced s) (sub : EventSubmission) (clock : Int) :
    Sourced (ingest rt s sub clock) :=
  ingest_step rt s sub clock ▸ step_sourced rt ⟨s, fun _ => none, clock⟩ (.ingestEvent sub) hs

/-- The store evolves in an ingestion. -/
theorem ingest_evolves (rt : Runtime) (hs : Sourced s) (sub : EventSubmission) (clock : Int) :
    Evolves s (ingest rt s sub clock) :=
  step_evolves rt ⟨s, fun _ => none, clock⟩ (.ingestEvent sub) hs.toWellFormed

/-- An ingestion keeps the rows mirroring their latest events. -/
theorem ingest_mirrors (hs : Sourced s) (hm : Mirrors s) (sub : EventSubmission) (clock : Int) :
    Mirrors (ingest rt s sub clock) := by
  unfold ingest
  split
  · next h => exact ingested_mirrors hm (ingestEventSnapshot_ingested hs.toWellFormed h)
  · exact hm

/-- A reply that is read back is the same after an ingestion. -/
theorem resultFromExistingEvent_ingest (hs : Sourced s) (sub : EventSubmission) (clock : Int)
    {id : Nat} (hid : id < s.inboundEvents.length) :
    resultFromExistingEvent (ingest rt s sub clock) id = resultFromExistingEvent s id := by
  have hreadable : cancellationsReadable (ingest rt s sub clock) = cancellationsReadable s := by
    unfold ingest
    split
    · next h => exact ingested_readable (ingestEventSnapshot_ingested hs.toWellFormed h)
    · rfl
  rw [resultFromExistingEvent, resultFromExistingEvent, hreadable,
    storedResult_evolves hs.toWellFormed (ingest_evolves rt hs sub clock) hid]

/-- Mirrored rows have unique external ids. -/
theorem Mirrors.uniqueIds (hm : Mirrors s) : UniqueIds s := ⟨hm.customerIds, hm.accountIds⟩

/-! ### Outcomes -/

/-- The outcome of a replay is the reply that it reads back. -/
theorem outcome_seen {id : Nat} (hseen : s.findExistingEvent sub.source sub.externalId = some id)
    (clock : Int) : outcome rt s sub clock = resultFromExistingEvent s id := by
  rw [outcome, ingestEventSnapshot_seen hseen]
  cases resultFromExistingEvent s id <;> rfl

/-- The outcome of an event is decided by its effect. -/
theorem outcome_unseen (hs : Sourced s) (clock : Int)
    (hnew : s.findExistingEvent sub.source sub.externalId = none) :
    outcome rt s sub clock =
      (decideIngestion rt sub (readsOf rt s sub)).map fun effect =>
        (applied rt s sub clock effect).2 := by
  rw [outcome, ingestEventSnapshot_eq hs clock hnew]
  cases decideIngestion rt sub (readsOf rt s sub) <;> rfl

/-- Afterwards an event has the outcome that it would have had before, renamed. -/
theorem outcome_apply (hs : Sourced s) (hm : Mirrors s) (hi : Independent rt sub other)
    (clock clock' : Int) :
    outcome rt (ingest rt s other clock') sub clock = (outcome rt s sub clock).map
      (swapOf s (ingestPatch rt s sub clock) (ingestPatch rt s other clock')).onResult := by
  have hafter : ingest rt s other clock' = (ingestPatch rt s other clock').apply s :=
    ingest_eq_apply hs hm.uniqueIds other clock'
  have hsourced : Sourced ((ingestPatch rt s other clock').apply s) :=
    hafter ▸ ingest_sourced hs other clock'
  have hp := confined_ingestPatch rt s other clock'
  have hfound := findExistingEvent_apply hi hp
  cases hseen : s.findExistingEvent sub.source sub.externalId with
  | some id =>
    have hlt := findExistingEvent_lt hseen
    have hresult : resultFromExistingEvent (ingest rt s other clock') id =
        resultFromExistingEvent s id := resultFromExistingEvent_ingest hs other clock' hlt
    have hid := (fixes_swapOf s (ingestPatch rt s sub clock)
      (ingestPatch rt s other clock')).event id hlt
    have hbefore : outcome rt s sub clock = resultFromExistingEvent s id :=
      outcome_seen hseen clock
    have hthen : outcome rt (ingest rt s other clock') sub clock =
        resultFromExistingEvent s id := by
      rw [outcome_seen (hafter ▸ hfound.trans hseen) clock, hresult]
    rw [hthen, hbefore, resultFromExistingEvent]
    split
    · refine congrArg Except.ok ?_
      simp only [Renaming.onResult, storedResult, hid]
    · rfl
  | none =>
    rw [hafter, outcome_unseen hsourced clock (hfound.trans hseen), outcome_unseen hs clock hseen,
      readsOf_apply hs hi]
    cases hd : decideIngestion rt sub (readsOf rt s sub) with
    | error e => rfl
    | ok effect =>
      have heffect : effectOf rt s sub = some effect := by
        simp [effectOf, hseen, hd, Except.toOption]
      have hσ := carries_swapOf heffect clock (ingestPatch rt s other clock')
      refine congrArg Except.ok ?_
      cases effect with
      | planned os =>
        simp only [applied, Renaming.onResult, resultFromPlanner, plannedResult, hσ.newEvent]
      | cancelled marker =>
        have hcount := congrArg List.length (select_cancellable hs hi clock' hσ)
        rw [Table.length_select, Table.length_select] at hcount
        simp only [applied, Renaming.onResult, hσ.newEvent, hcount]

/-! ### Stores -/

/-- A later patch leaves the rows of an earlier one alone. -/
private theorem rows_spared (hi : Independent rt sub other) (clock clock' : Int) :
    let p := ingestPatch rt s other clock
    let p' := ingestPatch rt (p.apply s) sub clock'
    (∀ c ∈ p.customers.rows, p'.customers.update c = c) ∧
      (∀ a ∈ p.accounts.rows, p'.accounts.update a = a) ∧
      ∀ t ∈ p.outreachTasks.rows, p'.outreachTasks.update t = t := by
  intro p p'
  have hp : Confined rt s other p := confined_ingestPatch rt s other clock
  have hp' : Confined rt (p.apply s) sub p' := confined_ingestPatch rt _ sub clock'
  refine ⟨fun c hc => hp'.customer c ?_, fun a ha => hp'.account a ?_, fun t ht => hp'.task t ?_⟩
  · rw [hp.newCustomer c hc]
    exact hi.customer.symm
  · rw [hp.newAccount a ha]
    exact hi.account.symm
  · exact (tasks_spared hi clock).2 t ht

/-- The updates of two independent ingestions commute. -/
private theorem updates_commute (hi : Independent rt sub other) (clock clock' : Int) :
    let p := ingestPatch rt s other clock
    let p' := ingestPatch rt (p.apply s) sub clock'
    (∀ c, p'.customers.update (p.customers.update c) = p.customers.update (p'.customers.update c)) ∧
      (∀ a, p'.accounts.update (p.accounts.update a) =
        p.accounts.update (p'.accounts.update a)) ∧
      ∀ t, p'.outreachTasks.update (p.outreachTasks.update t) =
        p.outreachTasks.update (p'.outreachTasks.update t) := by
  intro p p'
  have hp : Confined rt s other p := confined_ingestPatch rt s other clock
  have hp' : Confined rt (p.apply s) sub p' := confined_ingestPatch rt _ sub clock'
  refine ⟨Patch.update_comm hp'.customerId hp.customerId hp'.customer fun c hc => ?_,
    Patch.update_comm hp'.accountId hp.accountId hp'.account fun a ha => ?_,
    Patch.update_comm hp'.taskCustomer hp.taskCustomer hp'.task (tasks_spared hi clock).1⟩
  · exact hp.customer c (hc ▸ hi.customer)
  · exact hp.account a (ha ▸ hi.account)

/-- The stores of the two orders are the same up to the names of the generated ids. -/
theorem renames_swapped (hs : Sourced s) (hi : Independent rt sub other) (clock clock' : Int) :
    let p := ingestPatch rt s sub clock
    let q := ingestPatch rt s other clock'
    (swapOf s p q).Renames ((ingestPatch rt (p.apply s) other clock').apply (p.apply s))
      ((ingestPatch rt (q.apply s) sub clock).apply (q.apply s)) := by
  intro p q
  have hfirst : (swapOf s p q).Moves p (ingestPatch rt (q.apply s) sub clock) :=
    moves_ingestPatch hs hi clock clock'
  have hsecond : (swapOf s p q).Moves (ingestPatch rt (p.apply s) other clock') q :=
    (moves_ingestPatch hs hi.symm clock' clock).symm
  have hfixes := fixes_swapOf s p q
  obtain ⟨hcustomers, haccounts, htasks⟩ := updates_commute (s := s) hi clock' clock
  obtain ⟨hcustomer, haccount, htask⟩ := rows_spared (s := s) hi.symm clock clock'
  obtain ⟨hcustomer', haccount', htask'⟩ := rows_spared (s := s) hi clock' clock
  have hp := confined_ingestPatch rt (p.apply s) other clock'
  have hq := confined_ingestPatch rt s other clock'
  have hq' := confined_ingestPatch rt (q.apply s) sub clock
  refine ⟨?_, ?_, ?_, ?_, ?_, ?_⟩
  · exact Patch.relabelled_apply hfirst.customers hsecond.customers (fun _ _ => rfl)
      (fun c _ => hcustomers c) hcustomer hcustomer'
  · exact Patch.relabelled_apply hfirst.accounts hsecond.accounts
      (fun a ha => hfixes.onAccount_eq hs ha) (fun a _ => haccounts a) haccount haccount'
  · exact Patch.relabelled_append hfirst.inboundEvents hsecond.inboundEvents (fun _ _ => rfl)
      hq'.event hq.event hp.event
  · exact Patch.relabelled_append hfirst.policyDecisions hsecond.policyDecisions
      (fun d hd => hfixes.onDecision_eq hs hd) hq'.decision hq.decision hp.decision
  · exact Patch.relabelled_apply hfirst.outreachTasks hsecond.outreachTasks
      (fun t ht => hfixes.onTask_eq hs ht) (fun t _ => htasks t) htask htask'
  · exact Patch.relabelled_append hfirst.auditEvents hsecond.auditEvents
      (fun a ha => hfixes.onAudit_eq hs ha) hq'.audit hq.audit hp.audit

/-! ### Rows of the other customer -/

/-- An id of the customer with an external id. -/
def IsCustomer (s : Store) (x : String) (customerId : Nat) : Prop :=
  ∃ c, s.customers[customerId]? = some c ∧ c.externalId = x

/-- The rows of the customer with an external id are what they were. No event, decision or
audit row changes at all. -/
structure SameRows (x : String) (s s' : Store) : Prop where
  customer : ∀ (k : Nat) (c : Customer), s.customers[k]? = some c → IsCustomer s x k →
    s'.customers[k]? = some c
  accounts : ∀ (k : Nat) (a : Account), s.accounts[k]? = some a → IsCustomer s x a.customerId →
    s'.accounts[k]? = some a
  outreachTasks : ∀ (k : Nat) (t : OutreachTask), s.outreachTasks[k]? = some t →
    IsCustomer s x t.customerId → s'.outreachTasks[k]? = some t
  inboundEvents : s.inboundEvents <+: s'.inboundEvents
  policyDecisions : s.policyDecisions <+: s'.policyDecisions
  auditEvents : s.auditEvents <+: s'.auditEvents

/-- A stored customer under an event's key is the event's. -/
private theorem isCustomer_key {x : String} (h : IsCustomer s x (customerKey s sub)) :
    x = sub.customer.externalId := by
  obtain ⟨c, hc, rfl⟩ := h
  unfold customerKey Table.upsertKey at hc
  cases hl : Table.lookup Customer.externalId sub.customer.externalId s.customers with
  | none => simp [hl] at hc
  | some k =>
    obtain ⟨c', hc', hx⟩ := Table.lookup_eq_some hl
    rw [hl, Option.getD_some, hc', Option.some.injEq] at hc
    rw [← hc, hx]

/-- An ingestion rewrites an account only of its own customer. -/
private theorem account_spared (rt : Runtime) (hu : UniqueIds s) {x : String}
    (hx : x ≠ sub.customer.externalId) (clock : Int) {k : Nat} {a : Account}
    (ha : s.accounts[k]? = some a) (hc : IsCustomer s x a.customerId) :
    (ingestPatch rt s sub clock).accounts.update a = a := by
  cases h : effectOf rt s sub with
  | none =>
    rw [ingestPatch, h]
    rfl
  | some effect =>
    apply (confined_ingestPatch rt s sub clock).account
    intro hid
    -- the event was admitted, so its stored account has its customer
    have howner : a.customerId = customerKey s sub := by
      unfold effectOf at h
      split at h
      · cases h
      · obtain ⟨effect, hd⟩ : ∃ effect, decideIngestion rt sub (readsOf rt s sub) = .ok effect := by
          cases hd : decideIngestion rt sub (readsOf rt s sub) with
          | error e =>
            rw [hd] at h
            cases h
          | ok effect => exact ⟨effect, rfl⟩
        have hown : (contextOf rt s sub).account.customerId = customerKey s sub :=
          not_not.mp (of_decide_eq_false (decideIngestion_ok hd).1)
        have hlookup : Table.lookup Account.externalId sub.account.externalId s.accounts =
            some k := by
          cases hl : Table.lookup Account.externalId sub.account.externalId s.accounts with
          | none => exact absurd hid (Table.lookup_eq_none.mp hl a (List.mem_of_getElem? ha))
          | some j =>
            obtain ⟨b, hb, hbx⟩ := Table.lookup_eq_some hl
            rw [Table.key_unique hu.accounts hb ha (hbx.trans hid.symm)]
        unfold contextOf Table.upsertRow at hown
        rwa [hlookup, Option.bind_some, ha] at hown
    exact hx (isCustomer_key (howner ▸ hc))

/-- An ingestion leaves every row of every other customer as it is. -/
theorem ingest_sameRows (hs : Sourced s) (hm : Mirrors s) {x : String}
    (hx : x ≠ sub.customer.externalId) (clock : Int) : SameRows x s (ingest rt s sub clock) := by
  have hp := confined_ingestPatch rt s sub clock
  rw [ingest_eq_apply hs hm.uniqueIds]
  refine ⟨fun k c hc hid => ?_, fun k a ha hid => ?_, fun k t ht hid => ?_, ?_, ?_, ?_⟩
  · obtain ⟨c', hc', hcx⟩ := hid
    rw [hc, Option.some.injEq] at hc'
    have hsame := hp.customer c (by rw [hc', hcx]; exact hx)
    exact hsame ▸ Patch.getElem?_apply _ hc
  · have hsame := account_spared rt hm.uniqueIds hx clock ha hid
    exact hsame ▸ Patch.getElem?_apply _ ha
  · have hsame := hp.task t fun hkey => hx (isCustomer_key (hkey ▸ hid))
    exact hsame ▸ Patch.getElem?_apply _ ht
  · exact Patch.prefix_apply hp.event
  · exact Patch.prefix_apply hp.decision
  · exact Patch.prefix_apply hp.audit

end

/-- Independent events can be ingested in either order from every reachable state: the stores
are the same up to a renaming of the generated ids, the outcomes are the same, and no
ingestion touches a row of the other's customer. -/
theorem independent_commute (rt : Runtime) (clock : Int) (ops : List Op)
    (sub₁ sub₂ : EventSubmission) (now₁ now₂ : Int) (h : Independent rt sub₁ sub₂) :
    let s := (run (step rt) (start clock) ops).store
    let s₁ := ingest rt s sub₁ now₁
    let s₂ := ingest rt s sub₂ now₂
    (∃ σ : Renaming, σ.Fixes s ∧
      σ.Renames (ingest rt s₁ sub₂ now₂) (ingest rt s₂ sub₁ now₁) ∧
      outcome rt s₂ sub₁ now₁ = (outcome rt s sub₁ now₁).map σ.onResult ∧
      outcome rt s sub₂ now₂ = (outcome rt s₁ sub₂ now₂).map σ.onResult) ∧
    SameRows sub₂.customer.externalId s s₁ ∧
    SameRows sub₁.customer.externalId s s₂ ∧
    SameRows sub₁.customer.externalId s₁ (ingest rt s₁ sub₂ now₂) ∧
    SameRows sub₂.customer.externalId s₂ (ingest rt s₂ sub₁ now₁) := by
  intro s s₁ s₂
  have hs : Sourced s := run_sourced rt clock ops
  have hm : Mirrors s := run_mirrors rt clock ops
  have hs₁ : Sourced s₁ := ingest_sourced hs sub₁ now₁
  have hs₂ : Sourced s₂ := ingest_sourced hs sub₂ now₂
  have hm₁ : Mirrors s₁ := ingest_mirrors hs hm sub₁ now₁
  have hm₂ : Mirrors s₂ := ingest_mirrors hs hm sub₂ now₂
  refine ⟨⟨swapOf s (ingestPatch rt s sub₁ now₁) (ingestPatch rt s sub₂ now₂),
    fixes_swapOf _ _ _, ?_, outcome_apply hs hm h now₁ now₂, ?_⟩,
    ingest_sameRows hs hm h.customer.symm now₁, ingest_sameRows hs hm h.customer now₂,
    ingest_sameRows hs₁ hm₁ h.customer now₂, ingest_sameRows hs₂ hm₂ h.customer.symm now₁⟩
  · have hfirst : s₁ = (ingestPatch rt s sub₁ now₁).apply s :=
      ingest_eq_apply hs hm.uniqueIds sub₁ now₁
    have hsecond : s₂ = (ingestPatch rt s sub₂ now₂).apply s :=
      ingest_eq_apply hs hm.uniqueIds sub₂ now₂
    rw [ingest_eq_apply hs₁ hm₁.uniqueIds, ingest_eq_apply hs₂ hm₂.uniqueIds, hfirst, hsecond]
    exact renames_swapped hs h now₁ now₂
  · have houtcome := outcome_apply hs hm h.symm now₂ now₁
    rw [houtcome, ← swapOf_symm]
    cases outcome rt s sub₂ now₂ with
    | error e => rfl
    | ok r => exact congrArg Except.ok (Renaming.onResult_symm r).symm

/-- A payment of a second customer. -/
def secondCustomer : EventSubmission :=
  { demoEvent "event-2" .paymentReceived "acct-2" demoNoon with
    customer := { demoCustomer with externalId := "cust-2" } }

/-- A failed payment of one customer and a payment of another, after an earlier event. -/
theorem independent_commute_demo :
    let s := (run (step demoRuntime) (start 0)
      [.ingestEvent (demoEvent "event-3" .accountDelinquent "acct-1" demoNoon)]).store
    let first := demoEvent "event-1" .paymentFailed "acct-1" demoNoon
    ∃ σ : Renaming, σ.Renames
      (ingest demoRuntime (ingest demoRuntime s first 5) secondCustomer 7)
      (ingest demoRuntime (ingest demoRuntime s secondCustomer 7) first 5) := by
  obtain ⟨⟨σ, -, h, -⟩, -⟩ := independent_commute demoRuntime 0
    [.ingestEvent (demoEvent "event-3" .accountDelinquent "acct-1" demoNoon)]
    (demoEvent "event-1" .paymentFailed "acct-1" demoNoon) secondCustomer 5 7
    ⟨by decide, by decide +kernel, by decide, by decide⟩
  exact ⟨σ, h⟩

end Orchestrator.System
