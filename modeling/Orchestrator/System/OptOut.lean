import Orchestrator.System.Revocation
import Orchestrator.System.Transactions

/-!
# Opt-out is sticky

Once an opt-out event is stored its customer stays opted out, whatever snapshots arrive,
and every planning pass of the customer ends in blocks.
-/

namespace Orchestrator.System

open Base Domain Orchestration Policy

/-- The stored opt-out of a customer is read off the row that its external id finds. -/
theorem storedOptOut_iff {s : Store} {x : String} : storedOptOut s x = true ↔
    ∃ id c, s.customerByExternalId x = some id ∧ s.customers[id]? = some c ∧
      c.optedOut = true := by
  unfold storedOptOut
  cases h : s.customerByExternalId x with
  | none => simp
  | some id => cases hc : s.customers[id]? <;> simp [hc]

/-- A stored opt-out is never cleared. -/
theorem storedOptOut_evolves {s s' : Store} (h : Evolves s s') {x : String}
    (hx : storedOptOut s x = true) : storedOptOut s' x = true := by
  obtain ⟨id, c, hid, hc, ho⟩ := storedOptOut_iff.mp hx
  obtain ⟨c', hc', -, ho'⟩ := h.customers id c hc
  exact storedOptOut_iff.mpr ⟨id, c', Table.lookup_of_prefix h.customerIds hid, hc', ho' ho⟩

/-- The customers of stored opt-out events are opted out. -/
def OptOutsKept (s : Store) : Prop :=
  ∀ e ∈ s.inboundEvents, e.eventType = .optOutReceived →
    storedOptOut s e.customerExternalId = true

/-- Every commit keeps the opt-outs. -/
theorem Commit.optOutsKept {rt : Runtime} {clock : Int} {s s' : Store} (ho : Owned s)
    (hk : OptOutsKept s) (h : Commit rt clock s s') : OptOutsKept s' := by
  have hold {e : InboundEvent} (he : e ∈ s.inboundEvents) (ht : e.eventType = .optOutReceived) :
      storedOptOut s' e.customerExternalId = true :=
    storedOptOut_evolves h.evolves (hk e he ht)
  cases h with
  | @ingested sub s' r h =>
    intro e he ht
    rcases h.rows with rfl | ⟨ctx, customers, accounts, fresh, -, -, hevents⟩
    · exact hk e he ht
    · rw [hevents] at he
      rcases List.mem_append.mp he with he | he
      · exact hold he ht
      · obtain rfl := List.mem_singleton.mp he
        have hsub : sub.eventType = .optOutReceived := ht
        obtain ⟨customerId, accountId, hc⟩ :=
          ingested_cancelled ho h fresh.unseen (by rw [hsub]; rfl)
        obtain ⟨c, hrow, hopt⟩ := hc.optedOut hsub
        exact storedOptOut_iff.mpr ⟨customerId, c, hc.customer, hrow, hopt⟩
  | wrote row hw payload => exact fun e he ht => hold he ht
  | operatorCancelled row =>
    intro e he ht
    rw [cancelScheduledAccountOutreach_eq] at he
    exact hold he ht

/-- In every reachable store the customers of stored opt-out events are opted out. -/
theorem run_optOutsKept (rt : Runtime) (clock : Int) (ops : List Op) :
    OptOutsKept (run (step rt) (start clock) ops).store := by
  have h : Owned (run (step rt) (start clock) ops).store ∧
      OptOutsKept (run (step rt) (start clock) ops).store :=
    run_store_invariant (I := fun s => Owned s ∧ OptOutsKept s)
      ⟨by simp [Owned, Store.empty], by simp [OptOutsKept, Store.empty]⟩
      (fun _ _ _ hs h hcommit => ⟨hcommit.owned hs h.1, hcommit.optOutsKept h.1 h.2⟩) clock ops
  exact h.2

/-- A proposal of an opted-out customer is blocked, for that reason first, and is not
scheduled. -/
theorem decideProposal_optedOut {rt : Runtime} {i : PolicyInput} {p : ProposedOutreach}
    {o : Outcome} (ho : i.optedOut = true) (h : decideProposal rt i p = .ok o) :
    o.result.decision = .block ∧ o.result.reasons.head? = some .customerOptedOut ∧
      o.scheduledAt = none := by
  obtain ⟨hr, htime, -⟩ := decideProposal_ok h
  have hreasons : blockReasons i = .customerOptedOut :: (channelConsentBlockReasons i ++
      accountStatusBlockReasons i) := by
    simp [blockReasons, optOutBlockReasons, ho]
  rw [evaluatePolicy, if_pos (by simp [hreasons])] at hr
  rw [htime, ← Except.ok.inj hr]
  exact ⟨rfl, congrArg List.head? hreasons, rfl⟩

/-- In every reachable store that holds an opt-out event its customer is opted out, and
every policy event of the customer that is ingested records only blocks, with that
reason first, and creates no task. A first ingestion records one for each proposal. -/
theorem opt_out_sticky (rt : Runtime) (clock : Int) (ops : List Op) (e : InboundEvent) :
    let s := (run (step rt) (start clock) ops).store
    e ∈ s.inboundEvents → e.eventType = .optOutReceived →
    storedOptOut s e.customerExternalId = true ∧
    ∀ (sub : EventSubmission) (now : Int) (s' : Store) (r : EventIngestionResult),
      sub.customer.externalId = e.customerExternalId →
      sub.eventType = .accountDelinquent ∨ sub.eventType = .paymentFailed →
      ingestEventSnapshot rt s sub now = .ok (s', r) →
      s'.outreachTasks = s.outreachTasks ∧
      ∃ ds, s'.policyDecisions = s.policyDecisions ++ ds ∧
        (∀ d ∈ ds, d.decision = .block ∧ d.reasons.head? = some .customerOptedOut) ∧
        (s.findExistingEvent sub.source sub.externalId = none →
          ds.map PolicyDecision.channel = (proposedChannels sub.eventType).map some) := by
  intro s he ht
  have hout : storedOptOut s e.customerExternalId = true := run_optOutsKept rt clock ops e he ht
  refine ⟨hout, ?_⟩
  intro sub now s' r hcustomer htype h
  cases hseen : s.findExistingEvent sub.source sub.externalId with
  | some id =>
    obtain ⟨-, rfl, -⟩ := ingestEventSnapshot_replayed hseen h
    exact ⟨rfl, [], (List.append_nil _).symm, by simp, by rintro ⟨⟩⟩
  | none =>
    obtain ⟨n, ps, os, -, hps, hos, hds, hts⟩ :=
      policyEvent_ingested (run_sourced rt clock ops) h htype hseen
    have hblocked : ∀ o ∈ os, o.result.decision = .block ∧
        o.result.reasons.head? = some .customerOptedOut ∧ o.scheduledAt = none := by
      intro o ho
      obtain ⟨m, p, -, hd⟩ := mem_decideAll hos o ho
      refine decideProposal_optedOut ?_ hd
      rw [snapshotInput, hcustomer]
      exact hout
    refine ⟨?_, plannedDecisions (contextOf rt s sub) os, hds, ?_, fun _ => ?_⟩
    · rw [hts, List.append_right_eq_self, List.eq_nil_iff_forall_not_mem]
      intro t hmem
      obtain ⟨j, o, time, hj, htime, -⟩ := mem_plannedTasks.mp hmem
      rw [(hblocked o (List.mem_of_getElem? hj)).2.2] at htime
      cases htime
    · intro d hd
      obtain ⟨o, ho, rfl⟩ := List.mem_map.mp hd
      exact ⟨(hblocked o ho).1, (hblocked o ho).2.1⟩
    · rw [← proposals_channels hps, ← decideAll_channels (fun _ _ => rfl) hos, plannedDecisions,
        List.map_map, List.map_map]
      rfl

/-- An opt-out, and then a payment failure on another account of the customer with every
consent. -/
theorem opt_out_sticky_demo :
    let s := (run (step demoRuntime) (start 0)
      [.ingestEvent (demoEvent "event-1" .optOutReceived "acct-1" demoNoon)]).store
    let s' := ingest demoRuntime s (demoEvent "event-2" .paymentFailed "acct-2" demoNoon) 5
    storedOptOut s "cust-1" = true ∧ s'.outreachTasks = s.outreachTasks ∧
      ∃ ds, s'.policyDecisions = s.policyDecisions ++ ds ∧
        (∀ d ∈ ds, d.decision = .block ∧ d.reasons.head? = some .customerOptedOut) ∧
        ds.map PolicyDecision.channel = [some .email, some .sms] := by
  have h := opt_out_sticky demoRuntime 0
    [.ingestEvent (demoEvent "event-1" .optOutReceived "acct-1" demoNoon)]
    (storedEvent demoRuntime (demoEvent "event-1" .optOutReceived "acct-1" demoNoon))
    (by decide +kernel) rfl
  obtain ⟨htasks, ds, hds, hblocked, hchannels⟩ := h.2
    (demoEvent "event-2" .paymentFailed "acct-2" demoNoon) 5
    (ingest demoRuntime (run (step demoRuntime) (start 0)
      [.ingestEvent (demoEvent "event-1" .optOutReceived "acct-1" demoNoon)]).store
      (demoEvent "event-2" .paymentFailed "acct-2" demoNoon) 5)
    ⟨1, 0, 2, 0, 0, 2⟩ rfl (Or.inr rfl) (by decide +kernel)
  exact ⟨h.1, htasks, ds, hds, hblocked, hchannels (by decide +kernel)⟩

end Orchestrator.System
