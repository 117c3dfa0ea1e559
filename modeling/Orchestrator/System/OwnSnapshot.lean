import Orchestrator.System.Transactions

/-!
# Planning uses the event's own snapshot

Two runs of the same policy event on different stores. Of all that the stores hold, only
the opt-out of the event's customer and the count of that customer's recent attempts
reach the decisions and the tasks.
-/

namespace Orchestrator.System

open Base Domain Orchestration

/-- What a decision says. -/
def decisionView (d : PolicyDecision) :
    Option OutreachChannel × PolicyDecisionOutcome × List Reason :=
  (d.channel, d.decision, d.reasons)

/-- What a new task says. -/
def taskView (t : OutreachTask) : OutreachChannel × Int := (t.channel, t.scheduledAt)

/-- The decisions of a pass say what its outcomes say. -/
theorem plannedDecisions_view (ctx : EventContext) (os : List Outcome) :
    (plannedDecisions ctx os).map decisionView =
      os.map fun o => (some o.result.channel, o.result.decision, o.result.reasons) := by
  rw [plannedDecisions, List.map_map]
  rfl

/-- The tasks of a pass say what its outcomes say. -/
theorem plannedTasks_view (ctx : EventContext) (clock : Int) (base : Nat) (os : List Outcome) :
    (plannedTasks ctx clock base os).map taskView = os.filterMap fun o =>
      o.scheduledAt.map fun time => (o.result.channel, time.instant) := by
  induction os generalizing base with
  | nil => rfl
  | cons o os ih =>
    rw [plannedTasks_cons, List.map_append, ih, List.filterMap_cons]
    cases h : o.scheduledAt <;> simp [Outcome.task, h, taskView, taskRow]

/-- Stores that agree on the opt-out and the recent attempts of an event's customer make the
same decisions and the same tasks of it, with whatever correlation id it arrives. -/
theorem planning_uses_own_snapshot (rt : Runtime) (clock₁ clock₂ : Int) (ops₁ ops₂ : List Op)
    (sub : EventSubmission) (correlationId₁ correlationId₂ : Nat) (now₁ now₂ : Int)
    (s₁' s₂' : Store) (r₁ r₂ : EventIngestionResult) :
    let s₁ := (run (step rt) (start clock₁) ops₁).store
    let s₂ := (run (step rt) (start clock₂) ops₂).store
    sub.eventType = .accountDelinquent ∨ sub.eventType = .paymentFailed →
    s₁.findExistingEvent sub.source sub.externalId = none →
    s₂.findExistingEvent sub.source sub.externalId = none →
    ingestEventSnapshot rt s₁ { sub with correlationId := correlationId₁ } now₁ =
      .ok (s₁', r₁) →
    ingestEventSnapshot rt s₂ { sub with correlationId := correlationId₂ } now₂ =
      .ok (s₂', r₂) →
    storedOptOut s₁ sub.customer.externalId = storedOptOut s₂ sub.customer.externalId →
    storedRecentAttempts s₁ sub.customer.externalId sub.occurredAt.toDatetime =
      storedRecentAttempts s₂ sub.customer.externalId sub.occurredAt.toDatetime →
    ∃ ds₁ ds₂ ts₁ ts₂, s₁'.policyDecisions = s₁.policyDecisions ++ ds₁ ∧
      s₂'.policyDecisions = s₂.policyDecisions ++ ds₂ ∧
      s₁'.outreachTasks = s₁.outreachTasks ++ ts₁ ∧
      s₂'.outreachTasks = s₂.outreachTasks ++ ts₂ ∧
      ds₁.map decisionView = ds₂.map decisionView ∧ ts₁.map taskView = ts₂.map taskView := by
  intro s₁ s₂ htype hnew₁ hnew₂ h₁ h₂ hopt hrecent
  obtain ⟨n₁, ps₁, os₁, hn₁, hps₁, hos₁, hds₁, hts₁⟩ :=
    policyEvent_ingested (run_sourced rt clock₁ ops₁) h₁ htype hnew₁
  obtain ⟨n₂, ps₂, os₂, hn₂, hps₂, hos₂, hds₂, hts₂⟩ :=
    policyEvent_ingested (run_sourced rt clock₂ ops₂) h₂ htype hnew₂
  obtain rfl : ps₁ = ps₂ := Except.ok.inj (hps₁.symm.trans hps₂)
  obtain rfl : n₁ = n₂ := Except.ok.inj (hn₁.symm.trans (hrecent.trans hn₂))
  have hinput : snapshotInput { sub with correlationId := correlationId₁ }
      (storedOptOut s₁ sub.customer.externalId) =
    snapshotInput { sub with correlationId := correlationId₂ }
      (storedOptOut s₂ sub.customer.externalId) := by
    rw [hopt]
    rfl
  obtain rfl : os₁ = os₂ := Except.ok.inj (hos₁.symm.trans ((congrArg (fun input =>
    decideAll rt input n₁ ps₁) hinput).trans hos₂))
  refine ⟨_, _, _, _, hds₁, hds₂, hts₁, hts₂, ?_, ?_⟩
  · rw [plannedDecisions_view, plannedDecisions_view]
  · rw [plannedTasks_view, plannedTasks_view]

/-- An earlier event of the same account, from a time without consents and of a resolved
account. -/
def staleEvent : EventSubmission :=
  { demoEvent "event-1" .paymentReceived "acct-1" demoNoon with
    customer := { demoCustomer with smsConsent := false, emailConsent := false }
    account := { demoAccount "acct-1" with status := .resolved } }

/-- A payment failure is planned alike with and without that history. -/
theorem planning_uses_own_snapshot_demo :
    let s := (run (step demoRuntime) (start 0) [.ingestEvent staleEvent]).store
    let sub := demoEvent "event-2" .paymentFailed "acct-1" demoNoon
    ∃ ds₁ ds₂ ts₁ ts₂,
      (ingest demoRuntime Store.empty { sub with correlationId := 4 } 0).policyDecisions =
        Store.empty.policyDecisions ++ ds₁ ∧
      (ingest demoRuntime s { sub with correlationId := 7 } 9).policyDecisions =
        s.policyDecisions ++ ds₂ ∧
      (ingest demoRuntime Store.empty { sub with correlationId := 4 } 0).outreachTasks =
        Store.empty.outreachTasks ++ ts₁ ∧
      (ingest demoRuntime s { sub with correlationId := 7 } 9).outreachTasks =
        s.outreachTasks ++ ts₂ ∧
      ds₁.map decisionView = ds₂.map decisionView ∧ ts₁.map taskView = ts₂.map taskView :=
  planning_uses_own_snapshot demoRuntime 0 0 [] [.ingestEvent staleEvent]
    (demoEvent "event-2" .paymentFailed "acct-1" demoNoon) 4 7 0 9 _ _
    ⟨0, 2, 0, 0, 0, 2⟩ ⟨1, 2, 0, 0, 0, 2⟩ (Or.inr rfl) rfl (by decide +kernel)
    (by decide +kernel) (by decide +kernel) (by decide +kernel) (by decide +kernel)

end Orchestrator.System
