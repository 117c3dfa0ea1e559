import Orchestrator.Concurrency.Invariants
import Orchestrator.System.Operations

/-!
# The status machine under concurrency

Which changes of a task's status commits can make. Every writer but one updates a row
only if its status is still the one that it read; the event-driven cancellation writes
the rows that its `SELECT` found by primary key alone. Runs in which these writes still
find a scheduled or cancelled row follow the documented edges; one interleaving with a
worker's claim does not.
-/

namespace Orchestrator.Concurrency

open Base Domain Orchestration Workers

/-- The edges of the status machine: claims, cancellations, settlements, and manual
results from `ALLOWED_MANUAL_DELIVERY_SOURCE_STATUSES`. -/
def allowedEdge : OutreachTaskStatus → OutreachTaskStatus → Bool
  | .scheduled, .dispatching | .scheduled, .cancelled => true
  | .dispatching, .sent | .dispatching, .scheduled | .dispatching, .failed => true
  | source, .sent | source, .failed => allowedManualDeliverySourceStatus source
  | _, _ => false

/-- Every committed change of a status between two states follows an edge. -/
def FollowsEdges (s s' : State) : Prop :=
  ∀ (k : Nat) (t t' : OutreachTask), s.db.rows[k]? = some t → s'.db.rows[k]? = some t' →
    t'.status ≠ t.status → allowedEdge t.status t'.status = true

/-- The row that an event-driven cancellation's row update finds if it executes now. -/
def eventTarget (s : State) : Statement → Option OutreachTask
  | .cancelNext w =>
    match s.sessions w with
    | .cancelling _ (task :: _) _ => if s.db.free w task.2 then s.db.view w task.2 else none
    | _ => none
  | _ => none

/-- The statement is an event-driven cancellation's row update that executes now and
finds a row that is neither scheduled nor already cancelled. -/
def overwrites (s : State) (st : Statement) : Bool :=
  (eventTarget s st).any fun t => decide (t.status ≠ .scheduled ∧ t.status ≠ .cancelled)

/-- A cancelling write has found its row in a status of `C`. -/
def CancelsFrom (C : OutreachTaskStatus → Prop) (_taskId : Nat) (t _t' : OutreachTask)
    (a : AuditEvent) : Prop :=
  a.eventType = .outreachCancelled → C t.status

/-- The operator's updates find scheduled rows, so only the event-driven ones matter. -/
theorem step_cancelsFrom {C : OutreachTaskStatus → Prop} (hC : C .scheduled) (s : State)
    (st : Statement) (h : s.db.Grounded (CancelsFrom C) fun _ _ => True)
    (hst : ∀ t, eventTarget s st = some t → C t.status) :
    (step s st).db.Grounded (CancelsFrom C) fun _ _ => True := by
  have hstep := step_spec s st
  generalize step s st = s' at hstep
  cases hstep with
  | idle | started | called | delivered | raised | operatorSkipped => exact h
  | dropped => exact h.rollback _
  | claiming _ row _ free => exact h.write row (by simp [CancelsFrom, dispatchStarted]) free
  | @settling _ _ _ _ _ _ outcome _ row _ free =>
    apply h.write row _ free
    cases outcome <;> simp [CancelsFrom, settleRow, dispatchSucceeded, dispatchFailed]
  | inserted => exact h.insert _ trivial
  | @eventCancelled w _ ctx task _ t session row free =>
    apply h.write row _ free
    intro _
    apply hst
    simp [eventTarget, session, row, free]
  | operatorCancelled _ row hs free => exact h.write row (fun _ => hs ▸ hC) free
  | recorded _ row _ free =>
    exact h.write row (by simp [CancelsFrom, deliveryResultRecorded]) free
  | committed => exact h.commit _

/-- What is known of a cancelling write in a run without overwriting updates. -/
def Careful (_taskId : Nat) (t _t' : OutreachTask) (a : AuditEvent) : Prop :=
  a.eventType = .outreachCancelled → t.status = .scheduled ∨ t.status = .cancelled

/-- Without an overwriting update every cancelling write stays careful. -/
theorem step_careful (s : State) (st : Statement)
    (h : s.db.Grounded Careful fun _ _ => True) (hst : overwrites s st = false) :
    (step s st).db.Grounded Careful fun _ _ => True := by
  refine step_cancelsFrom (C := fun x => x = .scheduled ∨ x = .cancelled) (Or.inl rfl) s st h ?_
  intro t ht
  rw [overwrites, ht, Option.any_some, decide_eq_false_iff_not, not_and_or] at hst
  exact hst.imp Decidable.not_not.mp Decidable.not_not.mp

/-- Where closing writes can take a status. -/
private def Closed (source target : OutreachTaskStatus) : Prop :=
  target = source ∨ (source = .scheduled ∧ target = .cancelled) ∨
    (allowedManualDeliverySourceStatus source = true ∧ (target = .sent ∨ target = .failed))

private theorem Closed.allowedEdge {source target : OutreachTaskStatus} (h : Closed source target)
    (hne : target ≠ source) : allowedEdge source target = true := by
  rcases h with h | ⟨rfl, rfl⟩ | ⟨hsource, rfl | rfl⟩
  · exact absurd h hne
  · rfl
  · cases source <;> first | rfl | cases hsource
  · cases source <;> first | rfl | cases hsource

private theorem Closed.write {source : OutreachTaskStatus} {k : Nat} {t t' : OutreachTask}
    {a : AuditEvent} (h : Closed source t.status) (hw : ClosingWrite k t t' a)
    (hc : Careful k t t' a) : Closed source t'.status := by
  have hcancel : t.status = .scheduled ∨ t.status = .cancelled → Closed source .cancelled := by
    rintro (hs | hs)
    · rcases h with h | ⟨-, h⟩ | ⟨-, h | h⟩
      · exact Or.inr (Or.inl ⟨h.symm.trans hs, rfl⟩)
      all_goals rw [hs] at h; cases h
    · rwa [hs] at h
  cases hw with
  | manual task body hs hallowed =>
    have htarget : (manualWrite body t).status = .sent ∨ (manualWrite body t).status = .failed := by
      cases hb : body.status <;> simp [manualWrite, DeliveryStatus.toStatus, hb]
    refine Or.inr (Or.inr ⟨?_, htarget⟩)
    rcases h with h | ⟨-, h⟩ | ⟨hsource, -⟩
    · rwa [← h]
    · rw [h] at hallowed
      cases hallowed
    · exact hsource
  | operator account reason correlationId task hs => exact hcancel (Or.inl hs)
  | event ctx task => exact hcancel (hc rfl)

/-- A careful commit follows the edges. -/
theorem commit_followsEdges {s : State} {w : Nat} {p : Session} (h : Sound s.db s.sessions)
    (hc : s.db.Grounded Careful fun _ _ => True) (hp : (s.sessions w).committed = some p) :
    FollowsEdges s (s.execute w (s.db.commit w) p) := by
  intro k t t' ht ht' hne
  have hsingle : ∀ {i : Nat} {u u' : OutreachTask}, s.db.rows[i]? = some u →
      (s.db.commit w).rows = s.db.rows.set i u' → k = i ∧ t = u ∧ t' = u' := by
    intro i u u' hu hrows
    have hset : (s.db.rows.set i u')[k]? = some t' := hrows ▸ ht'
    by_cases hk : k = i
    · subst hk
      rw [List.getElem?_set_self (List.getElem?_eq_some_iff.mp hu).1] at hset
      exact ⟨rfl, Option.some.inj (ht.symm.trans hu), (Option.some.inj hset).symm⟩
    · rw [List.getElem?_set_ne (Ne.symm hk)] at hset
      obtain rfl : t = t' := Option.some.inj (ht.symm.trans hset)
      exact absurd rfl hne
  cases h.publishes hp with
  | claim _ _ row hs rows _ =>
    obtain ⟨-, rfl, rfl⟩ := hsingle row rows
    rw [hs]
    rfl
  | @settle _ config' _ _ _ u copy outcome _ _ row hd _ rows _ =>
    obtain ⟨-, rfl, rfl⟩ := hsingle row rows
    rw [hd]
    cases outcome with
    | delivered result => rfl
    | raised error =>
      simp only [settleWrite, failureWrite, finalStatus]
      split <;> rfl
  | close _ _ grounded =>
    have hclosed : ∃ u, (s.db.commit w).rows[k]? = some u ∧ Closed t.status u.status := by
      refine (grounded.and (hc w)).commit_induction (l := s.db.log)
        (P := fun rows _ => ∃ u, rows[k]? = some u ∧ Closed t.status u.status) ?_ ?_
        (fun _ _ hr => hr) ⟨t, ht, Or.inl rfl⟩
      · rintro rows log i u u' a ⟨x, hx, hclosed⟩ hu ⟨hw, hcare⟩
        by_cases hk : i = k
        · subst hk
          obtain rfl : u = x := Option.some.inj (hu.symm.trans hx)
          exact ⟨u', List.getElem?_set_self (List.getElem?_eq_some_iff.mp hu).1,
            hclosed.write hw hcare⟩
        · exact ⟨x, by rw [List.getElem?_set_ne hk]; exact hx, hclosed⟩
      · rintro rows log u a ⟨x, hx, hclosed⟩ -
        refine ⟨x, ?_, hclosed⟩
        rw [List.getElem?_append_left (List.getElem?_eq_some_iff.mp hx).1]
        exact hx
    obtain ⟨u, hu, hclosed⟩ := hclosed
    obtain rfl : u = t' := Option.some.inj (hu.symm.trans ht')
    exact hclosed.allowedEdge hne

/-- Only commits change committed rows. -/
theorem step_followsEdges (s : State) (st : Statement) (h : Sound s.db s.sessions)
    (hc : s.db.Grounded Careful fun _ _ => True) : FollowsEdges s (step s st) := by
  have hsame : ∀ {s' : State}, s'.db.rows = s.db.rows → FollowsEdges s s' := by
    intro s' hrows k t t' ht ht' hne
    rw [hrows] at ht'
    obtain rfl : t = t' := Option.some.inj (ht.symm.trans ht')
    exact absurd rfl hne
  have hstep := step_spec s st
  generalize step s st = s' at hstep
  cases hstep with
  | committed session => exact commit_followsEdges h hc session
  | _ => exact hsame rfl

/-- In every interleaving in which each event-driven row update still finds a scheduled or
cancelled row, every committed change of a status follows an edge. -/
theorem status_follows_edges (planned : PlannedTasks) (sts : List Statement)
    (h : Guarded step (fun s st => overwrites s st = false) (start planned) sts)
    (pre post : List Statement) (st : Statement) (hsts : sts = pre ++ st :: post) :
    FollowsEdges (run step (start planned) pre) (step (run step (start planned) pre) st) := by
  subst hsts
  obtain ⟨hpre, -⟩ := (guarded_append (start planned) pre (st :: post)).mp h
  have hcareful : (run step (start planned) pre).db.Grounded Careful fun _ _ => True := by
    refine @guarded_invariant _ _ step (fun s => s.db.Grounded Careful fun _ _ => True) _
      (fun s st hs hst => step_careful s st hs hst) (start planned)
      (Db.grounded_ofRows planned.rows) pre hpre
  exact step_followsEdges _ st (run_sound planned pre) hcareful

/-! ### Runs on a small deployment -/

/-- The planner's view of a fresh event of the account `acct-1`. -/
def demoContext (externalId : String) (eventType : EventType) : EventContext where
  inboundEventId := 0
  inboundEvent := inboundEventRow System.demoRuntime
    (System.demoEvent externalId eventType "acct-1" System.demoNoon)
  customerId := 0
  customer := applyCustomerSnapshot System.demoCustomer (newCustomer "cust-1" "Ada")
  accountId := 0
  account := newAccount (System.demoAccount "acct-1") 0
  correlationId := 1

/-- A pass of a worker at noon. -/
def demoPass : PassConfig := { now := System.demoMonday + 12 * hour }

/-- Session 0 plans one email for noon and commits it. -/
def demoPlanned : List Statement :=
  [.startPlanning 0 (demoContext "event-1" .paymentFailed),
    .insertTask 0 .email 0 System.demoNoon.toDatetime 0, .commit 0]

/-- Session 1 has selected the email for cancellation when a worker claims it. -/
def demoStaleSelect : List Statement :=
  demoPlanned ++ [.startCancelling 1 (demoContext "event-2" .paymentReceived),
    .startPass 2 demoPass, .claim 2, .commit 2, .cancelNext 1]

/-- The stale update turns the claimed email from dispatching into cancelled. -/
theorem status_overwritten :
    ¬ ∀ (planned : PlannedTasks) (sts : List Statement) (st : Statement),
      FollowsEdges (run step (start planned) sts) (step (run step (start planned) sts) st) := by
  intro h
  have hedge := h .none demoStaleSelect (.commit 1) 0 System.demoDispatching
    { System.demoDispatching with status := .cancelled } (by decide +kernel) (by decide +kernel)
    (by decide)
  revert hedge
  decide

/-- Session 1 has selected the email, a worker then claims it, fails and schedules its retry,
and the update comes last. -/
def demoRetriedSelect : List Statement :=
  demoPlanned ++ [.startCancelling 1 (demoContext "event-2" .paymentReceived),
    .startPass 2 demoPass, .claim 2, .commit 2, .callProvider 2,
    .providerReturns 2 (.raised "bounced"), .settle 2, .commit 2, .cancelNext 1]

/-- The update finds the email scheduled again, and its commit follows an edge. -/
theorem status_follows_edges_demo :
    let s := run step (start .none) demoRetriedSelect
    FollowsEdges s (step s (.commit 1)) := by
  refine status_follows_edges .none (demoRetriedSelect ++ [.commit 1]) ?_ _ [] _ rfl
  refine ⟨rfl, rfl, rfl, rfl, rfl, rfl, rfl, rfl, rfl, rfl, rfl, ?_, rfl, trivial⟩
  decide +kernel

example : (run step (start .none) (demoRetriedSelect ++ [.commit 1])).db.log.map
    AuditEvent.eventType =
      [.outreachTaskScheduled, .dispatchStarted, .dispatchFailed, .outreachCancelled] := by
  decide +kernel

end Orchestrator.Concurrency
