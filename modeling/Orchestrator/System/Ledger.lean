import Mathlib.Data.List.Induction
import Orchestrator.System.Replay
import Orchestrator.System.Transactions

/-!
# The ledger of one event

Everything that is written about an event is written by its first ingestion. Rows that
were there before and rows that come later concern other events and other decisions, so
what a reachable store holds about an event is counted on the rows of one commit.
-/

namespace Orchestrator.System

open Base Domain Orchestration

/-! ### Rows of later transactions -/

/-- An audit row that concerns no event and no decision among the first so many. -/
structure Later (events decisions : Nat) (a : AuditEvent) : Prop where
  payload : ∀ e, a.payload.inboundEventId = some e → events ≤ e
  event : a.entityType = .inboundEvent → events ≤ a.entityId
  decision : a.entityType = .policyDecision → decisions ≤ a.entityId

/-- A later row is later than fewer rows. -/
theorem Later.mono {events decisions events' decisions' : Nat} {a : AuditEvent}
    (h : Later events decisions a) (he : events' ≤ events) (hd : decisions' ≤ decisions) :
    Later events' decisions' a where
  payload e hp := he.trans (h.payload e hp)
  event ht := he.trans (h.event ht)
  decision ht := hd.trans (h.decision ht)

/-- A row about a task that names no earlier event. -/
theorem Later.ofTask {events decisions : Nat} {a : AuditEvent} (ht : a.entityType = .outreachTask)
    (hp : ∀ e, a.payload.inboundEventId = some e → events ≤ e) : Later events decisions a where
  payload := hp
  event he := by
    rw [ht] at he
    cases he
  decision he := by
    rw [ht] at he
    cases he

section

variable {rt : Runtime} {s s' : Store} {sub : EventSubmission} {effect : Effect}

/-- What the planner appends about its event and its decisions. -/
private theorem later_plannedRows (ctx : EventContext) (base : Nat) (os : List Outcome) :
    ∀ a ∈ plannedRows ctx base os, Later ctx.inboundEventId base a := by
  intro a ha
  obtain ⟨j, o, ho, rfl | hexit | ⟨time, rfl⟩⟩ := mem_plannedRows ha
  · exact ⟨by rintro e ⟨⟩; exact Nat.le_refl _, by rintro ⟨⟩, fun _ => Nat.le_add_right _ _⟩
  · have hrow : a = blockedRow ctx o.result ∨ a = deferredRow ctx o.result := by
      unfold exitRows at hexit
      split at hexit <;> simp_all
    rcases hrow with rfl | rfl <;>
      exact ⟨by rintro e ⟨⟩; exact Nat.le_refl _, by rintro ⟨⟩, by rintro ⟨⟩⟩
  · exact ⟨by rintro e ⟨⟩; exact Nat.le_refl _, by rintro ⟨⟩, by rintro ⟨⟩⟩

/-- The receipt concerns its own event. -/
private theorem later_receiptRows (rt : Runtime) (sub : EventSubmission) (id decisions : Nat) :
    ∀ a ∈ receiptRows rt sub id, Later id decisions a := by
  intro a ha
  obtain ⟨ht, hid, hp⟩ := receiptRows_entity rt sub id a ha
  refine ⟨fun e he => ?_, fun _ => hid.ge, fun he => ?_⟩
  · rw [hp] at he
    cases he
  · rw [ht] at he
    cases he

/-- A record of a cancelling event concerns its own event. -/
private theorem later_recordRows (ctx : EventContext) (decisions : Nat) :
    ∀ a ∈ recordRows ctx, Later ctx.inboundEventId decisions a := by
  unfold recordRows
  split <;> simp only [List.mem_singleton, List.not_mem_nil, forall_eq, false_imp_iff,
    implies_true] <;>
    exact ⟨by rintro e ⟨⟩; exact Nat.le_refl _, by rintro ⟨⟩, by rintro ⟨⟩⟩

/-- Every transaction appends audit rows about later events and decisions only. -/
theorem Transaction.later (h : Transaction rt s s') : ∃ as, s'.auditEvents = s.auditEvents ++ as ∧
    ∀ a ∈ as, Later s.inboundEvents.length s.policyDecisions.length a := by
  cases h with
  | @ingested sub effect clock h =>
    cases effect with
    | planned os =>
      refine ⟨_, rfl, fun a ha => ?_⟩
      rcases List.mem_append.mp ha with ha | ha
      · exact later_receiptRows rt sub _ _ a ha
      · exact later_plannedRows (contextOf rt s sub) _ os a ha
    | cancelled marker =>
      refine ⟨_, rfl, fun a ha => ?_⟩
      simp only [List.mem_append, List.mem_singleton] at ha
      rcases ha with ha | ha | ha | rfl
      · exact later_receiptRows rt sub _ _ a ha
      · exact later_recordRows (contextOf rt s sub) _ a ha
      · obtain ⟨x, -, rfl⟩ := List.mem_map.mp ha
        exact .ofTask rfl (by rintro e ⟨⟩; exact Nat.le_refl _)
      · exact ⟨by rintro e ⟨⟩, fun _ => Nat.le_refl _, by rintro ⟨⟩⟩
  | @wrote taskId t t' a row h payload =>
    refine ⟨[a], rfl, fun b hb => ?_⟩
    rw [List.mem_singleton.mp hb]
    refine .ofTask h.entity.1 fun e he => ?_
    rw [payload] at he
    cases he
  | @operatorCancelled accountId account reason correlationId row =>
    rw [cancelScheduledAccountOutreach_eq]
    refine ⟨_, rfl, fun a ha => ?_⟩
    obtain ⟨x, -, rfl⟩ := List.mem_map.mp ha
    exact .ofTask rfl (by rintro e ⟨⟩)

end

/-- Every run appends audit rows about later events and decisions only. -/
theorem run_later (rt : Runtime) (s : Sys) (hs : Sourced s.store) (ops : List Op) :
    ∃ as, (run (step rt) s ops).store.auditEvents = s.store.auditEvents ++ as ∧
      ∀ a ∈ as, Later s.store.inboundEvents.length s.store.policyDecisions.length a := by
  have hrun := run_relation (I := fun s : Sys => Sourced s.store)
    (R := fun s s' : Sys => Evolves s.store s'.store ∧
      ∃ as, s'.store.auditEvents = s.store.auditEvents ++ as ∧
        ∀ a ∈ as, Later s.store.inboundEvents.length s.store.policyDecisions.length a)
    (step_sourced rt) ?_ ?_ ?_ s hs ops
  · exact hrun.2
  · exact fun s => ⟨.refl _, [], (List.append_nil _).symm, by simp⟩
  · rintro s t u ⟨hst, as, has, hlater⟩ ⟨htu, bs, hbs, hlater'⟩
    obtain ⟨ds, hds, -⟩ := hst.policyDecisions
    refine ⟨hst.trans htu, as ++ bs, by rw [hbs, has, List.append_assoc], fun a ha => ?_⟩
    rcases List.mem_append.mp ha with ha | ha
    · exact hlater a ha
    · refine (hlater' a ha).mono hst.inboundEvents.length_le ?_
      rw [hds, List.length_append]
      exact Nat.le_add_right _ _
  · intro s op hs
    refine ⟨step_evolves rt s op hs.toWellFormed, ?_⟩
    rcases (step_spec rt s op).transaction hs with h | h
    · rw [h]
      exact ⟨[], (List.append_nil _).symm, by simp⟩
    · exact h.later

/-- Only an admitted ingestion stores an event, and it stores one. -/
private theorem step_event {rt : Runtime} {s : Sys} (hs : Sourced s.store) {op : Op}
    (h : s.store.inboundEvents.length < (step rt s op).store.inboundEvents.length) :
    ∃ sub effect, op = .ingestEvent sub ∧ Admitted rt s.store sub effect ∧
      (step rt s op).store = (applied rt s.store sub s.clock effect).1 := by
  have hstep := step_spec rt s op
  generalize step rt s op = s' at h hstep ⊢
  cases hstep with
  | idle store _ _ =>
    rw [store] at h
    exact absurd h (Nat.lt_irrefl _)
  | @ingested sub store r hok =>
    cases hnew : s.store.findExistingEvent sub.source sub.externalId with
    | some id =>
      obtain ⟨-, rfl, -⟩ := ingestEventSnapshot_replayed hnew hok
      exact absurd h (Nat.lt_irrefl _)
    | none =>
      obtain ⟨effect, hadmitted, he⟩ := admitted_of_ok hs hnew hok
      exact ⟨sub, effect, rfl, hadmitted, congrArg Prod.fst he⟩
  | claimed | settled | recorded => exact absurd h (Nat.lt_irrefl _)
  | operatorCancelled =>
    simp only [store_commit, cancelScheduledAccountOutreach_eq] at h
    exact absurd h (Nat.lt_irrefl _)

/-- The event that an ingestion stores. -/
@[simp] theorem applied_inboundEvents (rt : Runtime) (s : Store) (sub : EventSubmission)
    (clock : Int) (effect : Effect) : (applied rt s sub clock effect).1.inboundEvents =
      s.inboundEvents ++ [storedEvent rt sub] := by
  cases effect <;> rfl

/-- Every stored event was committed by one ingestion of the run. -/
theorem event_committed (rt : Runtime) (clock : Int) (ops : List Op) {e : Nat}
    (he : e < (run (step rt) (start clock) ops).store.inboundEvents.length) :
    ∃ before sub after effect, ops = before ++ .ingestEvent sub :: after ∧
      (run (step rt) (start clock) before).store.inboundEvents.length = e ∧
      Admitted rt (run (step rt) (start clock) before).store sub effect ∧
      (run (step rt) (start clock) (before ++ [.ingestEvent sub])).store =
        (applied rt (run (step rt) (start clock) before).store sub
          (run (step rt) (start clock) before).clock effect).1 := by
  induction ops using List.reverseRecOn with
  | nil => simp [start, Store.empty] at he
  | append_singleton ops op ih =>
    by_cases hold : e < (run (step rt) (start clock) ops).store.inboundEvents.length
    · obtain ⟨before, sub, after, effect, rfl, hrest⟩ := ih hold
      exact ⟨before, sub, after ++ [op], effect, by simp, hrest⟩
    · rw [run_concat] at he
      obtain ⟨sub, effect, rfl, hadmitted, hstore⟩ :=
        step_event (run_sourced rt clock ops) (Nat.lt_of_le_of_lt (Nat.le_of_not_lt hold) he)
      have hlen : (run (step rt) (start clock) ops).store.inboundEvents.length = e := by
        rw [hstore, applied_inboundEvents, List.length_append, List.length_singleton] at he
        omega
      exact ⟨ops, sub, [], effect, rfl, hlen, hadmitted, by rw [run_concat, hstore]⟩

end Orchestrator.System
