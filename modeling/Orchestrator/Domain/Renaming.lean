import Orchestrator.Domain.IngestionPatch

/-!
# Renamings of generated ids

Generated ids carry no meaning: what an event writes in a renamed context is the renaming of
what it writes.
-/

namespace Orchestrator.Domain

open Base Orchestration

/-- A renaming of the generated ids of each table. -/
structure Renaming where
  customer : Equiv.Perm Nat
  account : Equiv.Perm Nat
  event : Equiv.Perm Nat
  decision : Equiv.Perm Nat
  task : Equiv.Perm Nat
  audit : Equiv.Perm Nat

namespace Renaming

variable (σ : Renaming)

/-- The renaming back. -/
def symm : Renaming where
  customer := σ.customer.symm
  account := σ.account.symm
  event := σ.event.symm
  decision := σ.decision.symm
  task := σ.task.symm
  audit := σ.audit.symm

/-- A renamed account row. -/
def onAccount (a : Account) : Account := { a with customerId := σ.customer a.customerId }

/-- A renamed decision row. -/
def onDecision (d : PolicyDecision) : PolicyDecision :=
  { d with
    accountId := σ.account d.accountId
    customerId := σ.customer d.customerId
    inboundEventId := d.inboundEventId.map σ.event }

/-- A renamed task row. -/
def onTask (t : OutreachTask) : OutreachTask :=
  { t with
    accountId := σ.account t.accountId
    customerId := σ.customer t.customerId
    idempotencyKey := ⟨σ.event t.idempotencyKey.inboundEventId, t.idempotencyKey.channel⟩
    policyDecisionId := t.policyDecisionId.map σ.decision }

/-- The renaming of the ids of one kind of entity. -/
def onEntity : EntityType → Equiv.Perm Nat
  | .inboundEvent => σ.event
  | .customer => σ.customer
  | .account => σ.account
  | .policyDecision => σ.decision
  | .outreachTask => σ.task

/-- A renamed audit row. -/
def onAudit (a : AuditEvent) : AuditEvent :=
  { a with
    entityId := σ.onEntity a.entityType a.entityId
    payload := { a.payload with inboundEventId := a.payload.inboundEventId.map σ.event } }

/-- A renamed result. -/
def onResult (r : EventIngestionResult) : EventIngestionResult :=
  { r with eventId := σ.event r.eventId }

/-- The renamed rows of a planning pass. -/
def onContext (ctx : EventContext) : EventContext :=
  { ctx with
    inboundEventId := σ.event ctx.inboundEventId
    customerId := σ.customer ctx.customerId
    accountId := σ.account ctx.accountId
    account := σ.onAccount ctx.account }

/-- The rows of `b` are the renamed rows of `a`, under the renamed keys. -/
structure Renames (a b : Store) : Prop where
  customers : Relabelled σ.customer id a.customers b.customers
  accounts : Relabelled σ.account σ.onAccount a.accounts b.accounts
  inboundEvents : Relabelled σ.event id a.inboundEvents b.inboundEvents
  policyDecisions : Relabelled σ.decision σ.onDecision a.policyDecisions b.policyDecisions
  outreachTasks : Relabelled σ.task σ.onTask a.outreachTasks b.outreachTasks
  auditEvents : Relabelled σ.audit σ.onAudit a.auditEvents b.auditEvents

/-- The ids that a store has used keep their names. -/
structure Fixes (s : Store) : Prop where
  customer : ∀ k < s.customers.length, σ.customer k = k
  account : ∀ k < s.accounts.length, σ.account k = k
  event : ∀ k < s.inboundEvents.length, σ.event k = k
  decision : ∀ k < s.policyDecisions.length, σ.decision k = k
  task : ∀ k < s.outreachTasks.length, σ.task k = k
  audit : ∀ k < s.auditEvents.length, σ.audit k = k

/-- The patch `p'` is the renamed patch `p`. -/
structure Moves (p p' : StorePatch) : Prop where
  customers : Patch.Moves id p.customers p'.customers
  accounts : Patch.Moves σ.onAccount p.accounts p'.accounts
  inboundEvents : Patch.Moves id p.inboundEvents p'.inboundEvents
  policyDecisions : Patch.Moves σ.onDecision p.policyDecisions p'.policyDecisions
  outreachTasks : Patch.Moves σ.onTask p.outreachTasks p'.outreachTasks
  auditEvents : Patch.Moves σ.onAudit p.auditEvents p'.auditEvents

variable {σ}

@[simp] theorem onAccount_symm (a : Account) : σ.symm.onAccount (σ.onAccount a) = a := by
  simp [onAccount, symm]

@[simp] theorem onDecision_symm (d : PolicyDecision) : σ.symm.onDecision (σ.onDecision d) = d := by
  simp [onDecision, symm, Function.comp_def]

@[simp] theorem onTask_symm (t : OutreachTask) : σ.symm.onTask (σ.onTask t) = t := by
  simp [onTask, symm, Function.comp_def]

@[simp] theorem onEntity_symm (kind : EntityType) (k : Nat) :
    σ.symm.onEntity kind (σ.onEntity kind k) = k := by
  cases kind <;> simp [onEntity, symm]

@[simp] theorem onAudit_symm (a : AuditEvent) : σ.symm.onAudit (σ.onAudit a) = a := by
  have hid : (σ.symm.event ∘ σ.event : Nat → Nat) = id := by
    funext k
    simp [symm]
  have hentity := onEntity_symm (σ := σ) a.entityType a.entityId
  simp only [onAudit, hentity, Option.map_map, hid, Option.map_id_fun, id_eq]

@[simp] theorem onResult_symm (r : EventIngestionResult) : σ.onResult (σ.symm.onResult r) = r := by
  simp [onResult, symm]

@[simp] theorem symm_symm : σ.symm.symm = σ := rfl

/-! ### Rows that keep their names -/

section

variable {s : Store}

/-- Stored accounts refer to used ids. -/
theorem Fixes.onAccount_eq (h : σ.Fixes s) (hs : Sourced s) {a : Account} (ha : a ∈ s.accounts) :
    σ.onAccount a = a := by
  rw [onAccount, h.customer _ (hs.owners a ha)]

/-- Stored decisions refer to used ids. -/
theorem Fixes.onDecision_eq (h : σ.Fixes s) (hs : Sourced s) {d : PolicyDecision}
    (hd : d ∈ s.policyDecisions) : σ.onDecision d = d := by
  have hevent : d.inboundEventId.map σ.event = d.inboundEventId := by
    cases he : d.inboundEventId with
    | none => rfl
    | some e => rw [Option.map_some, h.event e (hs.decisionEvent d hd e he)]
  rw [onDecision, h.account _ (hs.decisions d hd).account,
    h.customer _ (hs.decisions d hd).customer, hevent]

/-- Stored tasks refer to used ids. -/
theorem Fixes.onTask_eq (h : σ.Fixes s) (hs : Sourced s) {t : OutreachTask}
    (ht : t ∈ s.outreachTasks) : σ.onTask t = t := by
  obtain ⟨d, hd, hlt⟩ := hs.taskDecision t ht
  have hdecision : t.policyDecisionId.map σ.decision = t.policyDecisionId := by
    rw [hd, Option.map_some, h.decision d hlt]
  rw [onTask, h.account _ (hs.tasks t ht).account, h.customer _ (hs.tasks t ht).customer,
    h.event _ (hs.tasks t ht).event, hdecision]

/-- Stored audit rows refer to used ids. -/
theorem Fixes.onAudit_eq (h : σ.Fixes s) (hs : Sourced s) {a : AuditEvent}
    (ha : a ∈ s.auditEvents) : σ.onAudit a = a := by
  have hevent : a.payload.inboundEventId.map σ.event = a.payload.inboundEventId := by
    cases he : a.payload.inboundEventId with
    | none => rfl
    | some e => rw [Option.map_some, h.event e (hs.auditPayload a ha e he)]
  have hentity : σ.onEntity a.entityType a.entityId = a.entityId := by
    cases hk : a.entityType with
    | inboundEvent => exact h.event _ (hs.auditEvent a ha hk)
    | customer => exact h.customer _ ((hs.audits a ha).customer hk)
    | account => exact h.account _ ((hs.audits a ha).account hk)
    | policyDecision => exact h.decision _ ((hs.audits a ha).decision hk)
    | outreachTask => exact h.task _ (hs.auditTask a ha hk)
  rw [onAudit, hevent, hentity]

end

/-! ### Renamed patches -/

/-- A patch that moves along `f` moves back along its inverse. -/
private theorem moves_symm {ρ : Type} {f g : ρ → ρ} (hgf : ∀ r, g (f r) = r)
    (hfg : ∀ r, f (g r) = r) {p p' : Patch ρ} (h : Patch.Moves f p p') : Patch.Moves g p' p where
  rows := by
    rw [h.rows, List.map_map]
    exact (List.map_congr_left fun r _ => hgf r).trans (List.map_id' _) |>.symm
  update r := by
    have hr := h.update (g r)
    rw [hfg] at hr
    rw [hr, hgf]

/-- A renamed patch is renamed back. -/
theorem Moves.symm {p p' : StorePatch} (h : σ.Moves p p') : σ.symm.Moves p' p where
  customers := moves_symm (fun _ => rfl) (fun _ => rfl) h.customers
  accounts := moves_symm onAccount_symm (onAccount_symm (σ := σ.symm)) h.accounts
  inboundEvents := moves_symm (fun _ => rfl) (fun _ => rfl) h.inboundEvents
  policyDecisions := moves_symm onDecision_symm (onDecision_symm (σ := σ.symm)) h.policyDecisions
  outreachTasks := moves_symm onTask_symm (onTask_symm (σ := σ.symm)) h.outreachTasks
  auditEvents := moves_symm onAudit_symm (onAudit_symm (σ := σ.symm)) h.auditEvents

section

variable {rt : Runtime} {sub : EventSubmission} {clock : Int} {ctx : EventContext}

/-- A planner's row of the renamed context is the renamed row. -/
theorem onAudit_plannerAudit (eventType : AuditEventType) (entityType : EntityType)
    (entityId : Nat) (payload : AuditPayload) :
    σ.onAudit (plannerAudit ctx eventType entityType entityId payload) =
      plannerAudit (σ.onContext ctx) eventType entityType (σ.onEntity entityType entityId)
        payload := rfl

/-- An event may cancel the same tasks under every naming. -/
theorem cancellable_onContext (t : OutreachTask) :
    cancellable (σ.onContext ctx) (σ.onTask t) = cancellable ctx t := by
  simp only [cancellable, onContext, onTask, Equiv.apply_eq_iff_eq]
  rfl

/-- Decisions renamed in step from `base` are renamed in step from its successor. -/
private theorem decision_succ {base base' n : Nat}
    (h : ∀ j < n + 1, σ.decision (base + j) = base' + j) :
    σ.decision base = base' ∧ ∀ j < n, σ.decision (base + 1 + j) = base' + 1 + j := by
  refine ⟨h 0 (Nat.succ_pos _), fun j hj => ?_⟩
  have hj' := h (j + 1) (Nat.succ_lt_succ hj)
  rwa [Nat.add_comm j, ← Nat.add_assoc, ← Nat.add_assoc] at hj'

/-- The task of an outcome in the renamed context is the renamed task. -/
private theorem task_onContext {base base' : Nat} (hbase : σ.decision base = base')
    (o : Outcome) : Outcome.task (σ.onContext ctx) clock (o, base') =
      (Outcome.task ctx clock (o, base)).map σ.onTask := by
  cases hat : o.scheduledAt with
  | none => simp [Outcome.task, hat]
  | some time => simp [Outcome.task, hat, taskRow, onContext, onTask, hbase]

/-- The tasks of a pass in the renamed context are the renamed tasks. -/
theorem plannedTasks_onContext {base base' : Nat} {os : List Outcome}
    (h : ∀ j < os.length, σ.decision (base + j) = base' + j) :
    plannedTasks (σ.onContext ctx) clock base' os =
      (plannedTasks ctx clock base os).map σ.onTask := by
  induction os generalizing base base' with
  | nil => rfl
  | cons o os ih =>
    obtain ⟨hhead, htail⟩ := decision_succ h
    rw [plannedTasks_cons, plannedTasks_cons, ih htail, task_onContext hhead, List.map_append]
    cases Outcome.task ctx clock (o, base) <;> rfl

/-- The audit rows of an outcome in the renamed context are the renamed rows. -/
private theorem rows_onContext {base base' : Nat} (hbase : σ.decision base = base')
    (o : Outcome) : Outcome.rows (σ.onContext ctx) (o, base') =
      (Outcome.rows ctx (o, base)).map σ.onAudit := by
  subst hbase
  have hexit : exitRows (σ.onContext ctx) o.result = (exitRows ctx o.result).map σ.onAudit := by
    unfold exitRows
    cases o.result.decision <;> rfl
  simp only [Outcome.rows, List.map_cons, List.map_append, hexit]
  cases o.scheduledAt <;> rfl

/-- The audit rows of a pass in the renamed context are the renamed rows. -/
theorem plannedRows_onContext {base base' : Nat} {os : List Outcome}
    (h : ∀ j < os.length, σ.decision (base + j) = base' + j) :
    plannedRows (σ.onContext ctx) base' os = (plannedRows ctx base os).map σ.onAudit := by
  induction os generalizing base base' with
  | nil => rfl
  | cons o os ih =>
    obtain ⟨hhead, htail⟩ := decision_succ h
    rw [plannedRows_cons, plannedRows_cons, ih htail, rows_onContext hhead, List.map_append]

/-- The record of a cancelling event in the renamed context is the renamed record. -/
private theorem recordRows_onContext :
    recordRows (σ.onContext ctx) = (recordRows ctx).map σ.onAudit := by
  unfold recordRows
  have htype : (σ.onContext ctx).inboundEvent = ctx.inboundEvent := rfl
  rw [htype]
  split <;> rfl

private theorem moves_append {ρ : Type} {f : ρ → ρ} {l l' : List ρ} (h : l' = l.map f) :
    Patch.Moves f { rows := l } { rows := l' } := ⟨h, fun _ => rfl⟩

private theorem moves_customerPatch (known : Bool) :
    Patch.Moves id (customerPatch sub known) (customerPatch sub known) :=
  ⟨(List.map_id _).symm, fun _ => rfl⟩

private theorem moves_accountPatch (known : Bool) (customerId : Nat) :
    Patch.Moves σ.onAccount (accountPatch sub known customerId)
      (accountPatch sub known (σ.customer customerId)) where
  rows := by
    cases known <;> rfl
  update a := by
    simp only [accountPatch, onAccount]
    split <;> rfl

/-- The patch of an event in the renamed context is the renamed patch. -/
theorem moves_effectPatch {known : Known} {base base' : Nat}
    {cancelled : List (OutreachTask × Nat)} {effect : Effect}
    (hdecisions : ∀ os, effect = .planned os → ∀ j < os.length,
      σ.decision (base + j) = base' + j)
    (htasks : ∀ x ∈ cancelled, σ.task x.2 = x.2) :
    σ.Moves (effectPatch rt sub clock known ctx base cancelled effect)
      (effectPatch rt sub clock known (σ.onContext ctx) base' cancelled effect) := by
  have hreceipt : receiptRows rt sub (σ.event ctx.inboundEventId) =
      (receiptRows rt sub ctx.inboundEventId).map σ.onAudit := rfl
  cases effect with
  | planned os =>
    refine ⟨moves_customerPatch _, moves_accountPatch _ _, moves_append (List.map_id _).symm,
      moves_append ?_, moves_append (plannedTasks_onContext (hdecisions os rfl)),
      moves_append ?_⟩
    · rw [plannedDecisions, plannedDecisions, List.map_map]
      rfl
    · rw [List.map_append, ← plannedRows_onContext (hdecisions os rfl), ← hreceipt]
      rfl
  | cancelled marker =>
    refine ⟨moves_customerPatch _, moves_accountPatch _ _, moves_append (List.map_id _).symm,
      moves_append rfl, ⟨rfl, fun t => ?_⟩, moves_append ?_⟩
    · simp only [effectPatch, OutreachTask.cancelWhere, cancellable_onContext]
      split <;> rfl
    · have hcancelled : cancelled.map (cancelledRow (σ.onContext ctx)) =
          (cancelled.map (cancelledRow ctx)).map σ.onAudit := by
        rw [List.map_map]
        apply List.map_congr_left
        intro x hx
        rw [Function.comp_apply, cancelledRow, cancelledRow, onAudit_plannerAudit]
        simp only [onEntity, htasks x hx]
        rfl
      simp only [List.map_append, ← recordRows_onContext, ← hreceipt, hcancelled]
      rfl

end

end Renaming

end Orchestrator.Domain
