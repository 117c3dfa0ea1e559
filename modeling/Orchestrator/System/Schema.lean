import Orchestrator.Migrations.Encoding
import Orchestrator.System.Correspondence
import Orchestrator.System.InFlight
import Orchestrator.System.Provenance
import Orchestrator.System.ReplayKey
import Orchestrator.System.Trace

/-!
# The store fits the migrated tables

Every reachable store, written out as rows, meets the constraints that the migrations declare:
its texts and integers fit their columns, its references point at stored rows, and its unique
columns are unique. A task is attempted three times at most.
-/

namespace Orchestrator.System

open Base Domain Orchestration Workers

/-! ### Rows from outside -/

/-- Customers, accounts and events fit their columns. -/
structure RowsFit (s : Store) : Prop where
  customers : ∀ c ∈ s.customers, c.fits = true
  accounts : ∀ a ∈ s.accounts, a.fits = true
  inboundEvents : ∀ e ∈ s.inboundEvents, e.fits = true

section

variable {rt : Runtime} {s s' : Store} {sub : EventSubmission} {effect : Effect}

/-- An upsert leaves rows that fit. -/
private theorem upsert_fits {ρ : Type} {col : ρ → String} {x : String} {new : ρ} {f : ρ → ρ}
    {t t' : List ρ} {k : Nat} {r : ρ} {fits : ρ → Bool} (h : Table.Upsert col x new f t t' k r)
    (hr : fits r = true) (ht : ∀ r ∈ t, fits r = true) : ∀ r ∈ t', fits r = true := by
  intro r' hr'
  obtain ⟨i, hi⟩ := List.mem_iff_getElem?.mp hr'
  rcases h.origin hi with ⟨-, rfl⟩ | ⟨-, hold⟩
  · exact hr
  · exact ht _ (List.mem_of_getElem? hold)

/-- The customer row of an admitted event fits. -/
private theorem admitted_customer_fits (h : Admitted rt s sub effect) :
    (contextOf rt s sub).customer.fits = true := by
  have hf := h.fresh
  have hfits := (decideIngestion_fits h.decided).1
  rcases hf.customer.written with he | ⟨c, he⟩
  · rw [he]
    exact hfits
  · have hx : c.externalId = sub.customer.externalId := by
      have hid := hf.customerExternalId
      rw [he] at hid
      exact hid
    rw [he, applyCustomerSnapshot_fits hx]
    exact hfits

/-- The account row of an admitted event fits. -/
private theorem admitted_account_fits (h : Admitted rt s sub effect) :
    (contextOf rt s sub).account.fits = true := by
  have hf := h.fresh
  have hfits := (decideIngestion_fits h.decided).2.1
  have hx := hf.accountExternalId
  rcases hf.account.written with he | ⟨a, he⟩
  · rw [he]
    exact hfits
  · rw [he] at hx ⊢
    simp only [Account.fits, applyAccountSnapshot, newAccount] at hx hfits ⊢
    rw [hx]
    exact hfits

/-- Recording a cancelling event keeps rows that fit. -/
private theorem record_fits (ctx : EventContext) {customers : List Customer}
    {accounts : List Account} (hc : ∀ c ∈ customers, c.fits = true)
    (ha : ∀ a ∈ accounts, a.fits = true) :
    (∀ c ∈ recordCustomers ctx customers, c.fits = true) ∧
      ∀ a ∈ recordAccounts ctx accounts, a.fits = true := by
  constructor
  · intro c' hc'
    unfold recordCustomers at hc'
    split at hc'
    · obtain ⟨i, hi⟩ := List.mem_iff_getElem?.mp hc'
      rw [List.getElem?_modify, Option.map_eq_map, Option.map_eq_some_iff] at hi
      obtain ⟨c, hi, rfl⟩ := hi
      have hfits := hc c (List.mem_of_getElem? hi)
      split <;> exact hfits
    · exact hc c' hc'
  · intro a' ha'
    unfold recordAccounts at ha'
    split at ha'
    · obtain ⟨i, hi⟩ := List.mem_iff_getElem?.mp ha'
      rw [List.getElem?_modify, Option.map_eq_map, Option.map_eq_some_iff] at hi
      obtain ⟨a, hi, rfl⟩ := hi
      have hfits := ha a (List.mem_of_getElem? hi)
      split <;> exact hfits
    · exact ha a' ha'

/-- Every transaction keeps rows that fit. -/
theorem Transaction.rowsFit (hr : RowsFit s) (h : Transaction rt s s') : RowsFit s' := by
  cases h with
  | @ingested sub effect clock h =>
    have hf := h.fresh
    have hcustomers := upsert_fits hf.customer (admitted_customer_fits h) hr.customers
    have haccounts := upsert_fits hf.account (admitted_account_fits h) hr.accounts
    have hevents : ∀ e ∈ (applied rt s sub clock effect).1.inboundEvents, e.fits = true := by
      intro e he
      rw [applied_inboundEvents, List.mem_append, List.mem_singleton] at he
      rcases he with he | rfl
      · exact hr.inboundEvents e he
      · exact (decideIngestion_fits h.decided).2.2
    cases effect with
    | planned os => exact ⟨hcustomers, haccounts, hevents⟩
    | cancelled marker =>
      obtain ⟨hc, ha⟩ := record_fits (contextOf rt s sub) hcustomers haccounts
      exact ⟨hc, ha, hevents⟩
  | wrote row hw payload => exact ⟨hr.customers, hr.accounts, hr.inboundEvents⟩
  | operatorCancelled row =>
    rw [cancelScheduledAccountOutreach_eq]
    exact ⟨hr.customers, hr.accounts, hr.inboundEvents⟩

end

/-- In every reachable store customers, accounts and events fit their columns. -/
theorem run_rowsFit (rt : Runtime) (clock : Int) (ops : List Op) :
    RowsFit (run (step rt) (start clock) ops).store :=
  run_transaction_invariant ⟨by simp [Store.empty], by simp [Store.empty], by simp [Store.empty]⟩
    (fun _ _ _ hr h => h.rowsFit hr) clock ops

/-! ### Attempts and actors -/

/-- A task whose error fits and which has been attempted three times at most, fewer while it
is scheduled. -/
structure TaskBounds (t : OutreachTask) : Prop where
  lastError : fitsStringOption 1000 t.lastError = true
  attempts : t.attemptCount ≤ 3
  maxAttempts : t.maxAttempts = 3
  waiting : t.status = .scheduled → t.attemptCount < 3

/-- Tasks are bounded, and actors fit. -/
structure Bounded (s : Store) : Prop where
  tasks : ∀ t ∈ s.outreachTasks, TaskBounds t
  actors : ∀ a ∈ s.auditEvents, fitsStringOption 255 a.actorId = true

section

variable {rt : Runtime} {s : Store}

/-- A bounded row in place of a stored one. -/
private theorem Bounded.modify (hb : Bounded s) {taskId : Nat} {t : OutreachTask}
    {f : OutreachTask → OutreachTask} {a : AuditEvent} (ht : s.outreachTasks[taskId]? = some t)
    (hf : TaskBounds t → TaskBounds (f t)) (ha : fitsStringOption 255 a.actorId = true) :
    Bounded ({ s with outreachTasks := s.outreachTasks.modify taskId f }.appendAuditEvent a) where
  tasks u hu := by
    rw [Store.appendAuditEvent, Table.modify_eq_set ht] at hu
    rcases List.mem_or_eq_of_mem_set hu with hu | rfl
    · exact hb.tasks u hu
    · exact hf (hb.tasks t (List.mem_of_getElem? ht))
  actors b hb' := by
    rcases List.mem_append.mp hb' with hb' | hb'
    · exact hb.actors b hb'
    · rw [List.mem_singleton.mp hb']
      exact ha

/-- A cancelled task stays bounded. -/
private theorem taskBounds_cancelWhere (p : OutreachTask → Bool) {t : OutreachTask}
    (h : TaskBounds t) : TaskBounds (OutreachTask.cancelWhere p t) := by
  unfold OutreachTask.cancelWhere
  split
  · exact ⟨h.lastError, h.attempts, h.maxAttempts, by simp [OutreachTask.cancel]⟩
  · exact h

/-- A failed attempt leaves a bounded task: its worker held the task's own counters. -/
private theorem taskBounds_failure {copy t : OutreachTask} {error : String} {config : PassConfig}
    (hcount : t.attemptCount = copy.attemptCount) (hmax : t.maxAttempts = copy.maxAttempts)
    (herror : fitsString 1000 error = true) (h : TaskBounds t) :
    TaskBounds (failureWrite copy error config t) where
  lastError := herror
  attempts := h.attempts
  maxAttempts := h.maxAttempts
  waiting hstatus := by
    simp only [failureWrite, finalStatus] at hstatus
    split at hstatus
    · next hretry =>
      have hlt : copy.attemptCount < copy.maxAttempts := of_decide_eq_true hretry
      have hthree := h.maxAttempts
      show t.attemptCount < 3
      omega
    · cases hstatus

/-- A manual result that is committed leaves a bounded task. -/
private theorem bounded_manual (hb : Bounded s) {taskId : Nat} {loaded : OutreachTaskStatus}
    {body : DeliveryResultRequest} {s' : Store}
    (h : recordManualDeliveryResult s taskId loaded body = .ok s') : Bounded s' := by
  obtain ⟨t, ht, hstatus, hallowed, rfl⟩ := recordManualDeliveryResult_ok h
  have hfits : fitsStringOption 1000 (manualLastError body) = true := by
    rw [← hstatus, recordManualDeliveryResult_eq ht hallowed] at h
    split at h
    · next hheld => exact (lastErrorRefused_eq_none.mp hheld).1
    · cases h
  refine hb.modify ht (fun hbounds => ?_) (by simp only [deliveryResultRecorded]; decide)
  refine ⟨hfits, hbounds.attempts, hbounds.maxAttempts, fun hscheduled => ?_⟩
  cases hbody : body.status <;> simp [manualWrite, DeliveryStatus.toStatus, hbody] at hscheduled

/-- The actors of an ingestion's rows fit. -/
private theorem ingestionRows_actor {sub : EventSubmission} {effect : Effect} :
    ∀ a ∈ ingestionRows rt s sub effect, fitsStringOption 255 a.actorId = true := by
  have hreceipt : ∀ a ∈ receiptRows rt sub s.inboundEvents.length,
      fitsStringOption 255 a.actorId = true := by
    simp [receiptRows, ingestionAudit, fitsStringOption]
  have hplanner : fitsStringOption 255 (some "outreach-planner") = true := by decide
  cases effect with
  | planned os =>
    intro a ha
    rcases List.mem_append.mp ha with ha | ha
    · exact hreceipt a ha
    · obtain ⟨j, o, ho, rfl | hexit | ⟨time, rfl⟩⟩ := mem_plannedRows ha
      · exact hplanner
      · unfold exitRows at hexit
        split at hexit
        · rw [List.mem_singleton.mp hexit]
          exact hplanner
        · rw [List.mem_singleton.mp hexit]
          exact hplanner
        · cases hexit
      · exact hplanner
  | cancelled marker =>
    intro a ha
    simp only [ingestionRows, List.mem_append, List.mem_singleton] at ha
    rcases ha with ha | ha | ha | rfl
    · exact hreceipt a ha
    · unfold recordRows at ha
      split at ha <;> simp only [List.mem_singleton, List.not_mem_nil] at ha <;> rw [ha] <;>
        exact hplanner
    · obtain ⟨x, -, rfl⟩ := List.mem_map.mp ha
      exact hplanner
    · exact hplanner

/-- An ingestion leaves bounded tasks. -/
private theorem bounded_ingest (hs : Sourced s) (hb : Bounded s) (sub : EventSubmission)
    (clock : Int) : Bounded (ingest rt s sub clock) := by
  unfold ingest
  cases h : ingestEventSnapshot rt s sub clock with
  | error e => exact hb
  | ok x =>
    obtain ⟨store, r⟩ := x
    show Bounded store
    rcases replayed_or_admitted hs h with rfl | ⟨effect, -, rfl⟩
    · exact hb
    · constructor
      · intro t ht
        cases effect with
        | planned os =>
          rcases List.mem_append.mp ht with ht | ht
          · exact hb.tasks t ht
          · obtain ⟨j, o, time, -, -, rfl⟩ := mem_plannedTasks.mp ht
            exact ⟨rfl, Nat.zero_le 3, rfl, fun _ => Nat.zero_lt_succ 2⟩
        | cancelled marker =>
          obtain ⟨u, hu, rfl⟩ := List.mem_map.mp ht
          exact taskBounds_cancelWhere _ (hb.tasks u hu)
      · intro a ha
        rw [applied_auditEvents] at ha
        rcases List.mem_append.mp ha with ha | ha
        · exact hb.actors a ha
        · exact ingestionRows_actor a ha

/-- An operator's cancellation leaves bounded tasks. -/
private theorem bounded_operator (hb : Bounded s) (accountId : Nat) (account : Account)
    (reason : String) (correlationId : Nat) :
    Bounded (cancelScheduledAccountOutreach s accountId account reason correlationId).1 := by
  rw [cancelScheduledAccountOutreach_eq]
  constructor
  · intro t ht
    obtain ⟨u, hu, rfl⟩ := List.mem_map.mp ht
    exact taskBounds_cancelWhere _ (hb.tasks u hu)
  · intro a ha
    rcases List.mem_append.mp ha with ha | ha
    · exact hb.actors a ha
    · obtain ⟨x, -, rfl⟩ := List.mem_map.mp ha
      simp only [operatorCancelledRow]
      decide

end

/-- The store of a system and its workers' copies. -/
structure WithinBounds (s : Sys) : Prop where
  sourced : Sourced s.store
  inFlight : InFlight s
  bounded : Bounded s.store

/-- A claim leaves bounded tasks: only a scheduled one gets an attempt. -/
private theorem bounded_claim {s : Store} (hb : Bounded s) (taskId : Nat) (config : PassConfig) :
    Bounded (claimTask s taskId config.now config.workerId).1 := by
  rcases claimTask_cases s taskId config.now config.workerId with ⟨t, ht, hdue, hc⟩ | hc
  · rw [hc]
    refine hb.modify ht (fun hbounds => ?_) config.workerId.fits
    have hlt := hbounds.waiting (scheduled_of_due hdue)
    exact ⟨hbounds.lastError, hlt, hbounds.maxAttempts, by simp [claimWrite]⟩
  · rw [hc]
    exact hb

/-- A settlement by a worker whose copy has the stored counters leaves bounded tasks. -/
private theorem bounded_settle {s s' : Store} (hb : Bounded s) {taskId : Nat}
    {copy u : OutreachTask} {config : PassConfig} {outcome : SendOutcome}
    (hu : s.outreachTasks[taskId]? = some u)
    (hcount : u.attemptCount = copy.attemptCount) (hmax : u.maxAttempts = copy.maxAttempts)
    (h : settleAttempt s taskId copy outcome config = .ok s') : Bounded s' := by
  rcases settleAttempt_cases h with rfl | ⟨t, ht, -, ⟨result, -, rfl⟩ | ⟨error, -, herror, rfl⟩⟩
  · exact hb
  · refine hb.modify ht (fun hbounds => ?_) config.workerId.fits
    exact ⟨rfl, hbounds.attempts, hbounds.maxAttempts, by simp [successWrite]⟩
  · obtain rfl : u = t := Option.some.inj (hu.symm.trans ht)
    exact hb.modify ht (taskBounds_failure hcount hmax herror) config.workerId.fits

/-- A step leaves bounded tasks and actors that fit. -/
private theorem step_bounded (rt : Runtime) {s : Sys} (op : Op) (h : WithinBounds s) :
    Bounded (step rt s op).store := by
  cases op with
  | tick elapsed => exact h.bounded
  | ingestEvent sub => exact bounded_ingest h.sourced h.bounded sub s.clock
  | startPass worker config =>
    simp only [step]
    split <;> exact h.bounded
  | claim worker =>
    simp only [step, stepClaim]
    split
    · next config taskId queue hp => exact bounded_claim h.bounded taskId config
    · exact h.bounded
  | settle worker outcome =>
    simp only [step, stepSettle]
    split
    · next config queue taskId copy hp =>
      obtain ⟨u, hu, -, hcount, hmax⟩ :=
        h.inFlight.copy worker taskId copy (by simp [Sys.attempt, hp])
      split
      · next store hs => exact bounded_settle h.bounded hu hcount hmax hs
      · exact h.bounded
    · exact h.bounded
  | crash worker => exact h.bounded
  | recordDeliveryResult taskId loaded body =>
    simp only [step]
    split
    · next store hs => exact bounded_manual h.bounded hs
    · exact h.bounded
  | cancelOutreach accountExternalId reason correlationId =>
    simp only [step]
    split
    · next store n hs =>
      obtain ⟨accountId, account, -, -, he⟩ := cancelAccountOutreach_eq_some hs
      obtain rfl := congrArg Prod.fst he
      exact bounded_operator h.bounded accountId account reason correlationId
    · exact h.bounded

/-- Every run stays within bounds. -/
theorem run_withinBounds (rt : Runtime) (clock : Int) (ops : List Op) :
    WithinBounds (run (step rt) (start clock) ops) := by
  have hstart : WithinBounds (start clock) := by
    refine ⟨sourced_empty, ?_, ?_⟩
    · constructor <;> simp [start, Sys.attempt]
    · constructor <;> simp [start, Store.empty]
  refine run_invariant (I := WithinBounds) (fun s op h => ?_) _ hstart ops
  exact ⟨step_sourced rt s op h.sourced,
    step_inFlight rt s op h.sourced.toWellFormed h.inFlight, step_bounded rt op h⟩

/-! ### The migrated tables -/

open Migrations in
/-- In every reachable store the values that come from outside are in range. -/
theorem run_inRange (rt : Runtime) (hsha : ∀ text, (rt.sha256hex text).length ≤ 64) (clock : Int)
    (ops : List Op) : InRange (run (step rt) (start clock) ops).store := by
  have hrows := run_rowsFit rt clock ops
  have hbounded := (run_withinBounds rt clock ops).bounded
  refine ⟨hrows.customers, hrows.accounts, hrows.inboundEvents, fun e he => ?_,
    fun t ht => (hbounded.tasks t ht).lastError,
    fun t ht => ⟨(hbounded.tasks t ht).attempts, (hbounded.tasks t ht).maxAttempts⟩,
    hbounded.actors⟩
  have hstart : "inbound_event:".length = 14 := by decide
  have hdigest := hsha (e.source ++ "\x1f" ++ e.externalId)
  have hlength : (inboundEventIdempotencyKey rt e.source e.externalId).length =
      14 + (rt.sha256hex (e.source ++ "\x1f" ++ e.externalId)).length := by
    show ("inbound_event:" ++ rt.sha256hex (e.source ++ "\x1f" ++ e.externalId)).length = _
    rw [String.length_append, hstart]
  rw [(run_keysDerived rt clock ops).derived e he]
  apply decide_eq_true
  omega

section

open Migrations

variable {columns : Columns} {s : Store}

/-- A UUID's text has no colon. -/
private theorem colon_notMem_text (table : EntityType) (k : Nat) :
    ':' ∉ (columns.text table k).toList := by
  rw [Columns.text, String.toList_ofList]
  intro h
  rcases Uuid.mem_format h with h | h <;> exact absurd h (by decide)

private theorem length_text (columns : Columns) (table : EntityType) (k : Nat) :
    (columns.text table k).length = 36 := by
  rw [Columns.text, String.length_ofList, Uuid.length_format]

/-- The text of a task key fits its column. -/
private theorem taskKey_fits (key : TaskIdempotencyKey) :
    fitsString 255 (taskKey columns key) = true := by
  have hstart : "outreach_task:".length = 14 := by decide
  have hcolon : ":".length = 1 := by decide
  have hchannel : key.channel.value.length ≤ 5 := by
    cases key.channel <;> decide
  have htext := length_text columns .inboundEvent key.inboundEventId
  have hlength : (taskKey columns key).length = 14 + 36 + 1 + key.channel.value.length := by
    show ("outreach_task:" ++ columns.text .inboundEvent key.inboundEventId ++ ":" ++
      key.channel.value).length = _
    rw [String.length_append, String.length_append, String.length_append, hstart, hcolon, htext]
  apply decide_eq_true
  omega

/-- Task keys of stored events have different texts. -/
theorem taskKey_inj (hd : columns.Distinct s) {x y : TaskIdempotencyKey}
    (hx : x.inboundEventId < s.inboundEvents.length)
    (hy : y.inboundEventId < s.inboundEvents.length) (h : taskKey columns x = taskKey columns y) :
    x = y := by
  have hchannel : ':' ∉ x.channel.value.toList := by
    cases x.channel <;> decide
  obtain ⟨htext, hvalue⟩ := colon_inj (colon_notMem_text .inboundEvent _) hchannel h
  have hsame : x.channel = y.channel := by
    revert hvalue
    cases x.channel <;> cases y.channel <;> decide
  have hformat := congrArg String.toList htext
  rw [Columns.text, Columns.text, String.toList_ofList, String.toList_ofList] at hformat
  have hid := Uuid.format_inj (hd.uuid .inboundEvent _ hx) (hd.uuid .inboundEvent _ hy) hformat
  exact congrArg₂ TaskIdempotencyKey.mk (hd.id .inboundEvent _ hx _ hy hid) hsame

/-- The task keys of a store whose keys are distinct have distinct texts. -/
private theorem nodup_taskKeys (hd : columns.Distinct s) (hs : Domain.Sourced s)
    (hkeys : (s.outreachTasks.map OutreachTask.idempotencyKey).Nodup) :
    (s.outreachTasks.map fun t => taskKey columns t.idempotencyKey).Nodup := by
  have hinj : ∀ x ∈ s.outreachTasks.map OutreachTask.idempotencyKey,
      ∀ y ∈ s.outreachTasks.map OutreachTask.idempotencyKey,
        taskKey columns x = taskKey columns y → x = y := by
    intro x hx y hy he
    obtain ⟨t, ht, rfl⟩ := List.mem_map.mp hx
    obtain ⟨u, hu, rfl⟩ := List.mem_map.mp hy
    exact taskKey_inj hd (hs.tasks t ht).event (hs.tasks u hu).event he
  have hmap := hkeys.map_on hinj
  rwa [List.map_map] at hmap

/-- Distinct derived keys have distinct sources and external ids. -/
private theorem nodup_identity {rt : Runtime} (h : KeysDerived rt s) :
    (s.inboundEvents.map fun e => (e.source, e.externalId)).Nodup := by
  have hsame : s.inboundEvents.map ((fun x => inboundEventIdempotencyKey rt x.1 x.2) ∘
      fun e => (e.source, e.externalId)) = s.inboundEvents.map InboundEvent.idempotencyKey :=
    List.map_congr_left fun e he => (h.derived e he).symm
  apply List.Nodup.of_map fun x => inboundEventIdempotencyKey rt x.1 x.2
  rw [List.map_map, hsame]
  exact h.distinct

/-- The encoded references point at encoded rows. -/
theorem encode_foreignKeys (columns : Columns) (hs : Domain.Sourced s) :
    ForeignKeys (withoutSource (withoutCorrelation (encode columns s))) := by
  have hcustomer {k : Nat} (hk : k < s.customers.length) : columns.id .customer k ∈
      (s.customers.mapIdx (customerRow columns)).map CustomerRow.id :=
    mem_ids (h := columns.id .customer) (fun _ _ => by rfl) hk
  have haccount {k : Nat} (hk : k < s.accounts.length) : columns.id .account k ∈
      (s.accounts.mapIdx (accountRow columns)).map AccountRow.id :=
    mem_ids (h := columns.id .account) (fun _ _ => by rfl) hk
  have hdecision {k : Nat} (hk : k < s.policyDecisions.length) : columns.id .policyDecision k ∈
      (s.policyDecisions.mapIdx (policyDecisionRow columns)).map PolicyDecisionRow.id :=
    mem_ids (h := columns.id .policyDecision) (fun _ _ => by rfl) hk
  have hevent {k : Nat} (hk : k < s.inboundEvents.length) : columns.id .inboundEvent k ∈
      ((s.inboundEvents.mapIdx (Migrations.inboundEventRow columns)).map
        SourcedEventRow.toInboundEventRow).map InboundEventRow.id := by
    rw [List.map_map]
    exact mem_ids (h := columns.id .inboundEvent) (fun _ _ => by rfl) hk
  constructor
  · exact forall_mem_mapIdx fun a ha _ => hcustomer (hs.owners a ha)
  · exact forall_mem_mapIdx fun d hd _ => haccount (hs.decisions d hd).account
  · exact forall_mem_mapIdx fun d hd _ => hcustomer (hs.decisions d hd).customer
  · refine forall_mem_mapIdx fun d hd _ e he => ?_
    obtain ⟨k, hk, rfl⟩ := Option.map_eq_some_iff.mp (Option.mem_def.mp he)
    exact hevent (hs.decisionEvent d hd k hk)
  · exact List.forall_mem_map.mpr (forall_mem_mapIdx fun t ht _ => haccount (hs.tasks t ht).account)
  · exact List.forall_mem_map.mpr
      (forall_mem_mapIdx fun t ht _ => hcustomer (hs.tasks t ht).customer)
  · refine List.forall_mem_map.mpr (forall_mem_mapIdx fun t ht _ d hd => ?_)
    obtain ⟨k, hk, rfl⟩ := Option.map_eq_some_iff.mp (Option.mem_def.mp hd)
    obtain ⟨k', hk', hlt⟩ := hs.taskDecision t ht
    rw [hk, Option.some.injEq] at hk'
    subst hk'
    exact hdecision hlt

/-- The generated ids are primary keys. -/
private theorem encode_primaryKeys (hd : columns.Distinct s) :
    PrimaryKeys (withoutSource (withoutCorrelation (encode columns s))) := by
  constructor
  · exact nodup_mapIdx (h := columns.auditId) (fun _ _ => by rfl) hd.auditId
  · exact nodup_mapIdx (h := columns.id .customer) (fun _ _ => by rfl) (hd.id .customer)
  · show (((s.inboundEvents.mapIdx (Migrations.inboundEventRow columns)).map
      SourcedEventRow.toInboundEventRow).map InboundEventRow.id).Nodup
    rw [List.map_map]
    exact nodup_mapIdx (h := columns.id .inboundEvent) (fun _ _ => by rfl) (hd.id .inboundEvent)
  · exact nodup_mapIdx (h := columns.id .account) (fun _ _ => by rfl) (hd.id .account)
  · exact nodup_mapIdx (h := columns.id .policyDecision) (fun _ _ => by rfl) (hd.id .policyDecision)
  · show (((s.outreachTasks.mapIdx (outreachTaskRow columns)).map
      CorrelatedTaskRow.toOutreachTaskRow).map OutreachTaskRow.id).Nodup
    rw [List.map_map]
    exact nodup_mapIdx (h := columns.id .outreachTask) (fun _ _ => by rfl) (hd.id .outreachTask)

/-- The encoded values fit their columns. -/
private theorem encode_columnTypes (columns : Columns) (h : InRange s) :
    ColumnTypes (withoutSource (withoutCorrelation (encode columns s))) := by
  constructor
  · refine forall_mem_mapIdx fun a ha k => ?_
    have hentity : fitsString 255 a.entityType.value = true := by cases a.entityType <;> decide
    have hid : fitsString 255 (columns.text a.entityType a.entityId) = true := by
      rw [fitsString, length_text]
      decide
    have htype : fitsString 255 a.eventType.value = true := by cases a.eventType <;> decide
    have hactor : fitsString 13 a.actorType.value = true := by cases a.actorType <;> decide
    simp only [AuditEventRow.fits, auditEventRow, hentity, hid, htype, hactor, h.actors a ha,
      Bool.and_self]
  · exact forall_mem_mapIdx fun c hc k => h.customers c hc
  · refine List.forall_mem_map.mpr (forall_mem_mapIdx fun e he k => ?_)
    have hfits := h.inboundEvents e he
    have hstatus : fitsString 9 e.processingStatus.value = true := by
      cases e.processingStatus <;> decide
    simp only [InboundEvent.fits, Bool.and_eq_true] at hfits
    simp only [InboundEventRow.fits, Migrations.inboundEventRow, hfits.1.1.1.2, hfits.1.1.2,
      hfits.1.2, hfits.2, h.idempotencyKeys e he, hstatus, Bool.and_self]
  · refine forall_mem_mapIdx fun a ha k => ?_
    have hfits := h.accounts a ha
    have hstatus : fitsString 10 (Api.accountStatusText a.status) = true := by
      cases a.status <;> decide
    simp only [Account.fits, Bool.and_eq_true] at hfits
    simp only [AccountRow.fits, accountRow, hfits.1.1, hfits.1.2, hfits.2, hstatus, Bool.and_self]
  · refine forall_mem_mapIdx fun d hd k => ?_
    have hdecision : fitsString 5 d.decision.value = true := by cases d.decision <;> decide
    have hchannel : fitsStringOption 5 (d.channel.map OutreachChannel.value) = true := by
      cases d.channel with
      | none => rfl
      | some channel => cases channel <;> decide
    simp only [PolicyDecisionRow.fits, policyDecisionRow, hdecision, hchannel, Bool.and_self]
  · refine List.forall_mem_map.mpr (forall_mem_mapIdx fun t ht k => ?_)
    obtain ⟨hattempts, hmax⟩ := h.attempts t ht
    have hchannel : fitsString 5 t.channel.value = true := by cases t.channel <;> decide
    have hstatus : fitsString 11 t.status.value = true := by cases t.status <;> decide
    have hcount : fitsInteger t.attemptCount = true := by
      simp only [fitsInteger, Bool.and_eq_true, decide_eq_true_eq]
      omega
    have hlimit : fitsInteger t.maxAttempts = true := by
      rw [hmax]
      decide
    simp only [OutreachTaskRow.fits, outreachTaskRow, hchannel, hstatus, hcount, hlimit,
      taskKey_fits, h.lastErrors t ht, Bool.and_self]

end

/-- Every reachable store is a valid content of the migrated database, and the revision that
added `source` can be taken back exactly while no two events share an external id. -/
theorem reachable_content (rt : Runtime) (hsha : ∀ text, (rt.sha256hex text).length ≤ 64)
    (columns : Migrations.Columns) (clock : Int) (ops : List Op)
    (hdistinct : columns.Distinct (run (step rt) (start clock) ops).store) :
    let s := (run (step rt) (start clock) ops).store
    Migrations.Correlated (Migrations.encode columns s) ∧
      (Migrations.DowngradeWorks
          Migrations.DeriveInboundEventIdempotencyFromSourceIdentity.downgrade
          Migrations.withoutSource (Migrations.withoutCorrelation (Migrations.encode columns s)) ↔
        (s.inboundEvents.map InboundEvent.externalId).Nodup) := by
  intro s
  have hs : Domain.Sourced s := run_sourced rt clock ops
  have hmirrors : Mirrors s := run_mirrors rt clock ops
  have hkeys : KeysDerived rt s := run_keysDerived rt clock ops
  have hcorresponds : Corresponds s.policyDecisions s.outreachTasks := run_corresponds rt clock ops
  have hrange : Migrations.InRange s := run_inRange rt hsha clock ops
  have htasks := nodup_taskKeys hdistinct hs hcorresponds.keys
  have hexternal : (Migrations.withoutCorrelation (Migrations.encode columns s)).inboundEvents.map
      (fun e => e.externalId) = s.inboundEvents.map InboundEvent.externalId :=
    Migrations.map_mapIdx_column (fun _ _ => by rfl) s.inboundEvents
  constructor
  · refine ⟨⟨⟨encode_primaryKeys hdistinct, encode_foreignKeys columns hs,
      encode_columnTypes columns hrange, ?_, ?_, ?_, ?_⟩, ?_, ?_⟩⟩
    · exact Migrations.nodup_column (fun _ _ => by rfl) hmirrors.customerIds
    · exact Migrations.nodup_column (fun _ _ => by rfl) hmirrors.accountIds
    · show (((s.inboundEvents.mapIdx (Migrations.inboundEventRow columns)).map
        Migrations.SourcedEventRow.toInboundEventRow).map
          Migrations.InboundEventRow.idempotencyKey).Nodup
      rw [List.map_map]
      exact Migrations.nodup_column (fun _ _ => by rfl) hkeys.distinct
    · show (((s.outreachTasks.mapIdx (Migrations.outreachTaskRow columns)).map
        Migrations.CorrelatedTaskRow.toOutreachTaskRow).map
          Migrations.OutreachTaskRow.idempotencyKey).Nodup
      rw [List.map_map]
      exact Migrations.nodup_column (fun _ _ => by rfl) htasks
    · refine Migrations.forall_mem_mapIdx fun e he _ => ?_
      have hfits := hrange.inboundEvents e he
      simp only [InboundEvent.fits, Bool.and_eq_true] at hfits
      exact hfits.1.1.1.1
    · exact Migrations.nodup_column (fun _ _ => by rfl) (nodup_identity hkeys)
  · rw [Migrations.DeriveInboundEventIdempotencyFromSourceIdentity.downgradeWorks_iff, hexternal]

/-- Columns for the sample runs: keys serve as ids. -/
def demoColumns : Migrations.Columns where
  id _ k := k
  auditId k := k
  createdAt _ _ := 0
  updatedAt _ _ := 0
  auditCreatedAt _ := 0
  payload _ := "\x7b\x7d"
  reasons _ := "[]"
  auditPayload _ := "\x7b\x7d"

/-- The sample digests have 64 digits. -/
private theorem demoRuntime_sha256hex (text : String) :
    (demoRuntime.sha256hex text).length ≤ 64 := by
  show ((demoDigests.lookup text).getD "").length ≤ 64
  cases h : demoDigests.lookup text with
  | none => decide
  | some digest =>
    obtain ⟨l₁, l₂, he, -⟩ := List.lookup_eq_some_iff.mp h
    have hall : ∀ d ∈ demoDigests, d.2.length ≤ 64 := by decide +kernel
    exact hall (text, digest) (by simp [he])

/-- The sample ids are distinct. -/
private theorem demoColumns_distinct :
    demoColumns.Distinct (run (step demoRuntime) (start 0) demoInFlight).store where
  uuid table := by cases table <;> decide +kernel
  id _ _ _ _ _ h := h
  auditId _ _ _ _ h := h

/-- The database while the sample email is in flight. -/
theorem reachable_content_inFlight :
    let s := (run (step demoRuntime) (start 0) demoInFlight).store
    Migrations.Correlated (Migrations.encode demoColumns s) ∧
      (Migrations.DowngradeWorks
          Migrations.DeriveInboundEventIdempotencyFromSourceIdentity.downgrade
          Migrations.withoutSource
          (Migrations.withoutCorrelation (Migrations.encode demoColumns s)) ↔
        (s.inboundEvents.map InboundEvent.externalId).Nodup) :=
  reachable_content demoRuntime demoRuntime_sha256hex demoColumns 0 demoInFlight
    demoColumns_distinct

end Orchestrator.System
