import Orchestrator.Api.Admission
import Orchestrator.System.Ledger

/-!
# What the system can store

A body that the validators accept can still carry an integer or a text that its column
refuses, or a time whose arithmetic leaves the years 1 to 9999. The routes raise no such
exception, in any reachable state, exactly for the bodies whose own values fit.
-/

namespace Orchestrator.System

open Api Base Domain Orchestration

/-- Exceptions of values out of range. -/
def OutOfRange (e : Failure) : Prop := e = .overflow ∨ ∃ table, e = .dataError table

/-- In no reachable state a route raises an exception of values out of range for the body. -/
def NeverOutOfRange (rt : Runtime) (body : RequestBody) : Prop :=
  ∀ (start' : Int) (ops : List Op) (ctx : RequestContext) (e : Failure),
    body.handle rt (run (step rt) (start start') ops).store ctx = .ok (.error e) → ¬OutOfRange e

/-- The values of an event fit: its integers, and the times that a policy event needs. -/
def EventFits (rt : Runtime) (sub : EventSubmission) : Prop :=
  IntegersFit sub.account ∧ (PolicyEvent sub.eventType →
    ∀ z, rt.zoneInfo sub.customer.timezone = some z → TimesFit z sub)

/-- The values of a body fit, if it is accepted. -/
def InCapacity (rt : Runtime) : RequestBody → Prop
  | .event body => ∀ correlationId sub, body.submission rt correlationId = .ok sub →
    EventFits rt sub
  | .deliveryResult body => body.errors = [] → body.status = "failed" →
    ∀ text, body.details.lookup "error" = some (.str text) → text.length ≤ 1000
  | .cancelOutreach _ => True

section

variable {rt : Runtime} {s : Store} {sub : EventSubmission}

/-- An accepted event whose values fit raises nothing out of range. -/
theorem decideIngestion_inRange (h : Admissible rt sub) (hfits : EventFits rt sub)
    (reads : Reads) : Raises (fun e => ¬OutOfRange e) (decideIngestion rt sub reads) := by
  have haccount := (h.accountFits_iff 0).mpr hfits.1
  unfold decideIngestion
  rw [h.customerFits, haccount, h.eventFits]
  simp only [Bool.not_true, Bool.false_eq_true, if_false]
  split
  · exact .error (by rintro (h | ⟨_, h⟩) <;> cases h)
  · split
    · exact .error (by rintro (h | ⟨_, h⟩) <;> cases h)
    · by_cases he : PolicyEvent sub.eventType
      · obtain ⟨z, hz⟩ := Option.isSome_iff_exists.mp h.zone
        obtain ⟨effect, heffect⟩ :=
          returns_of_timesFit hz he (hfits.2 he z hz) reads.optedOut reads.recent
        rw [heffect]
        exact .ok _
      · rw [PolicyEvent, not_or] at he
        unfold decideEffect
        cases ht : sub.eventType with
        | accountDelinquent => exact absurd ht he.1
        | paymentFailed => exact absurd ht he.2
        | other text => exact absurd ht (h.eventType text)
        | _ => exact .ok _

/-- A first ingestion reads nothing from the empty store. -/
theorem readsOf_empty (rt : Runtime) (sub : EventSubmission) :
    readsOf rt Store.empty sub = ⟨false, false, false, 0⟩ := by
  simp [readsOf, contextOf, customerKey, Table.upsertRow, Table.upsertKey, Store.empty,
    Table.lookup, newAccount, snapshotCustomer, newCustomer, applyCustomerSnapshot]

/-- The empty store refuses an accepted event only for a value out of range. -/
theorem eventFits_of_empty (h : Admissible rt sub)
    (hrange : Raises (fun e => ¬OutOfRange e) (ingestEventSnapshot rt Store.empty sub 0)) :
    EventFits rt sub := by
  have hsourced : Sourced Store.empty := run_sourced rt 0 []
  rw [ingestEventSnapshot_eq hsourced 0 rfl, readsOf_empty] at hrange
  have hdecide : Raises (fun e => ¬OutOfRange e)
      (decideIngestion rt sub ⟨false, false, false, 0⟩) := by
    intro e he
    exact hrange e (by rw [he]; rfl)
  unfold decideIngestion at hdecide
  rw [h.customerFits, h.eventFits] at hdecide
  simp only [Bool.not_true, Bool.false_eq_true, if_false] at hdecide
  have hintegers : IntegersFit sub.account := by
    by_contra hnot
    rw [← h.accountFits_iff 0, Bool.not_eq_true] at hnot
    rw [hnot] at hdecide
    exact hdecide _ rfl (Or.inr ⟨_, rfl⟩)
  rw [(h.accountFits_iff 0).mpr hintegers] at hdecide
  refine ⟨hintegers, fun he z hz => timesFit_of_returns hz he ?_⟩
  cases heffect : decideEffect rt sub false 0 with
  | ok effect => exact returns_ok effect
  | error e =>
    have hoverflow := (decideEffect_policyEvent_raises he false 0 e heffect).of_zone h.zone
    exact absurd (Or.inl hoverflow) (hdecide e heffect)

end

/-! ### Delivery results -/

/-- A payment failure of a customer who takes email only. -/
def emailOnly : EventSubmission :=
  { demoEvent "event-1" .paymentFailed "acct-1" demoNoon with
    customer := { demoCustomer with smsConsent := false } }

/-- The outcomes of that event: an email at noon, and a text without consent. -/
def emailOnlyOutcomes : List Outcome :=
  [⟨{ decision := .allow, channel := .email, reasons := [.policyAllowed] },
      some demoNoon.toDatetime⟩,
    ⟨{ decision := .block, channel := .sms, reasons := [.missingSmsConsent] }, none⟩]

/-- Planning that event needs neither a zone nor a digest. -/
private theorem decideIngestion_emailOnly (rt : Runtime) :
    decideIngestion rt emailOnly ⟨false, false, false, 0⟩ = .ok (.planned emailOnlyOutcomes) := by
  have hcustomer : (snapshotCustomer emailOnly.customer).fits = true := by decide
  have haccount : (newAccount emailOnly.account 0).fits = true := by decide
  have hevent : (inboundEventRow rt emailOnly).fits =
      (inboundEventRow demoRuntime emailOnly).fits := rfl
  have hdemo : (inboundEventRow demoRuntime emailOnly).fits = true := by decide
  have heffect : decideEffect rt emailOnly false 0 = .ok (.planned emailOnlyOutcomes) := rfl
  simp [decideIngestion, hcustomer, haccount, hevent, hdemo, heffect]

/-- Under every runtime there is a reachable state with a scheduled task. -/
theorem exists_scheduled (rt : Runtime) :
    ∃ t, (run (step rt) (start 0) [.ingestEvent emailOnly]).store.outreachTasks[0]? = some t ∧
      t.status = .scheduled := by
  have hsourced : Sourced Store.empty := run_sourced rt 0 []
  have hstore : (run (step rt) (start 0) [.ingestEvent emailOnly]).store =
      ingest rt Store.empty emailOnly 0 := rfl
  rw [hstore, ingest, ingestEventSnapshot_eq hsourced 0 rfl, readsOf_empty,
    decideIngestion_emailOnly]
  exact ⟨_, rfl, rfl⟩

/-- A text that fits is refused for no length. -/
theorem lastErrorRefused_inRange {lastError : Option String} {e : Failure}
    (h : fitsStringOption 1000 lastError = true) (he : lastErrorRefused lastError = some e) :
    ¬OutOfRange e := by
  unfold lastErrorRefused at he
  rw [h] at he
  simp only [Bool.not_true, Bool.false_eq_true, if_false] at he
  split at he
  · cases he
    rintro (h | ⟨_, h⟩) <;> cases h
  · cases he

/-- A manual result raises nothing out of range when its error text fits. -/
theorem recordManualDeliveryResult_inRange {s : Store} {taskId : Nat}
    {loaded : OutreachTaskStatus} {request : DeliveryResultRequest}
    (h : fitsStringOption 1000 (manualLastError request) = true) :
    Raises (fun e => ¬OutOfRange e) (recordManualDeliveryResult s taskId loaded request) := by
  unfold recordManualDeliveryResult
  split
  · split
    · exact .error (by rintro (h | ⟨_, h⟩) <;> cases h)
    · dsimp only
      split
      · split
        · exact .ok _
        · next e hrefused => exact .error (lastErrorRefused_inRange h hrefused)
      · exact .error (by rintro (h | ⟨_, h⟩) <;> cases h)
  · exact .error (by rintro (h | ⟨_, h⟩) <;> cases h)

/-- A manual failure of a scheduled task is refused for an error text that does not fit. -/
theorem recordManualDeliveryResult_tooLong {s : Store} {taskId : Nat} {t : OutreachTask}
    (ht : s.outreachTasks[taskId]? = some t) (hscheduled : t.status = .scheduled)
    {request : DeliveryResultRequest}
    (h : fitsStringOption 1000 (manualLastError request) = false) :
    recordManualDeliveryResult s taskId .scheduled request = .error (.dataError "last_error") := by
  have hupdated : (Table.updateWhere s.outreachTasks taskId
      (fun t => t.status = OutreachTaskStatus.scheduled) (manualWrite request)).2 = 1 := by
    simp [Table.updateWhere, ht, hscheduled]
  have hrefused : lastErrorRefused (manualLastError request) = some (.dataError "last_error") := by
    simp [lastErrorRefused, h]
  simp [recordManualDeliveryResult, allowedManualDeliverySourceStatus, ht, hupdated, hrefused]

/-- The error text of a manual result fits unless it is a failure with a longer text. -/
theorem manualLastError_fits {request : DeliveryResultRequest} :
    fitsStringOption 1000 (manualLastError request) = true ↔
      (request.status = .failed → ∀ text, request.details.lookup "error" = some (.str text) →
        text.length ≤ 1000) := by
  unfold manualLastError
  cases request.status with
  | sent => simp [fitsStringOption]
  | failed =>
    simp only [true_implies]
    cases hlookup : request.details.lookup "error" with
    | none => simp [fitsStringOption, fitsString]; decide
    | some value =>
      cases value with
      | str text => simp [fitsStringOption, fitsString]
      | other serialised => simp [fitsStringOption, fitsString]; decide

/-! ### The three routes -/

/-- The event route raises nothing out of range exactly when its submission fits. -/
private theorem event_neverOutOfRange_iff (rt : Runtime) (body : InboundEventRequest) :
    NeverOutOfRange rt (.event body) ↔ InCapacity rt (.event body) := by
  constructor
  · intro h correlationId sub hsub
    have hadmissible := InboundEventRequest.submission_admissible hsub
    refine eventFits_of_empty hadmissible fun e he => ?_
    refine h 0 [] ⟨0, correlationId, 0, .scheduled, ""⟩ e ?_
    have hingest : ingestEventSnapshot rt (run (step rt) (start 0) []).store sub 0 =
        .error e := he
    rw [RequestBody.handle, hsub, Except.map, hingest]
    rfl
  · intro h start' ops ctx e he
    rw [RequestBody.handle] at he
    cases hsub : body.submission rt ctx.correlationId with
    | error errors =>
      rw [hsub] at he
      cases he
    | ok sub =>
      rw [hsub] at he
      have hadmissible := InboundEventRequest.submission_admissible hsub
      suffices hraises : Raises (fun e => ¬OutOfRange e) (ingestEventSnapshot rt
          (run (step rt) (start start') ops).store sub ctx.clock) from
        hraises.map (f := Prod.fst) e (Except.ok.inj he)
      cases hseen : (run (step rt) (start start') ops).store.findExistingEvent sub.source
          sub.externalId with
      | some eventId =>
        rw [ingestEventSnapshot_seen hseen, resultFromExistingEvent]
        refine Raises.map ?_
        split
        · exact .ok _
        · exact .error (by rintro (h | ⟨_, h⟩) <;> cases h)
      | none =>
        rw [ingestEventSnapshot_eq (run_sourced rt start' ops) ctx.clock hseen]
        exact (decideIngestion_inRange hadmissible (h _ _ hsub) _).map

/-- The route of delivery results raises nothing out of range exactly when the error text of
a failure fits. -/
private theorem deliveryResult_neverOutOfRange_iff (rt : Runtime) (body : DeliveryResultBody) :
    NeverOutOfRange rt (.deliveryResult body) ↔ InCapacity rt (.deliveryResult body) := by
  constructor
  · intro h herrors hfailed text htext
    obtain ⟨t, ht, hscheduled⟩ := exists_scheduled rt
    have hrequest : body.request = .ok ⟨.failed, body.providerMessageId, body.details⟩ := by
      unfold DeliveryResultBody.request
      rw [herrors, hfailed]
      rfl
    by_contra hlong
    have hfits : fitsStringOption 1000 (manualLastError
        ⟨.failed, body.providerMessageId, body.details⟩) = false := by
      rw [Bool.eq_false_iff, ne_eq, manualLastError_fits]
      exact fun h => hlong (h rfl text htext)
    refine h 0 [.ingestEvent emailOnly] ⟨0, 0, 0, .scheduled, ""⟩ (.dataError "last_error") ?_
      (Or.inr ⟨_, rfl⟩)
    rw [RequestBody.handle, hrequest, Except.map]
    exact congrArg Except.ok (recordManualDeliveryResult_tooLong ht hscheduled hfits)
  · intro h start' ops ctx e he
    rw [RequestBody.handle] at he
    cases hrequest : body.request with
    | error errors =>
      rw [hrequest] at he
      cases he
    | ok request =>
      rw [hrequest] at he
      obtain ⟨herrors, hstatus, hdetails⟩ := DeliveryResultBody.request_ok hrequest
      refine recordManualDeliveryResult_inRange (manualLastError_fits.mpr fun hfailed => ?_) e
        (Except.ok.inj he)
      rw [hdetails]
      refine h herrors ?_
      rw [hfailed] at hstatus
      unfold deliveryStatusOf at hstatus
      split at hstatus
      · cases hstatus
      · next hbody => exact hbody
      · cases hstatus

/-- The cancelling route raises nothing out of range. -/
private theorem cancelOutreach_neverOutOfRange (rt : Runtime) (reason : String) :
    NeverOutOfRange rt (.cancelOutreach reason) := by
  intro start' ops ctx e he
  rw [RequestBody.handle] at he
  cases hreason : cancelOutreachReason reason with
  | error errors =>
    rw [hreason] at he
    cases he
  | ok reason' =>
    rw [hreason] at he
    suffices hraises : Raises (fun e => ¬OutOfRange e) (if nulFree ctx.accountExternalId then
        Except.ok ((cancelAccountOutreach (run (step rt) (start start') ops).store
          ctx.accountExternalId reason' ctx.correlationId).elim
          (run (step rt) (start start') ops).store Prod.fst)
      else .error (.characterNotInRepertoire "account_external_id")) from
      hraises e (Except.ok.inj he)
    split
    · exact .ok _
    · exact .error (by rintro (h | ⟨_, h⟩) <;> cases h)

/-- In every reachable state a route raises nothing out of range for a body exactly when the
values that an accepted body carries fit. -/
theorem neverOutOfRange_iff (rt : Runtime) (body : RequestBody) :
    NeverOutOfRange rt body ↔ InCapacity rt body := by
  cases body with
  | event body => exact event_neverOutOfRange_iff rt body
  | deliveryResult body => exact deliveryResult_neverOutOfRange_iff rt body
  | cancelOutreach reason =>
    exact ⟨fun _ => trivial, fun _ => cancelOutreach_neverOutOfRange rt reason⟩

/-- A payment of the account of the demo customer, with a balance past the integer column. -/
def largeBalance : InboundEventRequest :=
  .ofSubmission { demoEvent "event-1" .paymentReceived "acct-1" demoNoon with
    account := { demoAccount "acct-1" with balanceCents := 2147483648 } }

/-- A payment failure on the first day of the year 1. -/
def firstDay : InboundEventRequest :=
  .ofSubmission (demoEvent "event-1" .paymentFailed "acct-1" (demoAt (12 * hour) (by decide)))

/-- A failed delivery with a text past the column of the last error. -/
def longError : DeliveryResultBody where
  status := "failed"
  details := [("error", .str (String.ofList (List.replicate 1001 'x')))]

/-- Accepted bodies that fail for an integer, for a time and for a text out of range. -/
theorem accepted_outOfRange :
    (RequestBody.event largeBalance).handle demoRuntime Store.empty ⟨0, 1, 0, .scheduled, ""⟩ =
        .ok (.error (.dataError "accounts")) ∧
      (RequestBody.event firstDay).handle demoRuntime Store.empty ⟨0, 1, 0, .scheduled, ""⟩ =
        .ok (.error .overflow) ∧
      (RequestBody.deliveryResult longError).handle demoRuntime
          (run (step demoRuntime) (start 0) [.ingestEvent emailOnly]).store
          ⟨0, 1, 0, .scheduled, ""⟩ = .ok (.error (.dataError "last_error")) := by
  refine ⟨by decide +kernel, by decide +kernel, ?_⟩
  obtain ⟨t, ht, hscheduled⟩ := exists_scheduled demoRuntime
  have hfits : fitsStringOption 1000
      (manualLastError ⟨.failed, none, longError.details⟩) = false := by
    rw [Bool.eq_false_iff, ne_eq, manualLastError_fits]
    intro h
    have hlength := h rfl _ rfl
    rw [String.length_ofList, List.length_replicate] at hlength
    exact absurd hlength (by decide)
  exact congrArg Except.ok (recordManualDeliveryResult_tooLong ht hscheduled hfits)

end Orchestrator.System
