import Orchestrator.Domain.EventIngestion
import Orchestrator.Domain.OperationalOutreach

/-!
# Request bodies and their validators

`src/orchestrator/api/events.py`, `src/orchestrator/api/tasks.py` and
`src/orchestrator/api/accounts.py`. A body is parsed JSON of the declared types; the
validators return an error for each field that they refuse, or the values that the
handlers pass on. The accepted event bodies are exactly the admissible submissions.
-/

namespace Orchestrator.Api

open Base Domain

/-- Kinds of errors that the request models raise. -/
inductive ErrorKind where
  | stringTooShort (minLength : Nat)
  | stringTooLong (maxLength : Nat)
  | greaterThanEqual (bound : Int)
  | literalError
  | enumError
  | valueError (message : String)
  deriving DecidableEq, Repr

/-- A refused field: its path in the body and the kind of the error. -/
structure FieldError where
  loc : List String
  kind : ErrorKind
  deriving DecidableEq, Repr

/-- `Field(min_length=.., max_length=..)`. -/
def stringField (minLength maxLength : Nat) (loc : List String) (s : String) : List FieldError :=
  if s.length < minLength then [⟨loc, .stringTooShort minLength⟩]
  else if maxLength < s.length then [⟨loc, .stringTooLong maxLength⟩]
  else []

/-- `Field(max_length=..)` on a nullable text. -/
def optionalField (maxLength : Nat) (loc : List String) (s : Option String) : List FieldError :=
  s.elim [] (stringField 0 maxLength loc)

/-- `IdentityField`, `src/orchestrator/api/events.py:21`. -/
def identityField (loc : List String) (s : String) : List FieldError := stringField 1 255 loc s

/-- `Field(ge=0)`. -/
def nonNegativeField (loc : List String) (n : Int) : List FieldError :=
  if n < 0 then [⟨loc, .greaterThanEqual 0⟩] else []

/-- A field whose text must be one of a few. -/
def choiceField {α : Type} (kind : ErrorKind) (loc : List String) (choice : Option α) :
    List FieldError :=
  if choice.isNone then [⟨loc, kind⟩] else []

/-- `EventType`, `src/orchestrator/api/events.py:22–29`. -/
def eventTypeOf : String → Option EventType
  | "account_delinquent" => some .accountDelinquent
  | "payment_failed" => some .paymentFailed
  | "payment_received" => some .paymentReceived
  | "hardship_requested" => some .hardshipRequested
  | "opt_out_received" => some .optOutReceived
  | "account_paused" => some .accountPaused
  | _ => none

/-- Values of `AccountStatus`, `src/orchestrator/models.py:27–31`. -/
def accountStatusOf : String → Option AccountStatus
  | "current" => some .current
  | "delinquent" => some .delinquent
  | "resolved" => some .resolved
  | "paused" => some .paused
  | _ => none

/-- `CustomerSnapshotRequest`, `src/orchestrator/api/events.py:32–48`. -/
structure CustomerSnapshotRequest where
  externalId : String
  fullName : String
  timezone : String
  phoneNumber : Option String := none
  email : Option String := none
  smsConsent : Bool := false
  callConsent : Bool := false
  emailConsent : Bool := false

/-- `AccountSnapshotRequest`, `src/orchestrator/api/events.py:62–73`. -/
structure AccountSnapshotRequest where
  externalId : String
  status : String
  balanceCents : Int := 0
  daysPastDue : Int := 0

/-- A parsed timestamp, with or without a UTC offset. -/
inductive Timestamp where
  | naive (wall : Int)
  | aware (at' : OffsetDatetime)

/-- `InboundEventRequest`, `src/orchestrator/api/events.py:76–90`. -/
structure InboundEventRequest where
  source : String
  externalId : String
  eventType : String
  customer : CustomerSnapshotRequest
  account : AccountSnapshotRequest
  occurredAt : Timestamp
  metadata : JsonObject := []

/-- `validate_timezone` behind the length bounds, `src/orchestrator/api/events.py:43` and
`:50–59`. -/
def timezoneField (rt : Runtime) (loc : List String) (s : String) : List FieldError :=
  if stringField 1 64 loc s ≠ [] then stringField 1 64 loc s
  else choiceField (.valueError ((rt.zoneInfoError s).getD "Invalid customer timezone")) loc
    (rt.zoneInfo s)

/-- Errors of a customer snapshot, `src/orchestrator/api/events.py:41–59`. -/
def CustomerSnapshotRequest.errors (rt : Runtime) (c : CustomerSnapshotRequest) :
    List FieldError :=
  identityField ["customer", "external_id"] c.externalId ++
    (stringField 1 255 ["customer", "full_name"] c.fullName ++
      (timezoneField rt ["customer", "timezone"] c.timezone ++
        (optionalField 64 ["customer", "phone_number"] c.phoneNumber ++
          optionalField 255 ["customer", "email"] c.email)))

/-- Errors of an account snapshot, `src/orchestrator/api/events.py:70–73`. -/
def AccountSnapshotRequest.errors (a : AccountSnapshotRequest) : List FieldError :=
  identityField ["account", "external_id"] a.externalId ++
    (choiceField .enumError ["account", "status"] (accountStatusOf a.status) ++
      (nonNegativeField ["account", "balance_cents"] a.balanceCents ++
        nonNegativeField ["account", "days_past_due"] a.daysPastDue))

/-- `validate_occurred_at`, `src/orchestrator/api/events.py:92–99`. -/
def Timestamp.errors : Timestamp → List FieldError
  | .naive _ => [⟨["occurred_at"], .valueError "occurred_at must be timezone-aware"⟩]
  | .aware _ => []

/-- Errors of an event body in the order of its fields. -/
def InboundEventRequest.errors (rt : Runtime) (body : InboundEventRequest) : List FieldError :=
  identityField ["source"] body.source ++
    (identityField ["external_id"] body.externalId ++
      (choiceField .literalError ["event_type"] (eventTypeOf body.eventType) ++
        (body.customer.errors rt ++ (body.account.errors ++ body.occurredAt.errors))))

/-- The call of `ingest_event_snapshot` that an accepted body leads to,
`src/orchestrator/api/events.py:136–160`. -/
def InboundEventRequest.submission (rt : Runtime) (body : InboundEventRequest)
    (correlationId : Nat) : Except (List FieldError) EventSubmission :=
  match body.errors rt, eventTypeOf body.eventType, accountStatusOf body.account.status,
    body.occurredAt with
  | [], some eventType, some status, .aware occurredAt => .ok
    { source := body.source
      externalId := body.externalId
      eventType := eventType
      customer :=
        { externalId := body.customer.externalId
          fullName := body.customer.fullName
          timezone := body.customer.timezone
          phoneNumber := body.customer.phoneNumber
          email := body.customer.email
          smsConsent := body.customer.smsConsent
          callConsent := body.customer.callConsent
          emailConsent := body.customer.emailConsent }
      account :=
        { externalId := body.account.externalId
          status := status
          balanceCents := body.account.balanceCents
          daysPastDue := body.account.daysPastDue }
      occurredAt := occurredAt
      metadata := body.metadata
      correlationId := correlationId }
  | errors, _, _, _ => .error errors

/-- Body of a delivery-result request before its checks, `src/orchestrator/api/tasks.py:48–51`. -/
structure DeliveryResultBody where
  status : String
  providerMessageId : Option String := none
  details : JsonObject := []

/-- `DeliveryStatus`, `src/orchestrator/domain/operational_outreach.py:19`. -/
def deliveryStatusOf : String → Option DeliveryStatus
  | "sent" => some .sent
  | "failed" => some .failed
  | _ => none

/-- Checks of a delivery-result body, `src/orchestrator/api/tasks.py:48–51`. -/
def DeliveryResultBody.errors (body : DeliveryResultBody) : List FieldError :=
  choiceField .literalError ["status"] (deliveryStatusOf body.status) ++
    optionalField 255 ["provider_message_id"] body.providerMessageId

/-- The request that an accepted delivery-result body is. -/
def DeliveryResultBody.request (body : DeliveryResultBody) :
    Except (List FieldError) DeliveryResultRequest :=
  match body.errors, deliveryStatusOf body.status with
  | [], some status => .ok ⟨status, body.providerMessageId, body.details⟩
  | errors, _ => .error errors

/-- The characters that `str.strip()` removes. -/
def isSpace (c : Char) : Bool :=
  (9 ≤ c.toNat && c.toNat ≤ 13) || (28 ≤ c.toNat && c.toNat ≤ 32) || c.toNat = 0x85 ||
    c.toNat = 0xa0 || c.toNat = 0x1680 || (0x2000 ≤ c.toNat && c.toNat ≤ 0x200a) ||
    c.toNat = 0x2028 || c.toNat = 0x2029 || c.toNat = 0x202f || c.toNat = 0x205f ||
    c.toNat = 0x3000

/-- `str.strip()`. -/
def strip (s : String) : String :=
  String.ofList (((s.toList.dropWhile isSpace).reverse.dropWhile isSpace).reverse)

/-- The reason of an accepted cancel-outreach body, `src/orchestrator/api/accounts.py:19–28`. -/
def cancelOutreachReason (reason : String) : Except (List FieldError) String :=
  if stringField 1 500 ["reason"] reason ≠ [] then .error (stringField 1 500 ["reason"] reason)
  else if strip reason = "" then .error [⟨["reason"], .valueError "reason must not be blank"⟩]
  else .ok (strip reason)

/-! ### Routes -/

/-- Bodies of the three routes that write. -/
inductive RequestBody where
  | event (body : InboundEventRequest)
  | deliveryResult (body : DeliveryResultBody)
  | cancelOutreach (reason : String)

/-- What a route takes from elsewhere: the database clock, the request's correlation id, its
path parameters, and the status that a delivery-result request has loaded. -/
structure RequestContext where
  clock : Int
  correlationId : Nat
  taskId : Nat
  loaded : OutreachTaskStatus
  accountExternalId : String

/-- A route: an outer error refuses the body, an inner one is an exception of the handler.
`src/orchestrator/api/events.py:120–176`, `src/orchestrator/api/tasks.py:120–155` and
`src/orchestrator/api/accounts.py:36–61`. -/
def RequestBody.handle (rt : Runtime) (s : Store) (ctx : RequestContext) :
    RequestBody → Except (List FieldError) (Except Failure Store)
  | .event body => (body.submission rt ctx.correlationId).map fun sub =>
    (ingestEventSnapshot rt s sub ctx.clock).map Prod.fst
  | .deliveryResult body => body.request.map fun request =>
    recordManualDeliveryResult s ctx.taskId ctx.loaded request
  | .cancelOutreach reason => (cancelOutreachReason reason).map fun reason =>
    if nulFree ctx.accountExternalId then
      .ok ((cancelAccountOutreach s ctx.accountExternalId reason ctx.correlationId).elim s Prod.fst)
    else .error (.characterNotInRepertoire "account_external_id")

/-! ### Accepted bodies -/

section

variable {loc : List String}

@[simp] theorem stringField_eq_nil {lo hi : Nat} {s : String} :
    stringField lo hi loc s = [] ↔ lo ≤ s.length ∧ s.length ≤ hi := by
  unfold stringField
  split
  · simp
    omega
  · split
    · simp
      omega
    · simp
      omega

@[simp] theorem optionalField_eq_nil {hi : Nat} {s : Option String} :
    optionalField hi loc s = [] ↔ fitsStringOption hi s = true := by
  cases s <;> simp [optionalField, fitsStringOption, fitsString]

@[simp] theorem nonNegativeField_eq_nil {n : Int} : nonNegativeField loc n = [] ↔ 0 ≤ n := by
  simp [nonNegativeField]

@[simp] theorem choiceField_eq_nil {α : Type} {kind : ErrorKind} {choice : Option α} :
    choiceField kind loc choice = [] ↔ choice.isSome = true := by
  cases choice <;> simp [choiceField]

@[simp] theorem timezoneField_eq_nil {rt : Runtime} {s : String} :
    timezoneField rt loc s = [] ↔ (1 ≤ s.length ∧ s.length ≤ 64) ∧
      (rt.zoneInfo s).isSome = true := by
  unfold timezoneField
  split
  · next h =>
    rw [ne_eq, stringField_eq_nil] at h
    simp [h]
  · next h =>
    rw [ne_eq, not_not, stringField_eq_nil] at h
    simp [h]

/-- A field has at most one error, under its own path. -/
theorem stringField_loc (lo hi : Nat) (s : String) :
    ((stringField lo hi loc s).map FieldError.loc).Sublist [loc] := by
  unfold stringField
  split
  · simp
  · split <;> simp

theorem optionalField_loc (hi : Nat) (s : Option String) :
    ((optionalField hi loc s).map FieldError.loc).Sublist [loc] := by
  cases s with
  | none => simp [optionalField]
  | some s => exact stringField_loc 0 hi s

theorem nonNegativeField_loc (n : Int) :
    ((nonNegativeField loc n).map FieldError.loc).Sublist [loc] := by
  unfold nonNegativeField
  split <;> simp

theorem choiceField_loc {α : Type} (kind : ErrorKind) (choice : Option α) :
    ((choiceField kind loc choice).map FieldError.loc).Sublist [loc] := by
  unfold choiceField
  split <;> simp

theorem timezoneField_loc (rt : Runtime) (s : String) :
    ((timezoneField rt loc s).map FieldError.loc).Sublist [loc] := by
  unfold timezoneField
  split
  · exact stringField_loc 1 64 s
  · exact choiceField_loc _ _

end

/-- The checked fields of an event body. -/
def InboundEventRequest.fields : List (List String) :=
  [["source"]] ++ ([["external_id"]] ++ ([["event_type"]] ++
    (([["customer", "external_id"]] ++ ([["customer", "full_name"]] ++
      ([["customer", "timezone"]] ++ ([["customer", "phone_number"]] ++
        [["customer", "email"]])))) ++
      (([["account", "external_id"]] ++ ([["account", "status"]] ++
        ([["account", "balance_cents"]] ++ [["account", "days_past_due"]]))) ++
          [["occurred_at"]]))))

/-- Every error names a checked field, in the order of the fields and each at most once. -/
theorem InboundEventRequest.errors_loc (rt : Runtime) (body : InboundEventRequest) :
    ((body.errors rt).map FieldError.loc).Sublist InboundEventRequest.fields := by
  have hoccurred : (body.occurredAt.errors.map FieldError.loc).Sublist [["occurred_at"]] := by
    cases body.occurredAt <;> simp [Timestamp.errors]
  unfold InboundEventRequest.errors InboundEventRequest.fields CustomerSnapshotRequest.errors
    AccountSnapshotRequest.errors identityField
  simp only [List.map_append]
  refine (stringField_loc _ _ _).append ((stringField_loc _ _ _).append
    ((choiceField_loc _ _).append (.append ?_ (.append ?_ hoccurred))))
  · exact (stringField_loc _ _ _).append ((stringField_loc _ _ _).append
      ((timezoneField_loc _ _).append ((optionalField_loc _ _).append (optionalField_loc _ _))))
  · exact (stringField_loc _ _ _).append ((choiceField_loc _ _).append
      ((nonNegativeField_loc _).append (nonNegativeField_loc _)))

/-- Bounds of an identity text. -/
def Identity (s : String) : Prop := 1 ≤ s.length ∧ s.length ≤ 255

/-- What the validators promise of an event. -/
structure Admissible (rt : Runtime) (sub : EventSubmission) : Prop where
  source : Identity sub.source
  externalId : Identity sub.externalId
  eventType : ∀ text, sub.eventType ≠ .other text
  customerExternalId : Identity sub.customer.externalId
  fullName : Identity sub.customer.fullName
  timezone : 1 ≤ sub.customer.timezone.length ∧ sub.customer.timezone.length ≤ 64
  zone : (rt.zoneInfo sub.customer.timezone).isSome = true
  phoneNumber : fitsStringOption 64 sub.customer.phoneNumber = true
  email : fitsStringOption 255 sub.customer.email = true
  accountExternalId : Identity sub.account.externalId
  balanceCents : 0 ≤ sub.account.balanceCents
  daysPastDue : 0 ≤ sub.account.daysPastDue

/-- Accepted texts of event types are the six supported ones. -/
theorem eventTypeOf_ne_other {s text : String} : eventTypeOf s ≠ some (.other text) := by
  unfold eventTypeOf
  split <;> simp

/-- An accepted event body gives an admissible submission. -/
theorem InboundEventRequest.submission_admissible {rt : Runtime} {body : InboundEventRequest}
    {correlationId : Nat} {sub : EventSubmission}
    (h : body.submission rt correlationId = .ok sub) : Admissible rt sub := by
  unfold InboundEventRequest.submission at h
  split at h
  · next eventType status occurredAt herrors htype hstatus hoccurred =>
    cases h
    simp only [InboundEventRequest.errors, CustomerSnapshotRequest.errors,
      AccountSnapshotRequest.errors, identityField, List.append_eq_nil_iff, stringField_eq_nil,
      timezoneField_eq_nil, optionalField_eq_nil, nonNegativeField_eq_nil] at herrors
    obtain ⟨hsource, hexternal, -, ⟨hcustomer, hname, ⟨htz, hzone⟩, hphone, hemail⟩,
      ⟨haccount, -, hbalance, hdays⟩, -⟩ := herrors
    exact ⟨hsource, hexternal, fun text he =>
      eventTypeOf_ne_other (htype.trans (congrArg some he)), hcustomer, hname,
      htz, hzone, hphone, hemail, haccount, hbalance, hdays⟩
  · cases h

/-- An accepted event body keeps the correlation id of its request. -/
theorem InboundEventRequest.submission_correlationId {rt : Runtime} {body : InboundEventRequest}
    {correlationId : Nat} {sub : EventSubmission}
    (h : body.submission rt correlationId = .ok sub) : sub.correlationId = correlationId := by
  unfold InboundEventRequest.submission at h
  split at h
  · cases h
    rfl
  · cases h

/-- An accepted delivery-result body with its parsed status. -/
theorem DeliveryResultBody.request_ok {body : DeliveryResultBody}
    {request : DeliveryResultRequest} (h : body.request = .ok request) :
    body.errors = [] ∧ deliveryStatusOf body.status = some request.status ∧
      request.details = body.details := by
  unfold DeliveryResultBody.request at h
  split at h
  · next herrors hstatus =>
    cases h
    exact ⟨herrors, hstatus, rfl⟩
  · cases h

/-- Text of an account status. -/
def accountStatusText : AccountStatus → String
  | .current => "current"
  | .delinquent => "delinquent"
  | .resolved => "resolved"
  | .paused => "paused"

/-- The body that carries a submission. -/
def InboundEventRequest.ofSubmission (sub : EventSubmission) : InboundEventRequest where
  source := sub.source
  externalId := sub.externalId
  eventType := sub.eventType.value
  customer := ⟨sub.customer.externalId, sub.customer.fullName, sub.customer.timezone,
    sub.customer.phoneNumber, sub.customer.email, sub.customer.smsConsent,
    sub.customer.callConsent, sub.customer.emailConsent⟩
  account := ⟨sub.account.externalId, accountStatusText sub.account.status,
    sub.account.balanceCents, sub.account.daysPastDue⟩
  occurredAt := .aware sub.occurredAt
  metadata := sub.metadata

/-- Every admissible submission has an accepted body. -/
theorem InboundEventRequest.submission_ofSubmission {rt : Runtime} {sub : EventSubmission}
    (h : Admissible rt sub) :
    (InboundEventRequest.ofSubmission sub).submission rt sub.correlationId = .ok sub := by
  have htype : eventTypeOf sub.eventType.value = some sub.eventType := by
    cases ht : sub.eventType with
    | other text => exact absurd ht (h.eventType text)
    | _ => rfl
  have hstatus : accountStatusOf (accountStatusText sub.account.status) =
      some sub.account.status := by
    cases sub.account.status <;> rfl
  have herrors : (InboundEventRequest.ofSubmission sub).errors rt = [] := by
    simp only [InboundEventRequest.errors, CustomerSnapshotRequest.errors,
      AccountSnapshotRequest.errors, identityField, List.append_eq_nil_iff, stringField_eq_nil,
      timezoneField_eq_nil, optionalField_eq_nil, nonNegativeField_eq_nil, choiceField_eq_nil,
      InboundEventRequest.ofSubmission, htype, hstatus]
    exact ⟨h.source, h.externalId, rfl, ⟨h.customerExternalId, h.fullName,
      ⟨h.timezone, h.zone⟩, h.phoneNumber, h.email⟩, ⟨h.accountExternalId, rfl,
      h.balanceCents, h.daysPastDue⟩, rfl⟩
  unfold InboundEventRequest.submission
  rw [herrors]
  simp only [InboundEventRequest.ofSubmission, htype, hstatus]

end Orchestrator.Api
