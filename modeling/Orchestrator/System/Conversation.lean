import Orchestrator.Api.Correlation
import Orchestrator.System.Service
import Orchestrator.System.Trace

/-!
# A client that repeats its correlation id

A client sends back the `X-Correlation-ID` header of the last response that had one, while the
workers and other clients go on. All of its requests are handled under the id of the first
one, and the audit rows that they append are listed under it. A delivery result is the
exception: its row has the correlation id of its task.
-/

namespace Orchestrator.System

open Api Base Domain Orchestration Workers

/-- The service and the header that the client has. -/
structure Conversation where
  sys : Sys
  header : Option (List UInt8)

/-- A request of the client, with the `uuid4()` that the middleware may need, or an action of
another party. -/
inductive Turn where
  | mine (fresh : Fin (2 ^ 128)) (route : Route)
  | other (action : Action)

section

variable (rt : Runtime) (gen : Generated)

/-- The client's request. -/
def Conversation.send (t : Conversation) (fresh : Fin (2 ^ 128)) (route : Route) :
    (Store × Response) × Option (List UInt8) :=
  serveRequest rt gen t.sys.store t.sys.clock fresh t.header route

/-- The conversation after a turn. -/
def turn (t : Conversation) : Turn → Conversation
  | .mine fresh route =>
    ⟨t.sys.commit (t.send rt gen fresh route).1.1, (t.send rt gen fresh route).2.or t.header⟩
  | .other action => ⟨serveStep rt gen t.sys action, t.header⟩

/-- The audit rows that a turn of the client appends. -/
def ownRows (t : Conversation) : Turn → List AuditEvent
  | .mine fresh route =>
    (t.send rt gen fresh route).1.1.auditEvents.drop t.sys.store.auditEvents.length
  | .other _ => []

/-- A request appends rows with its correlation id, or the row of a delivery result. -/
theorem handle_rows {s : Store} (hs : Sourced s) (clock : Int) (request : Request) :
    ∃ as, (handle rt gen s clock request).1.auditEvents = s.auditEvents ++ as ∧
      ∀ a ∈ as, a.correlationId = request.correlationId ∨
        a.eventType = .deliveryResultRecorded := by
  have hnothing {s' : Store} (h : s' = s) : ∃ as, s'.auditEvents = s.auditEvents ++ as ∧
      ∀ a ∈ as, a.correlationId = request.correlationId ∨
        a.eventType = .deliveryResultRecorded :=
    ⟨[], by rw [h, List.append_nil], by simp⟩
  unfold handle
  cases request.route with
  | listTasks query => exact hnothing rfl
  | getTask taskId => exact hnothing rfl
  | listAuditEvents correlationId => exact hnothing rfl
  | ingestEvent body =>
    rcases ingestEventRoute_store rt s clock request.correlationId body with h | ⟨sub, hsub, h⟩
    · exact hnothing h
    · dsimp only
      rw [h, ingest]
      cases hok : ingestEventSnapshot rt s sub clock with
      | error e => exact hnothing rfl
      | ok x =>
        rcases replayed_or_admitted hs hok with hsame | ⟨effect, hadmitted, happlied⟩
        · exact hnothing hsame
        · refine ⟨ingestionRows rt s sub effect, ?_, fun a ha => Or.inl ?_⟩
          · rw [← applied_auditEvents rt s sub clock, ← happlied]
          · rw [(ingestionRows_own rt s sub hadmitted.decision a ha).1, hsub]
  | recordDeliveryResult taskId body =>
    rcases recordDeliveryResultRoute_store gen s taskId body with h | ⟨loaded, delivery, h⟩
    · exact hnothing h
    · obtain ⟨t, -, -, -, hs'⟩ := recordManualDeliveryResult_ok h
      refine ⟨[deliveryResultRecorded taskId t t.status delivery], ?_, fun a ha => Or.inr ?_⟩
      · dsimp only
        rw [hs']
        rfl
      · rw [List.mem_singleton.mp ha]
        rfl
  | cancelAccountOutreach accountExternalId reason =>
    rcases cancelAccountOutreachRoute_store s request.correlationId accountExternalId reason with
      h | ⟨reason', n, h⟩
    · exact hnothing h
    · obtain ⟨accountId, account, -, -, he⟩ := cancelAccountOutreach_eq_some h
      rw [cancelScheduledAccountOutreach_eq] at he
      refine ⟨_, congrArg (fun x => x.1.auditEvents) he, fun a ha => Or.inl ?_⟩
      obtain ⟨x, -, rfl⟩ := List.mem_map.mp ha
      rfl

/-- An action keeps the audit rows and a sourced store. -/
theorem serveStep_keeps {s : Sys} (hs : Sourced s.store) (action : Action) :
    Sourced (serveStep rt gen s action).store ∧
      s.store.auditEvents <+: (serveStep rt gen s action).store.auditEvents := by
  obtain ⟨ops, hops⟩ := serveStep_operation rt gen s action
  rw [hops]
  obtain ⟨as, has, -⟩ := (run_evolves rt s hs.toWellFormed ops).auditEvents
  exact ⟨run_invariant (I := fun s : Sys => Sourced s.store) (step_sourced rt) s hs ops,
    ⟨as, has.symm⟩⟩

/-- The client holds the header of an id, and its rows so far are stored under that id. -/
structure Follows (c : Nat) (t : Conversation) (rows : List AuditEvent) : Prop where
  sourced : Sourced t.sys.store
  header : t.header = some (correlationHeader c)
  stored : ∀ a ∈ rows, a ∈ t.sys.store.auditEvents
  traced : ∀ a ∈ rows, a.correlationId = c ∨ a.eventType = .deliveryResultRecorded

/-- A request of the client under its id. -/
private theorem follows_mine {c : Nat} {t : Conversation} {rows : List AuditEvent}
    (hs : Sourced t.sys.store) (hstored : ∀ a ∈ rows, a ∈ t.sys.store.auditEvents)
    (htraced : ∀ a ∈ rows, a.correlationId = c ∨ a.eventType = .deliveryResultRecorded)
    {fresh : Fin (2 ^ 128)} {route : Route} (hc : correlationIdFromHeader fresh t.header = c)
    (hheader : (t.send rt gen fresh route).2.or t.header = some (correlationHeader c)) :
    Follows c (turn rt gen t (.mine fresh route))
      (rows ++ ownRows rt gen t (.mine fresh route)) := by
  obtain ⟨as, has, hrows⟩ := handle_rows rt gen hs t.sys.clock ⟨c, route⟩
  have hsend : (t.send rt gen fresh route).1 =
      handle rt gen t.sys.store t.sys.clock ⟨c, route⟩ := by
    rw [← hc]
    rfl
  have hown : ownRows rt gen t (.mine fresh route) = as := by
    rw [ownRows, hsend, has, List.drop_left]
  have hstore : (turn rt gen t (.mine fresh route)).sys.store.auditEvents =
      t.sys.store.auditEvents ++ as := by
    rw [turn, hsend]
    exact has
  have hsourced : Sourced (turn rt gen t (.mine fresh route)).sys.store := by
    rw [turn, hsend]
    exact (serveStep_keeps rt gen hs (.request ⟨c, route⟩)).1
  rw [hown]
  refine ⟨hsourced, hheader, fun a ha => ?_, fun a ha => ?_⟩
  · rw [hstore]
    rcases List.mem_append.mp ha with ha | ha
    · exact List.mem_append_left as (hstored a ha)
    · exact List.mem_append_right _ ha
  · rcases List.mem_append.mp ha with ha | ha
    · exact htraced a ha
    · exact hrows a ha

/-- Every turn keeps the client at its id. -/
theorem turn_follows {c : Nat} (hc : c < 2 ^ 128) (t : Conversation) (rows : List AuditEvent)
    (next : Turn) (h : Follows c t rows) :
    Follows c (turn rt gen t next) (rows ++ ownRows rt gen t next) := by
  cases next with
  | mine fresh route =>
    have hid : correlationIdFromHeader fresh t.header = c := by
      rw [h.header, correlationIdFromHeader_header hc]
    refine follows_mine rt gen h.sourced h.stored h.traced hid ?_
    simp only [Conversation.send, serveRequest, hid]
    split
    · exact h.header
    · rfl
  | other action =>
    obtain ⟨hsourced, hkept⟩ := serveStep_keeps rt gen h.sourced action
    rw [ownRows, List.append_nil]
    exact ⟨hsourced, h.header, fun a ha => hkept.subset (h.stored a ha), h.traced⟩

end

/-- From its first response on, a client that sends back the header of a response stays at one
id, and the rows of its requests are listed under that id, whatever the other parties do and
whatever header the client began with. -/
theorem conversation_traced (rt : Runtime) (gen : Generated) (clock : Int)
    (earlier : List Action) (value : Option (List UInt8)) (fresh : Fin (2 ^ 128)) (route : Route)
    (hanswered : (Conversation.send rt gen
      ⟨run (serveStep rt gen) (start clock) earlier, value⟩ fresh route).1.2 ≠
        internalServerError)
    (turns : List Turn) :
    let first : Conversation := ⟨run (serveStep rt gen) (start clock) earlier, value⟩
    let last := run (turn rt gen) first (.mine fresh route :: turns)
    let c := correlationIdFromHeader fresh value
    last.header = some (correlationHeader c) ∧
      ∀ a ∈ collect (turn rt gen) (ownRows rt gen) first (.mine fresh route :: turns),
        a.eventType ≠ .deliveryResultRecorded →
          ∃ x ∈ listAuditEvents gen last.sys.store (some c), x.event = a := by
  intro first last c
  have hs : Sourced first.sys.store := by
    obtain ⟨ops, hops⟩ := run_refines (serveStep_operation rt gen) (start clock) earlier
    show Sourced (run (serveStep rt gen) (start clock) earlier).store
    rw [hops]
    exact run_sourced rt clock ops
  have hfirst : Follows c (turn rt gen first (.mine fresh route))
      ([] ++ ownRows rt gen first (.mine fresh route)) := by
    refine follows_mine rt gen hs (by simp) (by simp) rfl ?_
    have hheader : (first.send rt gen fresh route).2 = some (correlationHeader c) :=
      if_neg hanswered
    rw [hheader]
    rfl
  have hlast := collect_invariant (turn_follows rt gen (correlationIdFromHeader_lt fresh value))
    _ _ hfirst turns
  rw [List.nil_append] at hlast
  refine ⟨hlast.header, fun a ha hne => ?_⟩
  have hc := (hlast.traced a ha).resolve_right hne
  obtain ⟨k, hk⟩ := List.mem_iff_getElem?.mp (hlast.stored a ha)
  refine ⟨⟨k, a, gen.auditCreatedAt k⟩, ?_, rfl⟩
  rw [listAuditEvents, List.mem_map]
  exact ⟨(a, k), Table.mem_ordered.mpr ⟨hk, decide_eq_true hc⟩, rfl⟩

/-- An event is ingested, a worker starts a pass, and the client cancels the outreach. -/
def demoTurns : List Turn :=
  [.other (.background (.startPass 0 { now := demoMonday + 12 * hour }) rfl),
    .mine 8 (.cancelAccountOutreach "acct-1" "requested")]

/-- The event of the demo as a request. -/
def demoRoute : Route :=
  .ingestEvent (.ofSubmission (demoEvent "event-1" .paymentFailed "acct-1" demoNoon))

/-- Without a header the first request gets a fresh id, and the second one follows it. -/
theorem conversation_traced_demo :
    let last := run (turn demoRuntime demoGenerated) ⟨start 0, none⟩
      (.mine 7 demoRoute :: demoTurns)
    last.header = some (correlationHeader 7) ∧
      ∀ a ∈ collect (turn demoRuntime demoGenerated) (ownRows demoRuntime demoGenerated)
          ⟨start 0, none⟩ (.mine 7 demoRoute :: demoTurns),
        a.eventType ≠ .deliveryResultRecorded →
          ∃ x ∈ listAuditEvents demoGenerated last.sys.store (some 7), x.event = a :=
  conversation_traced demoRuntime demoGenerated 0 [] none 7 demoRoute (by decide +kernel) demoTurns

end Orchestrator.System
