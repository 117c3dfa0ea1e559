import Orchestrator.Api.Requests
import Orchestrator.System.Lineage

/-!
# Replay-stable ingestion

The first response to an event is counted in memory by the planner; every later one is
counted from the store. The two agree when the event commits, and no later commit
changes what is counted for an old event. The count of cancellations reads the payload of
every stored cancellation, so one operator's reason that PostgreSQL cannot read as text
stops every replay.
-/

namespace Orchestrator.System

open Api Base Domain Orchestration

/-! ### Counting the effects of one event -/

/-- A task whose decision belongs to the event. -/
def createdBy (decisions : List PolicyDecision) (eventId : Nat) (t : OutreachTask) : Bool :=
  t.policyDecisionId.any fun d =>
    (decisions[d]?).any fun row => row.inboundEventId = some eventId

/-- A cancellation row that names the event. -/
def cancelledBy (eventId : Nat) (a : AuditEvent) : Bool :=
  isCancellation a && a.payload.inboundEventId = some eventId

private theorem countP_eq_zero {α : Type} {p : α → Bool} {l : List α}
    (h : ∀ a ∈ l, p a = false) : l.countP p = 0 := by
  rw [List.countP_eq_zero]
  intro a ha
  simp [h a ha]

/-- A task whose decision is older than the event does not belong to it. -/
theorem not_createdBy_old {s : Store} (hs : WellFormed s) {e : Nat}
    (he : s.inboundEvents.length ≤ e) (ds : List PolicyDecision) {t : OutreachTask}
    (ht : t ∈ s.outreachTasks) : createdBy (s.policyDecisions ++ ds) e t = false := by
  obtain ⟨d, htd, hlt⟩ := hs.taskDecision t ht
  rw [createdBy, htd, Option.any_some, List.getElem?_append_left hlt,
    List.getElem?_eq_getElem hlt, Option.any_some, decide_eq_false_iff_not]
  intro heq
  have hlt' := hs.decisionEvent _ (List.getElem_mem hlt) _ heq
  omega

/-- The tasks of an old event are those that were counted before. -/
theorem createdBy_evolves {s s' : Store} (hs : WellFormed s) (h : Evolves s s')
    {e : Nat} (he : e < s.inboundEvents.length) {q : OutreachTask → Bool}
    (hq : ∀ t, q t.planned = q t) :
    s'.outreachTasks.countP (fun t => createdBy s'.policyDecisions e t && q t) =
      s.outreachTasks.countP (fun t => createdBy s.policyDecisions e t && q t) := by
  obtain ⟨ds, hds, hnew⟩ := h.policyDecisions
  obtain ⟨ts, hts, hts'⟩ := h.outreachTasks
  have hplanned (decisions : List PolicyDecision) (l : List OutreachTask) :
      l.countP (fun t => createdBy decisions e t && q t) =
        (l.map OutreachTask.planned).countP (fun t => createdBy decisions e t && q t) := by
    rw [List.countP_map]
    apply List.countP_congr
    intro t _
    rw [Function.comp, hq t]
    rfl
  have hzero : ts.countP (fun t => createdBy s'.policyDecisions e t && q t) = 0 := by
    apply countP_eq_zero
    intro t ht
    obtain ⟨d, hd, hle⟩ := hts' t ht
    rw [createdBy, hd, Option.any_some, hds, List.getElem?_append_right hle]
    cases hrow : ds[d - s.policyDecisions.length]? with
    | none => rfl
    | some row =>
      obtain ⟨e', he', hle'⟩ := hnew row (List.mem_of_getElem? hrow)
      have hne : e' ≠ e := by omega
      simp [he', hne]
  have hold : s.outreachTasks.countP (fun t => createdBy s'.policyDecisions e t && q t) =
      s.outreachTasks.countP (fun t => createdBy s.policyDecisions e t && q t) := by
    apply List.countP_congr
    intro t ht
    obtain ⟨d, hd, hlt⟩ := hs.taskDecision t ht
    rw [createdBy, createdBy, hd, hds, Option.any_some, Option.any_some,
      List.getElem?_append_left hlt]
  rw [hplanned, hts, List.countP_append, hzero, Nat.add_zero, ← hplanned, hold]

/-- What is counted for an old event does not change. -/
theorem storedResult_evolves {s s' : Store} (hs : WellFormed s) (h : Evolves s s')
    {e : Nat} (he : e < s.inboundEvents.length) : storedResult s' e = storedResult s e := by
  have hcreated := createdBy_evolves hs h he (q := fun _ => true) (fun _ => rfl)
  simp only [Bool.and_true] at hcreated
  obtain ⟨ds, hds, hnew⟩ := h.policyDecisions
  obtain ⟨as, has, hrows⟩ := h.auditEvents
  have hother : ∀ d ∈ ds, d.inboundEventId ≠ some e := by
    intro d hd hde
    obtain ⟨e', he', hle⟩ := hnew d hd
    rw [he', Option.some.injEq] at hde
    omega
  have hdecisions (q : PolicyDecision → Bool) :
      s'.policyDecisions.countP (fun d => d.inboundEventId = some e && q d) =
        s.policyDecisions.countP (fun d => d.inboundEventId = some e && q d) := by
    rw [hds, List.countP_append, countP_eq_zero (l := ds), Nat.add_zero]
    intro d hd
    simp [hother d hd]
  have hall := hdecisions fun _ => true
  simp only [Bool.and_true] at hall
  have hcancelled : s'.auditEvents.countP (cancelledBy e) =
      s.auditEvents.countP (cancelledBy e) := by
    rw [has, List.countP_append, countP_eq_zero (l := as), Nat.add_zero]
    intro a ha
    by_cases hae : a.payload.inboundEventId = some e
    · have hle := hrows a ha e hae
      omega
    · simp [cancelledBy, hae]
  simp only [storedResult, EventIngestionResult.mk.injEq, true_and]
  exact ⟨hcreated, hdecisions _, hdecisions _, hcancelled, hall⟩

/-! ### The first response -/

private theorem countP_fresh_decisions {s : Store} (hs : WellFormed s) (q : PolicyDecision → Bool) :
    s.policyDecisions.countP
      (fun d => d.inboundEventId = some s.inboundEvents.length && q d) = 0 := by
  apply countP_eq_zero
  intro d hd
  by_cases he : d.inboundEventId = some s.inboundEvents.length
  · have hlt := hs.decisionEvent d hd _ he
    omega
  · simp [he]

private theorem countP_fresh_rows {s : Store} (hs : WellFormed s) :
    s.auditEvents.countP (cancelledBy s.inboundEvents.length) = 0 := by
  apply countP_eq_zero
  intro a ha
  by_cases he : a.payload.inboundEventId = some s.inboundEvents.length
  · have hlt := hs.auditPayload a ha _ he
    omega
  · simp [cancelledBy, he]

private theorem countP_receiptRows (rt : Runtime) (sub : EventSubmission) (id e : Nat) :
    (receiptRows rt sub id).countP (cancelledBy e) = 0 := by
  apply countP_eq_zero
  intro a ha
  simp [cancelledBy, isCancellation, (receiptRows_entity rt sub id a ha).1]

private theorem countP_plannerRows {ctx : EventContext} {as : List AuditEvent}
    (h : ∀ a ∈ as, PlannerRow ctx a) (e : Nat) : as.countP (cancelledBy e) = 0 := by
  apply countP_eq_zero
  intro a ha
  simp [cancelledBy, isCancellation, (h a ha).1]

/-- No older task belongs to the event. -/
private theorem countP_createdBy_old {s : Store} (hs : WellFormed s)
    (ds : List PolicyDecision) : s.outreachTasks.countP
      (createdBy (s.policyDecisions ++ ds) s.inboundEvents.length) = 0 :=
  countP_eq_zero fun _ ht => not_createdBy_old hs (Nat.le_refl _) ds ht

/-- The tasks of a planning pass belong to its event. -/
private theorem countP_createdBy_new {rt : Runtime} {ctx : EventContext} {clock : Int}
    {decisions : List PolicyDecision} {base : Nat} {ts : List OutreachTask}
    (hts : ∀ t ∈ ts, PlannedTask rt ctx clock decisions base t) :
    ts.countP (createdBy decisions ctx.inboundEventId) = ts.length := by
  apply List.countP_eq_length.mpr
  intro t ht
  obtain ⟨channel, d, at', rfl, -, row, hrow, -, he, -⟩ := (hts t ht).row
  simp [createdBy, taskRow, hrow, he]

/-- The first response is what a replay would read back. -/
theorem ingested_result {rt : Runtime} {s s' : Store} {sub : EventSubmission} {clock : Int}
    {r : EventIngestionResult} (hs : WellFormed s) (h : Ingested rt s sub clock s' r) :
    r = storedResult s' r.eventId := by
  cases h with
  | replayed h => rfl
  | @planned ctx customers accounts n st ds ts as fresh policyEvent counted growth =>
    have hids : ∀ d ∈ ds, d.inboundEventId = some s.inboundEvents.length := by
      intro d hd
      rw [growth.decisions d hd, fresh.inboundEventId]
    have hdecisions (q : PolicyDecision → Bool) : (s.policyDecisions ++ ds).countP
        (fun d => d.inboundEventId = some s.inboundEvents.length && q d) = ds.countP q := by
      rw [List.countP_append, countP_fresh_decisions hs, Nat.zero_add]
      apply List.countP_congr
      intro d hd
      simp [hids d hd]
    have hall := hdecisions fun _ => true
    simp only [Bool.and_true, List.countP_true] at hall
    simp only [storedResult, EventIngestionResult.mk.injEq, true_and]
    refine ⟨?_, (hdecisions _).symm, (hdecisions _).symm, ?_, hall.symm⟩
    · have hnew := countP_createdBy_new growth.tasks
      rw [fresh.inboundEventId] at hnew
      show _ = List.countP (createdBy (s.policyDecisions ++ ds) _) _
      rw [List.countP_append, countP_createdBy_old hs, Nat.zero_add]
      exact hnew.symm
    · show 0 = List.countP (cancelledBy _) _
      rw [List.countP_append, List.countP_append, countP_fresh_rows hs, countP_receiptRows,
        countP_plannerRows growth.audits]
  | @cancelled ctx customers accounts marker record fresh cancelling =>
    have hdecisions := countP_fresh_decisions hs
    have hall := hdecisions fun _ => true
    simp only [Bool.and_true] at hall
    have htasks : (s.outreachTasks.map (OutreachTask.cancelWhere (cancellable ctx))).countP
        (createdBy s.policyDecisions s.inboundEvents.length) = 0 := by
      have hold := countP_createdBy_old hs []
      rw [List.append_nil] at hold
      rw [List.countP_map, ← hold]
      apply List.countP_congr
      intro t ht
      simp only [Function.comp, OutreachTask.cancelWhere]
      split <;> rfl
    have hrows : ((Table.select (cancellable ctx) s.outreachTasks).map (cancelledRow ctx)).countP
        (cancelledBy s.inboundEvents.length) = s.outreachTasks.countP (cancellable ctx) := by
      rw [List.countP_eq_length.mpr, List.length_map, Table.length_select]
      intro a ha
      obtain ⟨x, -, rfl⟩ := List.mem_map.mp ha
      simp [cancelledBy, isCancellation, cancelledRow, plannerAudit, fresh.inboundEventId]
    simp only [storedResult, EventIngestionResult.mk.injEq, true_and]
    refine ⟨htasks.symm, (hdecisions _).symm, (hdecisions _).symm, ?_, hall.symm⟩
    show _ = List.countP (cancelledBy _) _
    rw [List.countP_append, List.countP_append, List.countP_append, List.countP_append,
      countP_fresh_rows hs, countP_receiptRows, countP_plannerRows (recordRows_spec ctx), hrows]
    simp [cancelledBy, isCancellation, processedMarker]

/-! ### Readable cancellations -/

/-- The cancellations are readable when each row of them is. -/
theorem cancellationsReadable_iff {s : Store} : cancellationsReadable s = true ↔
    ∀ a ∈ s.auditEvents, isCancellation a = true → a.payload.readable = true := by
  simp only [cancellationsReadable, List.all_eq_true, Bool.or_eq_true, Bool.not_eq_true']
  refine forall₂_congr fun a _ => ?_
  cases isCancellation a <;> simp

private theorem cancellationsReadable_append {s s' : Store} {as : List AuditEvent}
    (h : s'.auditEvents = s.auditEvents ++ as)
    (has : ∀ a ∈ as, isCancellation a = true → a.payload.readable = true) :
    cancellationsReadable s' = cancellationsReadable s := by
  rw [Bool.eq_iff_iff, cancellationsReadable_iff, cancellationsReadable_iff, h]
  constructor
  · exact fun hall a ha => hall a (List.mem_append_left as ha)
  · intro hall a ha
    rcases List.mem_append.mp ha with ha | ha
    · exact hall a ha
    · exact has a ha

private theorem not_isCancellation_receipt {rt : Runtime} {sub : EventSubmission} {id : Nat}
    {a : AuditEvent} (ha : a ∈ receiptRows rt sub id) : isCancellation a = false := by
  simp [isCancellation, (receiptRows_entity rt sub id a ha).1]

private theorem not_isCancellation_planner {ctx : EventContext} {a : AuditEvent}
    (h : PlannerRow ctx a) : isCancellation a = false := by
  simp [isCancellation, h.1]

/-- An ingestion writes no operator's reason. -/
theorem ingested_readable {rt : Runtime} {s s' : Store} {sub : EventSubmission} {clock : Int}
    {r : EventIngestionResult} (h : Ingested rt s sub clock s' r) :
    cancellationsReadable s' = cancellationsReadable s := by
  cases h with
  | replayed => rfl
  | planned fresh policyEvent counted growth =>
    apply cancellationsReadable_append rfl
    intro a ha hcancellation
    rcases List.mem_append.mp ha with ha | ha
    · rw [not_isCancellation_receipt ha] at hcancellation
      cases hcancellation
    · rw [not_isCancellation_planner (growth.audits a ha)] at hcancellation
      cases hcancellation
  | @cancelled ctx customers accounts marker record fresh cancelling =>
    apply cancellationsReadable_append rfl
    intro a ha hcancellation
    simp only [List.mem_append, List.mem_singleton, List.mem_map] at ha
    rcases ha with ha | ha | ⟨x, -, rfl⟩ | rfl
    · rw [not_isCancellation_receipt ha] at hcancellation
      cases hcancellation
    · rw [not_isCancellation_planner (recordRows_spec ctx a ha)] at hcancellation
      cases hcancellation
    · rfl
    · cases hcancellation

/-- What a replay right after an ingestion reads back. -/
theorem ingested_reply {rt : Runtime} {s s' : Store} {sub : EventSubmission} {clock : Int}
    {r : EventIngestionResult} (hs : WellFormed s) (h : Ingested rt s sub clock s' r) :
    resultFromExistingEvent s' r.eventId =
      if cancellationsReadable s then .ok r else .error (.untranslatableCharacter "payload") := by
  rw [resultFromExistingEvent, ingested_readable h, ← ingested_result hs h]

/-- A stored event is found in every later store. -/
theorem findExistingEvent_evolves {s s' : Store} (h : Evolves s s') {source externalId : String}
    {e : Nat} (he : s.findExistingEvent source externalId = some e) :
    s'.findExistingEvent source externalId = some e :=
  Table.lookup_of_prefix (h.inboundEvents.map _) he

/-- A found event is a stored one. -/
theorem findExistingEvent_lt {s : Store} {source externalId : String} {e : Nat}
    (he : s.findExistingEvent source externalId = some e) : e < s.inboundEvents.length := by
  obtain ⟨row, hrow, -⟩ := Table.lookup_eq_some he
  exact (List.getElem?_eq_some_iff.mp hrow).1

/-- Once an event is ingested with a result, every later submission with its identity, whatever
ran in between, returns that result and leaves the store as it is exactly when the payload of
every stored cancellation is readable. -/
theorem ingestion_replay_iff (rt : Runtime) (clock : Int) (before : List Op)
    (sub : EventSubmission) (s' : Store) (r : EventIngestionResult)
    (hfirst : ingestEventSnapshot rt (run (step rt) (start clock) before).store sub
      (run (step rt) (start clock) before).clock = .ok (s', r))
    (after : List Op) (again : EventSubmission)
    (hsame : again.source = sub.source ∧ again.externalId = sub.externalId) (clock' : Int) :
    let s := run (step rt) (start clock) (before ++ .ingestEvent sub :: after)
    ingestEventSnapshot rt s.store again clock' = .ok (s.store, r) ↔
      ∀ a ∈ s.store.auditEvents, isCancellation a = true → a.payload.readable = true := by
  intro s
  have hs := run_wellFormed rt clock before
  have hs' := run_wellFormed rt clock (before ++ [.ingestEvent sub])
  have hcommit : (run (step rt) (start clock) (before ++ [.ingestEvent sub])).store = s' := by
    rw [run_concat]
    simp only [step, ingest, hfirst]
    rfl
  rw [hcommit] at hs'
  have hevolves : Evolves s' s.store := by
    have h := run_evolves rt (run (step rt) (start clock) (before ++ [.ingestEvent sub]))
      (by rw [hcommit]; exact hs') after
    rw [hcommit, ← run_append, List.append_assoc] at h
    exact h
  have hing := ingestEventSnapshot_ingested hs hfirst
  have hfound : s.store.findExistingEvent again.source again.externalId = some r.eventId := by
    rw [hsame.1, hsame.2]
    exact findExistingEvent_evolves hevolves (hing.stored)
  have hresult : storedResult s.store r.eventId = r := by
    rw [storedResult_evolves hs' hevolves (findExistingEvent_lt (hing.stored))]
    exact (ingested_result hs hing).symm
  rw [ingestEventSnapshot_seen hfound, resultFromExistingEvent, hresult,
    ← cancellationsReadable_iff]
  split
  · next hreadable => exact iff_of_true rfl hreadable
  · next hunreadable =>
    refine iff_of_false ?_ hunreadable
    intro h
    cases h

/-- A payment failure, a dispatched email, a cancelled text, an opt-out, and the payment
failure again under another type and another account. -/
theorem ingestion_replay_iff_demo :
    let s := run (step demoRuntime) (start 0) ([] ++
      .ingestEvent (demoEvent "event-1" .paymentFailed "acct-1" demoNoon) ::
        [.startPass 0 { now := demoMonday + 12 * hour }, .claim 0,
          .settle 0 (.delivered ⟨"mock-1", []⟩), .cancelOutreach "acct-1" "paid" 7,
          .ingestEvent (demoEvent "event-2" .optOutReceived "acct-1" demoNoon)])
    ingestEventSnapshot demoRuntime s.store
      (demoEvent "event-1" .accountPaused "acct-2" demoNoon) 5 =
      .ok (s.store, ⟨0, 2, 0, 0, 0, 2⟩) :=
  (ingestion_replay_iff demoRuntime 0 []
    (demoEvent "event-1" .paymentFailed "acct-1" demoNoon)
    (ingest demoRuntime Store.empty (demoEvent "event-1" .paymentFailed "acct-1" demoNoon) 0)
    ⟨0, 2, 0, 0, 0, 2⟩ (by decide +kernel) _ (demoEvent "event-1" .accountPaused "acct-2" demoNoon)
    ⟨rfl, rfl⟩ 5).mpr (by decide +kernel)

/-- An operator's reason that the route accepts holds U+0000: the replay that follows its
cancellation raises, although no row of the event is concerned. -/
theorem ingestion_replay_raises :
    let event := demoEvent "event-1" .hardshipRequested "acct-1" demoNoon
    let s := run (step demoRuntime) (start 0) [.ingestEvent event,
      .ingestEvent (demoEvent "event-2" .paymentFailed "acct-1" demoNoon),
      .cancelOutreach "acct-1" "paid\x00" 7]
    cancelOutreachReason "paid\x00" = .ok "paid\x00" ∧
      (ingestEventSnapshot demoRuntime Store.empty event 0).map Prod.snd =
        .ok ⟨0, 0, 0, 0, 0, 0⟩ ∧
      ingestEventSnapshot demoRuntime s.store event 5 =
        .error (.untranslatableCharacter "payload") := by
  exact ⟨by decide +kernel, by decide +kernel, by decide +kernel⟩

end Orchestrator.System
