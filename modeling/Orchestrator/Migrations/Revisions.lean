import Orchestrator.Base.Ddl
import Orchestrator.Migrations.CoreTables

/-!
# The two later migrations

`alembic/versions/6d9d6c4f1f1a_derive_inbound_event_idempotency_from_source_identity.py` and
`alembic/versions/53d8b15e9a4c_add_outreach_task_correlation_id.py` on populated tables. What
`payload ->> 'source'` reads from a JSON document is PostgreSQL's and a parameter. The first
one backfills its column, so its upgrade depends on the sources that the payloads name and
its downgrade on external ids that two sources share; the second one has nothing to fill its
column with, so it upgrades an empty task table only.
-/

namespace Orchestrator.Migrations

open Base Ddl

/-- An inbound event with its source column, revision `6d9d6c4f1f1a`. -/
structure SourcedEventRow extends InboundEventRow where
  source : String
  deriving DecidableEq, Repr

/-- An outreach task with its correlation id, revision `53d8b15e9a4c`. -/
structure CorrelatedTaskRow extends OutreachTaskRow where
  correlationId : Nat
  deriving DecidableEq, Repr

/-- The columns that a content of revision `6d9d6c4f1f1a` had before. -/
def withoutSource {τ : Type} (db : Content SourcedEventRow τ) : Content InboundEventRow τ :=
  db.withEvents (db.inboundEvents.map SourcedEventRow.toInboundEventRow)

/-- The columns that a content of revision `53d8b15e9a4c` had before. -/
def withoutCorrelation {ε : Type} (db : Content ε CorrelatedTaskRow) :
    Content ε OutreachTaskRow :=
  db.withTasks (db.outreachTasks.map CorrelatedTaskRow.toOutreachTaskRow)

/-- The columns of `uq_inbound_events_source_external_id`. -/
def SourcedEventRow.identity (e : SourcedEventRow) : String × String := (e.source, e.externalId)

/-- A content of revision `6d9d6c4f1f1a`, where an external id is unique for its source. -/
structure Sourced (db : Content SourcedEventRow OutreachTaskRow) : Prop where
  lasting : Lasting (withoutSource db)
  sourceFits : ∀ e ∈ db.inboundEvents, fitsString 255 e.source = true
  identity : (db.inboundEvents.map SourcedEventRow.identity).Nodup

/-- A content of revision `53d8b15e9a4c`. -/
structure Correlated (db : Content SourcedEventRow CorrelatedTaskRow) : Prop where
  sourced : Sourced (withoutCorrelation db)

/-- What an upgrade promises for a content: it succeeds, every row keeps its earlier columns,
and the result is valid. -/
def UpgradeWorks {C D : Type} (upgrade : C → Except DdlFailure D) (earlier : D → C)
    (valid : D → Prop) (db : C) : Prop :=
  ∃ db', upgrade db = .ok db' ∧ earlier db' = db ∧ valid db'

/-- What a downgrade promises for a content: it succeeds and every row keeps its remaining
columns. -/
def DowngradeWorks {C D : Type} (downgrade : D → Except DdlFailure C) (remaining : D → C)
    (db : D) : Prop :=
  downgrade db = .ok (remaining db)

/-! ### Revision `6d9d6c4f1f1a` -/

namespace DeriveInboundEventIdempotencyFromSourceIdentity

/-- PostgreSQL's `document ->> key`: the text of a member, null when there is none, or an error
for text that it cannot represent. -/
abbrev ArrowText := String → String → Except DdlFailure (Option String)

/-- `COALESCE(NULLIF(payload ->> 'source', ''), 'unknown')`,
`alembic/versions/6d9d6c4f1f1a_derive_inbound_event_idempotency_from_source_identity.py:31–34`. -/
def payloadSource (arrowText : ArrowText) (payload : String) : Except DdlFailure String :=
  (arrowText payload "source").map fun text => (text.filter fun s => s ≠ "").getD "unknown"

/-- The backfill of one row. -/
def setSource (arrowText : ArrowText) (e : SourcedEventRow) : Except DdlFailure SourcedEventRow :=
  payloadSource arrowText e.payload >>= fun source =>
    if fitsString 255 source then .ok { e with source := source } else .error .stringTooLong

/-- `upgrade`,
`alembic/versions/6d9d6c4f1f1a_derive_inbound_event_idempotency_from_source_identity.py:20–46`. -/
def upgrade (arrowText : ArrowText) (db : Content InboundEventRow OutreachTaskRow) :
    Except DdlFailure (Content SourcedEventRow OutreachTaskRow) := do
  let added ← addColumn SourcedEventRow.mk (some "unknown") db.inboundEvents
  let updated ← updateAll (setSource arrowText) added
  let _ ← createUniqueConstraint SourcedEventRow.identity updated
  .ok (db.withEvents updated)

/-- `downgrade`,
`alembic/versions/6d9d6c4f1f1a_derive_inbound_event_idempotency_from_source_identity.py:49–60`. -/
def downgrade (db : Content SourcedEventRow OutreachTaskRow) :
    Except DdlFailure (Content InboundEventRow OutreachTaskRow) := do
  let _ ← createUniqueConstraint (fun e => e.externalId) db.inboundEvents
  .ok (withoutSource db)

/-- Every payload has a source that can be read, and it is null or fits its column. -/
def SourcesFit (arrowText : ArrowText) (db : Content InboundEventRow OutreachTaskRow) : Prop :=
  ∀ e ∈ db.inboundEvents, ∃ text, arrowText e.payload "source" = .ok text ∧
    fitsStringOption 255 text = true

section

variable {arrowText : ArrowText}

/-- A backfilled source fits exactly when the text that was read does. -/
private theorem fits_payloadSource (text : Option String) :
    fitsString 255 ((text.filter fun s => s ≠ "").getD "unknown") = fitsStringOption 255 text := by
  cases text with
  | none => decide
  | some s =>
    by_cases hs : s = ""
    · subst hs
      decide
    · simp [Option.filter, hs, fitsStringOption]

/-- A row is backfilled when its source can be read and is null or fits. -/
theorem setSource_returns (e : SourcedEventRow) :
    Returns (setSource arrowText e) ↔ ∃ text, arrowText e.payload "source" = .ok text ∧
      fitsStringOption 255 text = true := by
  unfold setSource payloadSource
  cases arrowText e.payload "source" with
  | error f => simp [bind, Except.bind, Except.map]
  | ok text =>
    simp only [bind, Except.bind, Except.map, fits_payloadSource, Except.ok.injEq,
      exists_eq_left']
    split
    · next h => simp [h]
    · next h => simp [h]

/-- A backfill writes the source alone, and one that fits. -/
theorem setSource_keeps {e e' : SourcedEventRow} (h : setSource arrowText e = .ok e') :
    e'.toInboundEventRow = e.toInboundEventRow ∧ fitsString 255 e'.source = true := by
  obtain ⟨source, -, h⟩ := bind_eq_ok.mp h
  split at h
  · next hfits =>
    cases h
    exact ⟨rfl, hfits⟩
  · cases h

/-- The backfill of a table keeps every other column. -/
theorem backfill_keeps {events : List InboundEventRow} {rows : List SourcedEventRow}
    (h : updateAll (setSource arrowText) (events.map fun e => ⟨e, "unknown"⟩) = .ok rows) :
    rows.map SourcedEventRow.toInboundEventRow = events ∧
      ∀ e ∈ rows, fitsString 255 e.source = true := by
  rw [updateAll_eq_ok, List.forall₂_map_left_iff] at h
  induction h with
  | nil => exact ⟨rfl, by simp⟩
  | cons hrow _ ih =>
    obtain ⟨hkeeps, hfits⟩ := setSource_keeps hrow
    rw [List.map_cons, hkeeps, ih.1, List.forall_mem_cons]
    exact ⟨rfl, hfits, ih.2⟩

/-- External ids that are unique are unique for each source. -/
theorem nodup_identity {rows : List SourcedEventRow}
    (h : ((rows.map SourcedEventRow.toInboundEventRow).map InboundEventRow.externalId).Nodup) :
    (rows.map SourcedEventRow.identity).Nodup := by
  have hsnd : (rows.map SourcedEventRow.identity).map Prod.snd =
      (rows.map SourcedEventRow.toInboundEventRow).map InboundEventRow.externalId := by
    rw [List.map_map, List.map_map]
    rfl
  exact List.Nodup.of_map Prod.snd (hsnd ▸ h)

/-- An upgrade that succeeds backfilled every row. -/
theorem upgrade_eq_ok {db : Content InboundEventRow OutreachTaskRow}
    {db' : Content SourcedEventRow OutreachTaskRow} :
    upgrade arrowText db = .ok db' ↔ ∃ rows,
      updateAll (setSource arrowText) (db.inboundEvents.map fun e => ⟨e, "unknown"⟩) = .ok rows ∧
        (rows.map SourcedEventRow.identity).Nodup ∧ db' = db.withEvents rows := by
  unfold upgrade
  rw [addColumn_default]
  constructor
  · intro h
    obtain ⟨added, hadded, h⟩ := bind_eq_ok.mp h
    cases hadded
    obtain ⟨rows, hrows, h⟩ := bind_eq_ok.mp h
    obtain ⟨done, hunique, h⟩ := bind_eq_ok.mp h
    exact ⟨rows, hrows, createUniqueConstraint_eq_ok.mp hunique, (Except.ok.inj h).symm⟩
  · rintro ⟨rows, hrows, hunique, rfl⟩
    have hdone := createUniqueConstraint_eq_ok.mpr hunique
    exact bind_eq_ok.mpr ⟨_, rfl, bind_eq_ok.mpr ⟨rows, hrows, bind_eq_ok.mpr ⟨⟨⟩, hdone, rfl⟩⟩⟩

/-- The upgrade works exactly for contents whose payloads name sources that fit. -/
theorem upgradeWorks_iff {db : Content InboundEventRow OutreachTaskRow} (hdb : Created db) :
    UpgradeWorks (upgrade arrowText) withoutSource Sourced db ↔ SourcesFit arrowText db := by
  have hreturns : Returns (updateAll (setSource arrowText)
      (db.inboundEvents.map fun e => ⟨e, "unknown"⟩)) ↔ SourcesFit arrowText db := by
    rw [updateAll_returns, List.forall_mem_map]
    exact forall₂_congr fun e _ => setSource_returns _
  rw [← hreturns]
  constructor
  · rintro ⟨db', h, -, -⟩
    obtain ⟨rows, hrows, -, -⟩ := upgrade_eq_ok.mp h
    exact ⟨rows, hrows⟩
  · rintro ⟨rows, hrows⟩
    obtain ⟨hevents, hfits⟩ := backfill_keeps hrows
    have hearlier : withoutSource (db.withEvents rows) = db := by
      simp only [withoutSource, Content.withEvents, hevents]
    have hunique : (rows.map SourcedEventRow.identity).Nodup := by
      apply nodup_identity
      rw [hevents]
      exact hdb.eventExternalId
    exact ⟨_, upgrade_eq_ok.mpr ⟨rows, hrows, hunique, rfl⟩, hearlier,
      ⟨hearlier.symm ▸ hdb.lasting, hfits, hunique⟩⟩

/-- The downgrade works exactly for contents in which no two events share an external id. -/
theorem downgradeWorks_iff (db : Content SourcedEventRow OutreachTaskRow) :
    DowngradeWorks downgrade withoutSource db ↔
      (db.inboundEvents.map fun e => e.externalId).Nodup := by
  unfold DowngradeWorks downgrade
  rw [bind_eq_ok]
  constructor
  · rintro ⟨done, h, -⟩
    exact createUniqueConstraint_eq_ok.mp h
  · intro h
    exact ⟨⟨⟩, createUniqueConstraint_eq_ok.mpr h, rfl⟩

/-- The downgrade of an upgraded content gives it back. -/
theorem downgrade_upgrade {db : Content InboundEventRow OutreachTaskRow}
    {db' : Content SourcedEventRow OutreachTaskRow} (hdb : Created db)
    (h : upgrade arrowText db = .ok db') : downgrade db' = .ok db := by
  obtain ⟨rows, hrows, -, rfl⟩ := upgrade_eq_ok.mp h
  obtain ⟨hevents, -⟩ := backfill_keeps hrows
  have hearlier : withoutSource (db.withEvents rows) = db := by
    simp only [withoutSource, Content.withEvents, hevents]
  have hunique : ((db.withEvents rows).inboundEvents.map fun e => e.externalId).Nodup := by
    have hids := hdb.eventExternalId
    rw [← hevents, List.map_map] at hids
    exact hids
  have hdown := (downgradeWorks_iff (db.withEvents rows)).mpr hunique
  rw [DowngradeWorks, hearlier] at hdown
  exact hdown

end

end DeriveInboundEventIdempotencyFromSourceIdentity

/-! ### Revision `53d8b15e9a4c` -/

namespace AddOutreachTaskCorrelationId

/-- `upgrade`, `alembic/versions/53d8b15e9a4c_add_outreach_task_correlation_id.py:20–24`. -/
def upgrade (db : Content SourcedEventRow OutreachTaskRow) :
    Except DdlFailure (Content SourcedEventRow CorrelatedTaskRow) := do
  let added ← addColumn CorrelatedTaskRow.mk none db.outreachTasks
  .ok (db.withTasks added)

/-- `downgrade`, `alembic/versions/53d8b15e9a4c_add_outreach_task_correlation_id.py:27–28`. -/
def downgrade (db : Content SourcedEventRow CorrelatedTaskRow) :
    Except DdlFailure (Content SourcedEventRow OutreachTaskRow) := .ok (withoutCorrelation db)

/-- The upgrade works exactly for contents without outreach tasks. -/
theorem upgradeWorks_iff {db : Content SourcedEventRow OutreachTaskRow} (hdb : Sourced db) :
    UpgradeWorks upgrade withoutCorrelation Correlated db ↔ db.outreachTasks = [] := by
  constructor
  · rintro ⟨db', h, -, -⟩
    obtain ⟨added, hadded, -⟩ := bind_eq_ok.mp h
    exact (addColumn_none_eq_ok.mp hadded).1
  · intro hempty
    have hearlier : withoutCorrelation (db.withTasks []) = db := by
      simp only [withoutCorrelation, Content.withTasks, List.map_nil, ← hempty]
    refine ⟨db.withTasks [], ?_, hearlier, ⟨hearlier.symm ▸ hdb⟩⟩
    exact bind_eq_ok.mpr ⟨[], addColumn_none_eq_ok.mpr ⟨hempty, rfl⟩, rfl⟩

/-- The downgrade works for every content. -/
theorem downgradeWorks (db : Content SourcedEventRow CorrelatedTaskRow) :
    DowngradeWorks downgrade withoutCorrelation db := rfl

end AddOutreachTaskCorrelationId

/-! ### Both revisions -/

/-- When the migrations work on a populated database: the first upgrade exactly for payloads
whose sources can be read and fit, its downgrade exactly without external ids that two sources
share, the second upgrade exactly without tasks, and its downgrade always. -/
theorem migrations_work_iff (arrowText : String → String → Except DdlFailure (Option String))
    {created : Content InboundEventRow OutreachTaskRow}
    {sourced : Content SourcedEventRow OutreachTaskRow}
    (hcreated : Created created) (hsourced : Sourced sourced)
    (correlated : Content SourcedEventRow CorrelatedTaskRow) :
    (UpgradeWorks (DeriveInboundEventIdempotencyFromSourceIdentity.upgrade arrowText)
        withoutSource Sourced created ↔
      ∀ e ∈ created.inboundEvents, ∃ text, arrowText e.payload "source" = .ok text ∧
        ∀ source, text = some source → source.length ≤ 255) ∧
    (DowngradeWorks DeriveInboundEventIdempotencyFromSourceIdentity.downgrade withoutSource
        sourced ↔
      (sourced.inboundEvents.map fun e => e.externalId).Nodup) ∧
    (UpgradeWorks AddOutreachTaskCorrelationId.upgrade withoutCorrelation Correlated sourced ↔
      sourced.outreachTasks = []) ∧
    DowngradeWorks AddOutreachTaskCorrelationId.downgrade withoutCorrelation correlated := by
  refine ⟨?_, ?_, ?_, ?_⟩
  · rw [DeriveInboundEventIdempotencyFromSourceIdentity.upgradeWorks_iff hcreated]
    refine forall₂_congr fun e _ => exists_congr fun text => and_congr_right fun _ => ?_
    cases text <;> simp [fitsStringOption, fitsString]
  · exact DeriveInboundEventIdempotencyFromSourceIdentity.downgradeWorks_iff sourced
  · exact AddOutreachTaskCorrelationId.upgradeWorks_iff hsourced
  · exact AddOutreachTaskCorrelationId.downgradeWorks correlated

/-- PostgreSQL's operator on the document of the sample event. -/
def demoArrowText (document key : String) : Except DdlFailure (Option String) :=
  .ok (if document = "\x7b\"source\": \"servicing\"\x7d" ∧ key = "source" then some "servicing"
    else none)

/-- An event that was planned. -/
def demoEventRow : InboundEventRow where
  id := 1
  externalId := "event-1"
  eventType := "payment_failed"
  customerExternalId := "cust-1"
  accountExternalId := "acct-1"
  payload := "\x7b\"source\": \"servicing\"\x7d"
  receivedAt := 0
  idempotencyKey := "inbound_event:event-1"
  processingStatus := "processed"

/-- The email that was planned for it. -/
def demoTaskRow : OutreachTaskRow where
  id := 5
  accountId := 3
  customerId := 2
  channel := "email"
  status := "scheduled"
  scheduledAt := 0
  attemptCount := 0
  maxAttempts := 3
  idempotencyKey := "outreach_task:1:email"
  policyDecisionId := some 4
  lastError := none
  createdAt := 0
  updatedAt := 0

/-- A database with one planned event at revision `be0bd9c687b8`. -/
def demoContent : Content InboundEventRow OutreachTaskRow where
  auditEvents := []
  customers := [⟨2, "cust-1", "Ada", "UTC", none, none, true, true, true, false, 0, 0⟩]
  inboundEvents := [demoEventRow]
  accounts := [⟨3, "acct-1", 2, "delinquent", 12500, 30, 0, 0⟩]
  policyDecisions := [⟨4, 3, 2, some 1, "allow", some "email", "[\"policy_allowed\"]", 0⟩]
  outreachTasks := [demoTaskRow]

/-- The same database at revision `6d9d6c4f1f1a`. -/
def demoSourced : Content SourcedEventRow OutreachTaskRow :=
  demoContent.withEvents [⟨demoEventRow, "servicing"⟩]

/-- The sample content meets the constraints of the first revision. -/
theorem demoContent_created : Created demoContent := by
  refine ⟨⟨?_, ?_, ?_, ?_, ?_, ?_, ?_⟩, by decide⟩
  · constructor <;> decide
  · constructor <;> decide
  · constructor <;> decide
  all_goals decide

/-- The sample content meets the constraints of the second revision. -/
theorem demoSourced_sourced : Sourced demoSourced :=
  ⟨demoContent_created.lasting, by decide, by decide⟩

/-- What the migrations do to the sample database. -/
theorem migrations_work_iff_demo :
    (UpgradeWorks (DeriveInboundEventIdempotencyFromSourceIdentity.upgrade demoArrowText)
        withoutSource Sourced demoContent ↔
      ∀ e ∈ demoContent.inboundEvents, ∃ text, demoArrowText e.payload "source" = .ok text ∧
        ∀ source, text = some source → source.length ≤ 255) ∧
    (DowngradeWorks DeriveInboundEventIdempotencyFromSourceIdentity.downgrade withoutSource
        demoSourced ↔
      (demoSourced.inboundEvents.map fun e => e.externalId).Nodup) ∧
    (UpgradeWorks AddOutreachTaskCorrelationId.upgrade withoutCorrelation Correlated demoSourced ↔
      demoSourced.outreachTasks = []) ∧
    DowngradeWorks AddOutreachTaskCorrelationId.downgrade withoutCorrelation
      (demoSourced.withTasks [⟨demoTaskRow, 7⟩]) :=
  migrations_work_iff demoArrowText demoContent_created demoSourced_sourced _

/-- A database with a planned task is not upgraded: the new column has no value for it. -/
theorem upgrade_rejects_tasks :
    Sourced demoSourced ∧
      ¬∃ db, AddOutreachTaskCorrelationId.upgrade demoSourced = .ok db := by
  refine ⟨demoSourced_sourced, ?_⟩
  rintro ⟨db, h⟩
  obtain ⟨added, hadded, -⟩ := bind_eq_ok.mp h
  cases hadded

end Orchestrator.Migrations
