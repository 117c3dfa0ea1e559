import Orchestrator.Base.Precedence
import Orchestrator.System.Schema

/-!
# The reset of the demo script

`reset_database` of `scripts/seed_demo.py` deletes the rows of one table after another. A foreign
key stops a deletion that would leave a row without the one it refers to, so that the order of
the tables decides whether the reset goes through.
-/

namespace Orchestrator.Scripts

open Base Base.Precedence Migrations

/-- The six tables. -/
inductive CoreTable where
  | auditEvents
  | outreachTasks
  | policyDecisions
  | inboundEvents
  | accounts
  | customers
  deriving DecidableEq, Repr

/-- The tables whose foreign keys refer to a table,
`alembic/versions/be0bd9c687b8_create_core_tables.py:151–154,187–198,243–254`. -/
def CoreTable.referrers : CoreTable → List CoreTable
  | .auditEvents => []
  | .outreachTasks => []
  | .policyDecisions => [.outreachTasks]
  | .inboundEvents => [.policyDecisions]
  | .accounts => [.policyDecisions, .outreachTasks]
  | .customers => [.accounts, .policyDecisions, .outreachTasks]

/-- No table refers to itself. -/
theorem CoreTable.notMem_referrers (t : CoreTable) : t ∉ t.referrers := by
  cases t <;> decide

/-- A database at the last revision. -/
abbrev Database : Type := Content SourcedEventRow CorrelatedTaskRow

/-- Every foreign key refers to a stored row. -/
def Consistent (db : Database) : Prop := ForeignKeys (withoutSource (withoutCorrelation db))

/-- A foreign key: the values of a column, where there are any, are ids of another table. -/
def Refers {ρ σ : Type} (column : ρ → Option Nat) (id : σ → Nat) (rows : List ρ)
    (parents : List σ) : Prop :=
  ∀ r ∈ rows, ∀ k ∈ column r, k ∈ parents.map id

/-- Foreign keys can be checked. -/
instance {ρ σ : Type} (column : ρ → Option Nat) (id : σ → Nat) (rows : List ρ)
    (parents : List σ) : Decidable (Refers column id rows parents) :=
  inferInstanceAs (Decidable (∀ r ∈ rows, ∀ k ∈ column r, k ∈ parents.map id))

/-- The seven foreign keys. -/
theorem foreignKeys_iff (db : Content InboundEventRow OutreachTaskRow) : ForeignKeys db ↔
    Refers (fun a => some a.customerId) CustomerRow.id db.accounts db.customers ∧
    Refers (fun d => some d.accountId) AccountRow.id db.policyDecisions db.accounts ∧
    Refers (fun d => some d.customerId) CustomerRow.id db.policyDecisions db.customers ∧
    Refers PolicyDecisionRow.inboundEventId InboundEventRow.id db.policyDecisions
      db.inboundEvents ∧
    Refers (fun t => some t.accountId) AccountRow.id db.outreachTasks db.accounts ∧
    Refers (fun t => some t.customerId) CustomerRow.id db.outreachTasks db.customers ∧
    Refers OutreachTaskRow.policyDecisionId PolicyDecisionRow.id db.outreachTasks
      db.policyDecisions := by
  simp only [Refers, Option.mem_def, Option.some.injEq, forall_eq']
  exact ⟨fun h => ⟨h.1, h.2, h.3, h.4, h.5, h.6, h.7⟩,
    fun ⟨h₁, h₂, h₃, h₄, h₅, h₆, h₇⟩ => ⟨h₁, h₂, h₃, h₄, h₅, h₆, h₇⟩⟩

/-- The consistency of a database can be checked. -/
instance (db : Database) : Decidable (Consistent db) :=
  decidable_of_iff _ (foreignKeys_iff _).symm

/-- A database without the rows of a table. -/
def clear (db : Database) : CoreTable → Database
  | .auditEvents => { db with auditEvents := [] }
  | .outreachTasks => { db with outreachTasks := [] }
  | .policyDecisions => { db with policyDecisions := [] }
  | .inboundEvents => { db with inboundEvents := [] }
  | .accounts => { db with accounts := [] }
  | .customers => { db with customers := [] }

/-- A database without rows. -/
def emptyDatabase : Database := ⟨[], [], [], [], [], []⟩

/-- What the database raises for a deletion. -/
inductive DeleteFailure where
  | foreignKeyViolation
  deriving DecidableEq, Repr

/-- `DELETE FROM table`: the foreign keys are checked when the statement ends. -/
def delete (db : Database) (table : CoreTable) : Except DeleteFailure Database :=
  if Consistent (clear db table) then .ok (clear db table) else .error .foreignKeyViolation

/-- `RESET_MODELS`, `scripts/seed_demo.py:35–42`. -/
def resetModels : List CoreTable :=
  [.auditEvents, .outreachTasks, .policyDecisions, .inboundEvents, .accounts, .customers]

/-- Deletions in one transaction, which commits when all of them go through. -/
def deleteAll (order : List CoreTable) (db : Database) : Except DeleteFailure Database :=
  order.foldlM delete db

/-- `reset_database`, `scripts/seed_demo.py:254–261`. -/
def resetDatabase (db : Database) : Except DeleteFailure Database := deleteAll resetModels db

section

variable {db : Database} {done : List CoreTable}

/-- A database without the rows of several tables. -/
def clearAll (db : Database) (done : List CoreTable) : Database :=
  done.foldr (fun table db => clear db table) db

/-- The tables that were cleared are empty, and the others are as before. -/
theorem clearAll_eq (db : Database) (done : List CoreTable) : clearAll db done =
    { auditEvents := if .auditEvents ∈ done then [] else db.auditEvents
      customers := if .customers ∈ done then [] else db.customers
      inboundEvents := if .inboundEvents ∈ done then [] else db.inboundEvents
      accounts := if .accounts ∈ done then [] else db.accounts
      policyDecisions := if .policyDecisions ∈ done then [] else db.policyDecisions
      outreachTasks := if .outreachTasks ∈ done then [] else db.outreachTasks } := by
  induction done with
  | nil => simp [clearAll]
  | cons table done ih =>
    show clear (clearAll db done) table = _
    rw [ih]
    cases table <;> simp [clear]

/-- The columns of the first revision that are left. -/
private theorem remaining_clearAll (db : Database) (done : List CoreTable) :
    withoutSource (withoutCorrelation (clearAll db done)) =
      { auditEvents := if .auditEvents ∈ done then [] else db.auditEvents
        customers := if .customers ∈ done then [] else db.customers
        inboundEvents := if .inboundEvents ∈ done then [] else
          db.inboundEvents.map SourcedEventRow.toInboundEventRow
        accounts := if .accounts ∈ done then [] else db.accounts
        policyDecisions := if .policyDecisions ∈ done then [] else db.policyDecisions
        outreachTasks := if .outreachTasks ∈ done then [] else
          db.outreachTasks.map CorrelatedTaskRow.toOutreachTaskRow } := by
  rw [clearAll_eq]
  simp only [withoutSource, withoutCorrelation, Content.withEvents, Content.withTasks,
    apply_ite (List.map _), List.map_nil]

section

variable {ρ σ : Type} {column : ρ → Option Nat} {id : σ → Nat} {rows : List ρ}
  {parents : List σ} {p q : Prop} [Decidable p] [Decidable q]

/-- References are kept when the parents go only together with the rows that refer to them. -/
private theorem refers_of_imp (h : Refers column id rows parents) (hqp : q → p) :
    Refers column id (if p then [] else rows) (if q then [] else parents) := by
  intro r hr
  split at hr
  · cases hr
  · next hp =>
    rw [if_neg fun hq => hp (hqp hq)]
    exact h r hr

/-- Where a row has a parent, the parents go only together with the rows. -/
private theorem imp_of_refers (hr : ∃ r ∈ rows, column r ≠ none)
    (h : Refers column id (if p then [] else rows) (if q then [] else parents)) : q → p := by
  obtain ⟨r, hr, hcolumn⟩ := hr
  obtain ⟨k, hk⟩ := Option.ne_none_iff_exists'.mp hcolumn
  intro hq
  by_contra hp
  rw [if_neg hp, if_pos hq] at h
  cases h r hr k hk

end

/-- Tables cleared together with their referrers leave a consistent database. -/
theorem consistent_clearAll (hd : Closed CoreTable.referrers done) (h : Consistent db) :
    Consistent (clearAll db done) := by
  obtain ⟨h₁, h₂, h₃, h₄, h₅, h₆, h₇⟩ := (foreignKeys_iff _).mp h
  unfold Consistent
  rw [remaining_clearAll, foreignKeys_iff]
  refine ⟨refers_of_imp h₁ ?_, refers_of_imp h₂ ?_, refers_of_imp h₃ ?_, refers_of_imp h₄ ?_,
    refers_of_imp h₅ ?_, refers_of_imp h₆ ?_, refers_of_imp h₇ ?_⟩
  all_goals exact fun hparent => hd _ hparent _ (by decide)

/-- A database in which every foreign key is used. -/
def demoDatabase : Database := demoSourced.withTasks [⟨demoTaskRow, 7⟩]

/-- The sample database stays consistent only when tables go together with their referrers. -/
theorem closed_of_consistent (h : Consistent (clearAll demoDatabase done)) :
    Closed CoreTable.referrers done := by
  unfold Consistent at h
  rw [remaining_clearAll, foreignKeys_iff] at h
  obtain ⟨h₁, h₂, h₃, h₄, h₅, h₆, h₇⟩ := h
  have accounts_of_customers := imp_of_refers (by decide) h₁
  have decisions_of_accounts := imp_of_refers (by decide) h₂
  have decisions_of_customers := imp_of_refers (by decide) h₃
  have decisions_of_events := imp_of_refers (by decide) h₄
  have tasks_of_accounts := imp_of_refers (by decide) h₅
  have tasks_of_customers := imp_of_refers (by decide) h₆
  have tasks_of_decisions := imp_of_refers (by decide) h₇
  intro t ht u hu
  cases t <;> simp only [CoreTable.referrers, List.mem_cons, List.not_mem_nil, or_false] at hu
  all_goals grind

/-- A deletion that finds the tables of the referrers empty goes through. -/
private theorem delete_clearAll (h : Consistent db) (table : CoreTable)
    (hd : Closed CoreTable.referrers (table :: done)) :
    delete (clearAll db done) table = .ok (clearAll db (table :: done)) :=
  if_pos (consistent_clearAll hd h)

/-- An order that deletes referrers first empties its tables in every consistent database. -/
theorem deleteAll_eq {order : List CoreTable} (h : Consistent db)
    (horder : Respects CoreTable.referrers [] order) :
    deleteAll order db = .ok (clearAll db order.reverse) := by
  have hrun := foldlM_of_respects (clearAll db)
    (fun done table => delete_clearAll h table) closed_nil horder
  rwa [List.append_nil] at hrun

/-- `reset_database` empties every consistent database. -/
theorem resetDatabase_eq (h : Consistent db) : resetDatabase db = .ok emptyDatabase :=
  deleteAll_eq h (by decide)

/-- An order that deletes the sample database deletes referrers first. -/
private theorem respects_of_deleteAll {order : List CoreTable} {db' : Database}
    (h : deleteAll order demoDatabase = .ok db') : Respects CoreTable.referrers [] order := by
  refine respects_of_foldlM (clearAll demoDatabase) ?_ h
  intro done table s hs
  unfold delete at hs
  split at hs
  · next hconsistent =>
    refine ⟨(Except.ok.inj hs).symm, fun u hu => ?_⟩
    have hclosed : Closed CoreTable.referrers (table :: done) := closed_of_consistent hconsistent
    rcases List.mem_cons.mp (hclosed table List.mem_cons_self u hu) with rfl | hmem
    · exact absurd hu (CoreTable.notMem_referrers u)
    · exact hmem
  · cases hs

end

/-- The orders in which tables can be emptied are those that empty every table after the tables
that refer to it; the reset's order is one, so that it empties every reachable database. -/
theorem reset_iff (order : List CoreTable) :
    ((∀ db, Consistent db → ∃ db', deleteAll order db = .ok db') ↔
      ∀ earlier table later, order = earlier ++ table :: later →
        ∀ referrer ∈ table.referrers, referrer ∈ earlier) ∧
    ∀ (rt : Runtime) (columns : Columns) (clock : Int) (ops : List System.Op),
      resetDatabase (encode columns (run (System.step rt) (System.start clock) ops).store) =
        .ok emptyDatabase := by
  have hrespects : Respects CoreTable.referrers [] order ↔
      ∀ earlier table later, order = earlier ++ table :: later →
        ∀ referrer ∈ table.referrers, referrer ∈ earlier := by
    simp [respects_iff]
  constructor
  · rw [← hrespects]
    constructor
    · intro h
      obtain ⟨db', hdb'⟩ := h demoDatabase (by decide)
      exact respects_of_deleteAll hdb'
    · exact fun horder db h => ⟨_, deleteAll_eq h horder⟩
  · exact fun rt columns clock ops =>
      resetDatabase_eq (System.encode_foreignKeys columns (System.run_sourced rt clock ops))

end Orchestrator.Scripts
