import Mathlib.Data.List.Nodup
import Orchestrator.Base.Fallible

/-!
# Schema changes on populated tables

The statements of a migration as functions of the rows that are stored. Dropping a column
or a constraint always succeeds; adding a column, filling one and creating a unique
constraint succeed for some contents and fail for others, and the laws say for which.
-/

namespace Orchestrator.Base.Ddl

universe u

variable {ρ σ β κ : Type u}

/-- Why the database rejects a statement. -/
inductive DdlFailure where
  | notNullViolation
  | uniqueViolation
  | stringTooLong
  | untranslatableCharacter
  deriving DecidableEq, Repr

/-- Add a column that may not be null. Stored rows take the default; without one there may be
no stored rows. -/
def addColumn (row : ρ → β → σ) (default : Option β) (rows : List ρ) :
    Except DdlFailure (List σ) :=
  match default, rows with
  | some value, rows => .ok (rows.map fun r => row r value)
  | none, [] => .ok []
  | none, _ :: _ => .error .notNullViolation

/-- Write every row of a table; the first row that cannot be written fails the statement. -/
def updateAll (write : ρ → Except DdlFailure ρ) (rows : List ρ) : Except DdlFailure (List ρ) :=
  rows.mapM write

/-- Create a unique constraint over the columns `key`. -/
def createUniqueConstraint [DecidableEq κ] (key : ρ → κ) (rows : List ρ) :
    Except DdlFailure PUnit :=
  if (rows.map key).Nodup then .ok ⟨⟩ else .error .uniqueViolation

/-- A column with a default is added to any table. -/
@[simp] theorem addColumn_default (row : ρ → β → σ) (value : β) (rows : List ρ) :
    addColumn row (some value) rows = .ok (rows.map fun r => row r value) := by
  cases rows <;> rfl

/-- A column without a default is added to the empty table only. -/
theorem addColumn_none_eq_ok {row : ρ → β → σ} {rows : List ρ} {rows' : List σ} :
    addColumn row none rows = .ok rows' ↔ rows = [] ∧ rows' = [] := by
  cases rows with
  | nil => simp [addColumn, eq_comm]
  | cons r rows => simp [addColumn]

/-- A unique constraint is created exactly over distinct values. -/
theorem createUniqueConstraint_eq_ok [DecidableEq κ] {key : ρ → κ} {rows : List ρ} :
    createUniqueConstraint key rows = .ok ⟨⟩ ↔ (rows.map key).Nodup := by
  unfold createUniqueConstraint
  split
  · next h => exact ⟨fun _ => h, fun _ => rfl⟩
  · next h => exact ⟨fun he => (by cases he), fun hn => absurd hn h⟩

/-- An update succeeds when it writes every row, and leaves what it wrote. -/
theorem updateAll_eq_ok {write : ρ → Except DdlFailure ρ} {rows rows' : List ρ} :
    updateAll write rows = .ok rows' ↔ List.Forall₂ (fun r r' => write r = .ok r') rows rows' := by
  unfold updateAll
  induction rows generalizing rows' with
  | nil =>
    rw [List.mapM_nil, List.forall₂_nil_left_iff]
    exact ⟨fun h => (Except.ok.inj h).symm, fun h => by rw [h]; rfl⟩
  | cons r rows ih =>
    rw [List.mapM_cons, bind_eq_ok, List.forall₂_cons_left_iff]
    constructor
    · rintro ⟨r', hr', h⟩
      obtain ⟨rest, hrest, h⟩ := bind_eq_ok.mp h
      cases h
      exact ⟨r', rest, hr', ih.mp hrest, rfl⟩
    · rintro ⟨r', rest, hr', hrest, rfl⟩
      exact ⟨r', hr', bind_eq_ok.mpr ⟨rest, ih.mpr hrest, rfl⟩⟩

/-- An update succeeds exactly when it can write every row. -/
theorem updateAll_returns {write : ρ → Except DdlFailure ρ} {rows : List ρ} :
    Returns (updateAll write rows) ↔ ∀ r ∈ rows, Returns (write r) := by
  unfold updateAll
  induction rows with
  | nil => exact ⟨fun _ _ hr => (by cases hr), fun _ => ⟨[], rfl⟩⟩
  | cons r rows ih =>
    rw [List.mapM_cons, returns_bind, List.forall_mem_cons, ← ih]
    constructor
    · rintro ⟨r', hr', h⟩
      obtain ⟨rest, hrest, -⟩ := returns_bind.mp h
      exact ⟨⟨r', hr'⟩, ⟨rest, hrest⟩⟩
    · rintro ⟨⟨r', hr'⟩, ⟨rest, hrest⟩⟩
      exact ⟨r', hr', returns_bind.mpr ⟨rest, hrest, ⟨_, rfl⟩⟩⟩

end Orchestrator.Base.Ddl
