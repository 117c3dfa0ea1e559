import Mathlib.Data.List.Basic

/-!
# Runs of a step function

A system is a total step function: an action that is not enabled leaves the state
unchanged. A run executes a list of actions from left to right, so a statement about
every list of actions is a statement about every interleaving of them. Invariants,
conditioned invariants and reflexive transitive relations are lifted from one step
to a whole run here, once, and so is what a run produces along the way.
-/

namespace Orchestrator.Base

universe u v w

variable {σ : Type u} {α : Type v} {β : Type w}

/-- Execute the actions from left to right. -/
def run (step : σ → α → σ) (s : σ) (as : List α) : σ := as.foldl step s

/-- Every action of the run meets `G` in the state in which it is taken. -/
def Guarded (step : σ → α → σ) (G : σ → α → Prop) : σ → List α → Prop
  | _, [] => True
  | s, a :: as => G s a ∧ Guarded step G (step s a) as

/-- What the actions of a run produce, in order. -/
def collect (step : σ → α → σ) (f : σ → α → List β) : σ → List α → List β
  | _, [] => []
  | s, a :: as => f s a ++ collect step f (step s a) as

/-- The sum of what the actions of a run count. -/
def total (step : σ → α → σ) (f : σ → α → Nat) : σ → List α → Nat
  | _, [] => 0
  | s, a :: as => f s a + total step f (step s a) as

section

variable {step : σ → α → σ} {I : σ → Prop} {G : σ → α → Prop} {R : σ → σ → Prop}

/-- The empty run stays where it is. -/
@[simp] theorem run_nil (s : σ) : run step s [] = s := rfl

/-- A run takes its first action first. -/
@[simp] theorem run_cons (s : σ) (a : α) (as : List α) :
    run step s (a :: as) = run step (step s a) as := rfl

/-- Runs compose. -/
theorem run_append (s : σ) (as bs : List α) :
    run step s (as ++ bs) = run step (run step s as) bs := List.foldl_append

/-- A run takes its last action last. -/
theorem run_concat (s : σ) (as : List α) (a : α) :
    run step s (as ++ [a]) = step (run step s as) a := by
  rw [run_append, run_cons, run_nil]

/-- What every step preserves holds throughout every run. -/
theorem run_invariant (hstep : ∀ s a, I s → I (step s a)) (s : σ) (h : I s)
    (as : List α) : I (run step s as) := by
  induction as generalizing s with
  | nil => exact h
  | cons a as ih => exact ih (step s a) (hstep s a h)

/-- A reflexive transitive relation that every step satisfies relates the ends of
every run, as long as it is kept under an invariant. -/
theorem run_relation (hI : ∀ s a, I s → I (step s a)) (hrefl : ∀ s, R s s)
    (htrans : ∀ s t u, R s t → R t u → R s u) (hstep : ∀ s a, I s → R s (step s a))
    (s : σ) (h : I s) (as : List α) : R s (run step s as) := by
  induction as generalizing s with
  | nil => exact hrefl s
  | cons a as ih =>
    exact htrans _ _ _ (hstep s a h) (ih (step s a) (hI s a h))

/-- A system whose every action is a run of another one's actions has only that one's runs. -/
theorem run_refines {γ : Type w} {other : σ → γ → σ}
    (hstep : ∀ s c, ∃ as : List α, other s c = run step s as) (s : σ) (cs : List γ) :
    ∃ as : List α, run other s cs = run step s as := by
  induction cs generalizing s with
  | nil => exact ⟨[], rfl⟩
  | cons c cs ih =>
    obtain ⟨as, has⟩ := hstep s c
    obtain ⟨bs, hbs⟩ := ih (other s c)
    exact ⟨as ++ bs, by rw [run_append, run_cons, hbs, has]⟩

/-- Guarded runs split at every point. -/
theorem guarded_append (s : σ) (as bs : List α) :
    Guarded step G s (as ++ bs) ↔
      Guarded step G s as ∧ Guarded step G (run step s as) bs := by
  induction as generalizing s with
  | nil => simp [Guarded]
  | cons a as ih => simp [Guarded, ih, and_assoc]

/-- What every guarded step preserves holds throughout every guarded run. -/
theorem guarded_invariant (hstep : ∀ s a, I s → G s a → I (step s a)) (s : σ)
    (h : I s) (as : List α) (hg : Guarded step G s as) : I (run step s as) := by
  induction as generalizing s with
  | nil => exact h
  | cons a as ih => exact ih (step s a) (hstep s a h hg.1) hg.2

/-- What every step preserves of the state and the products so far. -/
theorem collect_invariant {f : σ → α → List β} {P : σ → List β → Prop}
    (hstep : ∀ s l a, P s l → P (step s a) (l ++ f s a)) (s : σ) (l : List β) (h : P s l)
    (as : List α) : P (run step s as) (l ++ collect step f s as) := by
  induction as generalizing s l with
  | nil =>
    rw [collect, List.append_nil]
    exact h
  | cons a as ih =>
    rw [collect, ← List.append_assoc]
    exact ih (step s a) (l ++ f s a) (hstep s l a h)

/-- A count that every guarded step matches by its products is matched by a guarded run. -/
theorem total_eq_length_collect {f : σ → α → Nat} {g : σ → α → List β}
    (hI : ∀ s a, I s → G s a → I (step s a)) (hfg : ∀ s a, I s → G s a → f s a = (g s a).length)
    (s : σ) (h : I s) (as : List α) (hg : Guarded step G s as) :
    total step f s as = (collect step g s as).length := by
  induction as generalizing s with
  | nil => rfl
  | cons a as ih =>
    rw [total, collect, List.length_append, hfg s a h hg.1, ih _ (hI s a h hg.1) hg.2]

/-- A product that is barred is not produced. -/
private theorem not_mem_collect {f : σ → α → List β} {B : σ → β → Prop}
    (hI : ∀ s a, I s → G s a → I (step s a))
    (hkeep : ∀ s a b, I s → G s a → B s b → B (step s a) b)
    (hbar : ∀ s a b, I s → G s a → B s b → b ∉ f s a) (s : σ) (h : I s) (as : List α)
    (hg : Guarded step G s as) {b : β} (hb : B s b) : b ∉ collect step f s as := by
  induction as generalizing s with
  | nil => exact List.not_mem_nil
  | cons a as ih =>
    rw [collect, List.mem_append, not_or]
    exact ⟨hbar s a b h hg.1 hb, ih _ (hI s a h hg.1) hg.2 (hkeep s a b h hg.1 hb)⟩

/-- Products that bar themselves for good are produced once. -/
theorem collect_nodup {f : σ → α → List β} (B : σ → β → Prop)
    (hI : ∀ s a, I s → G s a → I (step s a))
    (hkeep : ∀ s a b, I s → G s a → B s b → B (step s a) b)
    (hbar : ∀ s a b, I s → G s a → B s b → b ∉ f s a)
    (honce : ∀ s a, I s → G s a → (f s a).Nodup ∧ ∀ b ∈ f s a, B (step s a) b) (s : σ) (h : I s)
    (as : List α) (hg : Guarded step G s as) : (collect step f s as).Nodup := by
  induction as generalizing s with
  | nil => exact List.nodup_nil
  | cons a as ih =>
    obtain ⟨hnodup, hbarred⟩ := honce s a h hg.1
    have hI' := hI s a h hg.1
    refine List.nodup_append.mpr ⟨hnodup, ih _ hI' hg.2, ?_⟩
    rintro b hb _ hb' rfl
    exact not_mem_collect hI hkeep hbar _ hI' as hg.2 (hbarred b hb) hb'

end

end Orchestrator.Base
