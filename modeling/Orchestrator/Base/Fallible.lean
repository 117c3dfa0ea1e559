import Mathlib.Data.List.Basic

/-!
# Fallible computations

Inversion of `Except` sequencing and the invariant rule of a fallible left fold. A
successful computation is peeled apart from its result, one bind at a time. Two
computations on related inputs are compared in the same way.
-/

namespace Orchestrator.Base

universe u v w

variable {ε : Type u} {α : Type v} {β : Type v} {γ : Type w}

/-- A missing value raises `e`. -/
def orThrow (e : ε) : Option α → Except ε α
  | some a => .ok a
  | none => .error e

/-- Only a present value does not raise. -/
theorem orThrow_eq_ok {e : ε} {o : Option α} {a : α} : orThrow e o = .ok a ↔ o = some a := by
  cases o <;> simp [orThrow]

/-- A successful sequence ran its first part successfully. -/
theorem bind_eq_ok {x : Except ε α} {f : α → Except ε β} {b : β} :
    (x >>= f) = .ok b ↔ ∃ a, x = .ok a ∧ f a = .ok b := by
  cases x with
  | error e => simp [bind, Except.bind]
  | ok a => simp [bind, Except.bind]

/-- What every successful iteration preserves holds after a successful loop. -/
theorem foldlM_invariant {f : β → γ → Except ε β} {P : β → Prop} (xs : List γ)
    (hstep : ∀ b x b', x ∈ xs → P b → f b x = .ok b' → P b') {b b' : β} (h0 : P b)
    (h : xs.foldlM f b = .ok b') : P b' := by
  induction xs generalizing b with
  | nil =>
    cases h
    exact h0
  | cons x xs ih =>
    rw [List.foldlM_cons, bind_eq_ok] at h
    obtain ⟨c, hc, h⟩ := h
    have hP : P c := hstep b x c List.mem_cons_self h0 hc
    exact ih (fun b y b' hy => hstep b y b' (List.mem_cons_of_mem x hy)) hP h

/-- A loop seen through a function of its accumulator. -/
theorem foldlM_map {δ : Type v} {f : β → γ → Except ε β} {g : δ → γ → Except ε δ} {h : β → δ}
    (hstep : ∀ b c, g (h b) c = (f b c).map h) (cs : List γ) (b : β) :
    cs.foldlM g (h b) = (cs.foldlM f b).map h := by
  induction cs generalizing b with
  | nil => rfl
  | cons c cs ih =>
    rw [List.foldlM_cons, List.foldlM_cons, hstep]
    cases f b c with
    | error e => rfl
    | ok b' => exact ih b'

/-! ### Exceptions that a computation can raise -/

/-- Every exception that the computation raises meets `P`. -/
def Raises (P : ε → Prop) (x : Except ε α) : Prop := ∀ e, x = .error e → P e

namespace Raises

variable {P : ε → Prop}

/-- A value raises nothing. -/
theorem ok (a : α) : Raises P (.ok a : Except ε α) := by rintro e ⟨⟩

/-- A raised exception. -/
theorem error {e : ε} (h : P e) : Raises P (.error e : Except ε α) := by
  rintro _ ⟨⟩
  exact h

/-- A weaker condition on the exceptions. -/
theorem mono {Q : ε → Prop} {x : Except ε α} (hx : Raises P x) (h : ∀ e, P e → Q e) :
    Raises Q x := fun e he => h e (hx e he)

/-- A missing value raises its own exception. -/
theorem orThrow {e : ε} (h : P e) (o : Option α) : Raises P (Base.orThrow e o) := by
  cases o with
  | none => exact error h
  | some a => exact ok a

/-- A sequence raises what its parts raise. -/
theorem bind {x : Except ε α} {f : α → Except ε β} (hx : Raises P x)
    (hf : ∀ a, x = .ok a → Raises P (f a)) : Raises P (x >>= f) := by
  cases x with
  | error e => exact error (hx e rfl)
  | ok a => exact hf a rfl

/-- Mapping the value raises nothing more. -/
theorem map {x : Except ε α} {f : α → β} (hx : Raises P x) : Raises P (x.map f) := by
  cases x with
  | error e => exact error (hx e rfl)
  | ok a => exact ok (f a)

end Raises

/-! ### Computations that return -/

/-- The computation raises nothing. -/
def Returns (x : Except ε α) : Prop := ∃ a, x = .ok a

/-- A value is returned. -/
@[simp] theorem returns_ok (a : α) : Returns (.ok a : Except ε α) := ⟨a, rfl⟩

/-- An exception is not. -/
@[simp] theorem not_returns_error (e : ε) : ¬Returns (.error e : Except ε α) := by
  rintro ⟨_, ⟨⟩⟩

/-- A value is present or its absence raises. -/
@[simp] theorem returns_orThrow {e : ε} {o : Option α} :
    Returns (orThrow e o) ↔ o.isSome = true := by
  cases o <;> simp [orThrow]

/-- A sequence returns when its parts do. -/
theorem returns_bind {x : Except ε α} {f : α → Except ε β} :
    Returns (x >>= f) ↔ ∃ a, x = .ok a ∧ Returns (f a) := by
  simp only [Returns, bind_eq_ok]
  exact ⟨fun ⟨b, a, h⟩ => ⟨a, h.1, b, h.2⟩, fun ⟨a, hx, b, h⟩ => ⟨b, a, hx, h⟩⟩

/-- Mapping the value changes nothing. -/
@[simp] theorem returns_map {x : Except ε α} {f : α → β} : Returns (x.map f) ↔ Returns x := by
  cases x with
  | error e =>
    have hmap : (Except.error e : Except ε α).map f = .error e := rfl
    simp [hmap]
  | ok a =>
    have hmap : (Except.ok a : Except ε α).map f = .ok (f a) := rfl
    simp [hmap]

/-! ### Computations that agree -/

/-- Two computations that raise the same exception or return related values. -/
inductive Agrees (R : α → β → Prop) : Except ε α → Except ε β → Prop where
  | ok {a : α} {b : β} (h : R a b) : Agrees R (.ok a) (.ok b)
  | error (e : ε) : Agrees R (.error e) (.error e)

namespace Agrees

variable {R : α → β → Prop}

/-- A computation agrees with itself. -/
theorem refl (x : Except ε α) : Agrees Eq x x := by
  cases x with
  | error e => exact .error e
  | ok a => exact .ok rfl

/-- Sequences agree when their parts do. -/
theorem bind {α' β' : Type v} {S : α' → β' → Prop} {x : Except ε α} {y : Except ε β}
    {f : α → Except ε α'} {g : β → Except ε β'} (h : Agrees R x y)
    (hf : ∀ a b, R a b → Agrees S (f a) (g b)) : Agrees S (x >>= f) (y >>= g) := by
  cases h with
  | ok h => exact hf _ _ h
  | error e => exact .error e

/-- Sequences with the same first part agree when the rest does. -/
theorem bind_same {α' β' : Type v} {S : α' → β' → Prop} {x : Except ε α}
    {f : α → Except ε α'} {g : α → Except ε β'} (hf : ∀ a, x = .ok a → Agrees S (f a) (g a)) :
    Agrees S (x >>= f) (x >>= g) := by
  cases x with
  | error e => exact .error e
  | ok a => exact hf a rfl

/-- Loops over related lists agree when their iterations do. -/
theorem foldlM {Q : γ → γ → Prop} {f : α → γ → Except ε α} {g : β → γ → Except ε β}
    (hstep : ∀ a b c d, R a b → Q c d → Agrees R (f a c) (g b d)) {cs ds : List γ}
    (hcs : List.Forall₂ Q cs ds) {a : α} {b : β} (h : R a b) :
    Agrees R (cs.foldlM f a) (ds.foldlM g b) := by
  induction hcs generalizing a b with
  | nil => exact .ok h
  | cons hcd _ ih =>
    rw [List.foldlM_cons, List.foldlM_cons]
    exact (hstep _ _ _ _ h hcd).bind fun _ _ hab => ih hab

end Agrees

end Orchestrator.Base
