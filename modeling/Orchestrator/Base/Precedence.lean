import Orchestrator.Base.Fallible

/-!
# Steps that need earlier steps

Orders of steps in which some need others to be done before them, and loops whose steps go
through exactly when their needs are met. `needs t` lists what the step `t` needs.
-/

namespace Orchestrator.Base.Precedence

universe u v

variable {T : Type u} {S E : Type v} {needs : T → List T} {done order : List T}

/-- What is done includes what it needs. -/
def Closed (needs : T → List T) (done : List T) : Prop :=
  ∀ t ∈ done, ∀ u ∈ needs t, u ∈ done

/-- Every step of an order comes after the steps that it needs, `done` being done before. -/
def Respects (needs : T → List T) (done : List T) : List T → Prop
  | [] => True
  | t :: order => (∀ u ∈ needs t, u ∈ done) ∧ Respects needs (t :: done) order

/-- Orders are checked from left to right. -/
instance decidableRespects [DecidableEq T] (needs : T → List T) :
    (done order : List T) → Decidable (Respects needs done order)
  | _, [] => isTrue trivial
  | done, t :: order =>
    haveI := decidableRespects needs (t :: done) order
    inferInstanceAs (Decidable ((∀ u ∈ needs t, u ∈ done) ∧ Respects needs (t :: done) order))

/-- Nothing is done. -/
theorem closed_nil : Closed needs [] := by
  simp [Closed]

/-- A step whose needs are met is done. -/
theorem Closed.cons {t : T} (hd : Closed needs done) (h : ∀ u ∈ needs t, u ∈ done) :
    Closed needs (t :: done) := by
  intro t' ht' u hu
  rcases List.mem_cons.mp ht' with rfl | ht'
  · exact List.mem_cons_of_mem _ (h u hu)
  · exact List.mem_cons_of_mem _ (hd t' ht' u hu)

/-- An order respects the needs when those of every step come earlier. -/
theorem respects_iff : Respects needs done order ↔
    ∀ earlier t later, order = earlier ++ t :: later →
      ∀ u ∈ needs t, u ∈ done ∨ u ∈ earlier := by
  induction order generalizing done with
  | nil => simp [Respects]
  | cons t order ih =>
    rw [Respects, ih]
    constructor
    · rintro ⟨hhead, htail⟩ earlier t' later he u hu
      cases earlier with
      | nil =>
        obtain ⟨rfl, -⟩ := List.cons.inj he
        exact Or.inl (hhead u hu)
      | cons t₁ earlier =>
        obtain ⟨rfl, hrest⟩ := List.cons.inj he
        rcases htail earlier t' later hrest u hu with h | h
        · rcases List.mem_cons.mp h with rfl | h
          · exact Or.inr List.mem_cons_self
          · exact Or.inl h
        · exact Or.inr (List.mem_cons_of_mem _ h)
    · intro h
      constructor
      · intro u hu
        rcases h [] t order rfl u hu with hu | hu
        · exact hu
        · cases hu
      · intro earlier t' later he u hu
        rcases h (t :: earlier) t' later (congrArg (t :: ·) he) u hu with hu | hu
        · exact Or.inl (List.mem_cons_of_mem t hu)
        · rcases List.mem_cons.mp hu with rfl | hu
          · exact Or.inl List.mem_cons_self
          · exact Or.inr hu

section

variable {step : S → T → Except E S} (state : List T → S)

/-- Steps that go through when their needs are met go through in an order that respects them. -/
theorem foldlM_of_respects
    (hstep : ∀ done t, Closed needs (t :: done) → step (state done) t = .ok (state (t :: done)))
    (hd : Closed needs done) (h : Respects needs done order) :
    order.foldlM step (state done) = .ok (state (order.reverse ++ done)) := by
  induction order generalizing done with
  | nil => rfl
  | cons t order ih =>
    have hclosed := hd.cons h.1
    rw [List.foldlM_cons, hstep done t hclosed, List.reverse_cons, List.append_assoc]
    exact ih hclosed h.2

/-- An order in which steps that need others to be done go through respects their needs. -/
theorem respects_of_foldlM
    (hstep : ∀ done t s, step (state done) t = .ok s →
      s = state (t :: done) ∧ ∀ u ∈ needs t, u ∈ done)
    {s : S} (h : order.foldlM step (state done) = .ok s) : Respects needs done order := by
  induction order generalizing done with
  | nil => trivial
  | cons t order ih =>
    rw [List.foldlM_cons, bind_eq_ok] at h
    obtain ⟨s', hs', h⟩ := h
    obtain ⟨rfl, hneeds⟩ := hstep done t s' hs'
    exact ⟨hneeds, ih h⟩

end

end Orchestrator.Base.Precedence
