import Mathlib.Algebra.GroupWithZero.Nat
import Mathlib.Data.List.Nodup

/-!
# Labelled runs and ranks

A run of a step relation with the label of every step, and the rule that bounds how long
a state can be put off: when every step that does not reach the goal lowers a rank by at
least `c`, a run of rank over `c` steps has reached it. Ranks are sums over the rows of a
table, so the change of such a sum is computed here too.
-/

namespace Orchestrator.Base

universe u v

variable {σ : Type u} {α : Type v}

/-- The runs of a step relation. -/
inductive Steps (R : σ → α → σ → Prop) : σ → List α → σ → Prop where
  | nil (s : σ) : Steps R s [] s
  | cons {s t u : σ} {a : α} {as : List α} (head : R s a t) (tail : Steps R t as u) :
      Steps R s (a :: as) u

namespace Steps

variable {R : σ → α → σ → Prop} {s t : σ} {as bs : List α}

/-- Runs split at every point. -/
theorem split (h : Steps R s (as ++ bs) t) : ∃ m, Steps R s as m ∧ Steps R m bs t := by
  induction as generalizing s with
  | nil => exact ⟨s, .nil s, h⟩
  | cons a as ih =>
    cases h with
    | cons head tail =>
      obtain ⟨m, hfirst, hrest⟩ := ih tail
      exact ⟨m, .cons head hfirst, hrest⟩

/-- What every step with a label of the run keeps holds at its end. -/
theorem invariant {I : σ → Prop} (h : Steps R s as t)
    (hstep : ∀ a ∈ as, ∀ s t, R s a t → I s → I t) (hs : I s) : I t := by
  induction h with
  | nil => exact hs
  | @cons s m t a as head tail ih =>
    exact ih (fun b hb => hstep b (List.mem_cons_of_mem a hb))
      (hstep a List.mem_cons_self _ _ head hs)

/-- A run reaches a goal that it cannot leave, once it is as long as the rank requires: the
labels of `G` lower the rank by `c` as long as the goal is not reached. -/
theorem reaches {I goal : σ → Prop} {G : α → Prop} {μ : σ → Nat} {c : Nat}
    (hkeep : ∀ s a t, R s a t → goal s → goal t)
    (hstep : ∀ s a t, R s a t → G a → I s → goal t ∨ I t ∧ μ t + c ≤ μ s)
    (hpos : ∀ s, I s → 0 < μ s) (h : Steps R s as t) (hG : ∀ a ∈ as, G a) (hI : I s)
    (hlength : μ s ≤ c * as.length) : goal t := by
  induction h with
  | nil s =>
    have hrank := hpos s hI
    rw [List.length_nil, Nat.mul_zero] at hlength
    omega
  | @cons s m t a as head tail ih =>
    rcases hstep _ _ _ head (hG a List.mem_cons_self) hI with hgoal | ⟨hI', hrank⟩
    · exact tail.invariant (fun b _ s t => hkeep s b t) hgoal
    · apply ih (fun b hb => hG b (List.mem_cons_of_mem a hb)) hI'
      rw [List.length_cons, Nat.mul_succ] at hlength
      omega

end Steps

/-! ### Sums over the rows of a table -/

variable {ρ : Type u} {f : ρ → Nat} {t t' : List ρ}

/-- A sum after one row is replaced. -/
theorem sum_set {k : Nat} {r : ρ} (h : t[k]? = some r) (r' : ρ) :
    ((t.set k r').map f).sum + f r = (t.map f).sum + f r' := by
  induction t generalizing k with
  | nil => simp at h
  | cons x t ih =>
    cases k with
    | zero =>
      obtain rfl : x = r := by simpa using h
      simp only [List.set_cons_zero, List.map_cons, List.sum_cons]
      omega
    | succ k =>
      have hrest := ih (by simpa using h)
      simp only [List.set_cons_succ, List.map_cons, List.sum_cons]
      omega

/-- A sum falls by one at least for each row of `ks`, when these rows fall and no other row
changes. -/
theorem sum_drop {ks : List Nat} (hks : ks.Nodup)
    (hrows : ∀ k ∈ ks, ∃ r r', t[k]? = some r ∧ t'[k]? = some r' ∧ f r' + 1 ≤ f r)
    (hothers : ∀ k, k ∉ ks → t'[k]? = t[k]?) :
    (t'.map f).sum + ks.length ≤ (t.map f).sum := by
  induction ks generalizing t with
  | nil =>
    have hsame : t' = t := List.ext_getElem? fun k => hothers k List.not_mem_nil
    rw [hsame]
    exact Nat.le_refl _
  | cons k ks ih =>
    obtain ⟨hk, hks⟩ := List.nodup_cons.mp hks
    obtain ⟨r, r', hr, hr', hle⟩ := hrows k List.mem_cons_self
    have hset := sum_set (f := f) hr r'
    have hlt : k < t.length := (List.getElem?_eq_some_iff.mp hr).1
    have hrest := ih (t := t.set k r') hks (fun j hj => ?_) (fun j hj => ?_)
    · rw [List.length_cons]
      omega
    · have hne : k ≠ j := fun he => hk (he ▸ hj)
      rw [List.getElem?_set_ne hne]
      exact hrows j (List.mem_cons_of_mem k hj)
    · by_cases hne : k = j
      · subst hne
        rw [hr', List.getElem?_set_self hlt]
      · rw [List.getElem?_set_ne hne]
        exact hothers j (by simp [Ne.symm hne, hj])

end Orchestrator.Base
