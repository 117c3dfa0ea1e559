import Mathlib.Data.List.Basic

/-!
# Texts with separators

Two texts that are joined by a separator character can be read back up to a separator
that moves between the parts.
-/

namespace Orchestrator.Base

/-- One pair takes the separator and what follows it from the first part of the other pair
to the second. -/
def Regrouped (sep : Char) (x y x' y' : String) : Prop :=
  ∃ middle, x = x' ++ String.singleton sep ++ middle ∧ y' = middle ++ String.singleton sep ++ y

private theorem append_cons_eq {α : Type} {sep : α} {xs ys xs' ys' : List α} :
    xs ++ sep :: ys = xs' ++ sep :: ys' ↔ (xs = xs' ∧ ys = ys') ∨
      (∃ ms, xs = xs' ++ sep :: ms ∧ ys' = ms ++ sep :: ys) ∨
        ∃ ms, xs' = xs ++ sep :: ms ∧ ys = ms ++ sep :: ys' := by
  constructor
  · intro h
    rcases List.append_eq_append_iff.mp h with ⟨as, rfl, hys⟩ | ⟨as, rfl, hys⟩
    · cases as with
      | nil =>
        obtain ⟨-, rfl⟩ := List.cons.inj hys
        exact Or.inl ⟨by simp, rfl⟩
      | cons a as =>
        obtain ⟨rfl, rfl⟩ := List.cons.inj hys
        exact Or.inr (Or.inr ⟨as, rfl, rfl⟩)
    · cases as with
      | nil =>
        obtain ⟨-, rfl⟩ := List.cons.inj hys
        exact Or.inl ⟨by simp, rfl⟩
      | cons a as =>
        obtain ⟨rfl, rfl⟩ := List.cons.inj hys
        exact Or.inr (Or.inl ⟨as, rfl, rfl⟩)
  · rintro (⟨rfl, rfl⟩ | ⟨ms, rfl, rfl⟩ | ⟨ms, rfl, rfl⟩) <;> simp

private theorem toList_join (sep : Char) (x y : String) :
    (x ++ String.singleton sep ++ y).toList = x.toList ++ sep :: y.toList := by
  simp [String.toList_append]

private theorem regrouped_iff {sep : Char} {x y x' y' : String} :
    Regrouped sep x y x' y' ↔
      ∃ ms, x.toList = x'.toList ++ sep :: ms ∧ y'.toList = ms ++ sep :: y.toList := by
  constructor
  · rintro ⟨middle, rfl, rfl⟩
    exact ⟨middle.toList, toList_join sep x' middle, toList_join sep middle y⟩
  · rintro ⟨ms, hx, hy⟩
    refine ⟨String.ofList ms, ?_, ?_⟩ <;>
      rw [← String.toList_inj, toList_join, String.toList_ofList] <;> assumption

/-- Joined texts are equal exactly when their parts are, or regroup one another. -/
theorem join_eq_join {sep : Char} {x y x' y' : String} :
    x ++ String.singleton sep ++ y = x' ++ String.singleton sep ++ y' ↔
      (x = x' ∧ y = y') ∨ Regrouped sep x y x' y' ∨ Regrouped sep x' y' x y := by
  rw [← String.toList_inj, toList_join, toList_join, append_cons_eq, regrouped_iff, regrouped_iff,
    String.toList_inj, String.toList_inj]

/-- The pair that loses the separator from its first part has the longer first part and the
shorter second one. -/
theorem Regrouped.length {sep : Char} {x y x' y' : String} (h : Regrouped sep x y x' y') :
    x'.length < x.length ∧ y.length < y'.length := by
  obtain ⟨ms, hx, hy⟩ := regrouped_iff.mp h
  have hxlen := congrArg List.length hx
  have hylen := congrArg List.length hy
  simp only [String.length_toList, List.length_append, List.length_cons] at hxlen hylen
  omega

/-- Regrouped pairs differ. -/
theorem Regrouped.ne {sep : Char} {x y x' y' : String} (h : Regrouped sep x y x' y') :
    (x, y) ≠ (x', y') := by
  intro he
  have hlen := h.length.1
  rw [(Prod.mk.inj he).1] at hlen
  exact Nat.lt_irrefl _ hlen

end Orchestrator.Base
