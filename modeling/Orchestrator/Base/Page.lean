import Mathlib.Data.List.Sort
import Orchestrator.Base.Table

/-!
# Ordered selections

`SELECT .. WHERE .. ORDER BY .. LIMIT ..` over a table: the matching rows with their keys
in an order that compares any two of them, cut after a number of rows. When the order
tells different keys apart, a filter can be applied before or after the sorting.
-/

namespace Orchestrator.Base.Table

universe u

variable {ρ : Type u}

/-- The rows that satisfy `p` with their keys, sorted. -/
def ordered (p : ρ → Bool) (le : ρ × Nat → ρ × Nat → Bool) (t : List ρ) : List (ρ × Nat) :=
  (select p t).insertionSort fun x y => le x y = true

/-- The first `limit` of the rows that satisfy `p`. -/
def page (p : ρ → Bool) (le : ρ × Nat → ρ × Nat → Bool) (limit : Nat) (t : List ρ) :
    List (ρ × Nat) :=
  (ordered p le t).take limit

/-- An order that compares any two rows and tells rows with different keys apart. -/
structure RowOrder (le : ρ × Nat → ρ × Nat → Bool) : Prop where
  total : ∀ x y, le x y = true ∨ le y x = true
  trans : ∀ x y z, le x y = true → le y z = true → le x z = true
  key : ∀ x y, le x y = true → le y x = true → x.2 = y.2

section

variable {p q : ρ → Bool} {le : ρ × Nat → ρ × Nat → Bool} {t : List ρ}

/-- The sorted rows are the matching ones. -/
theorem ordered_perm (p : ρ → Bool) (le : ρ × Nat → ρ × Nat → Bool) (t : List ρ) :
    (ordered p le t).Perm (select p t) := List.perm_insertionSort _ _

/-- The sorted rows are the matching ones under their own keys. -/
theorem mem_ordered {r : ρ} {k : Nat} :
    (r, k) ∈ ordered p le t ↔ t[k]? = some r ∧ p r = true := by
  rw [(ordered_perm p le t).mem_iff, mem_select]

/-- The sorted rows are sorted. -/
theorem ordered_pairwise (h : RowOrder le) (p : ρ → Bool) (t : List ρ) :
    (ordered p le t).Pairwise fun x y => le x y = true := by
  have htotal : Std.Total fun x y : ρ × Nat => le x y = true := ⟨h.total⟩
  have htrans : IsTrans _ fun x y : ρ × Nat => le x y = true := ⟨h.trans⟩
  exact List.pairwise_insertionSort _ _

/-- The sorted rows are counted in the table. -/
theorem countP_ordered (p q : ρ → Bool) (le : ρ × Nat → ρ × Nat → Bool) (t : List ρ) :
    (ordered p le t).countP (fun x => q x.1) = t.countP fun r => p r && q r := by
  rw [(ordered_perm p le t).countP_eq, select, List.countP_filter]
  conv_rhs => rw [← List.zipIdx_map_fst 0 t, List.countP_map]
  exact List.countP_congr fun x _ => by simp [and_comm]

/-- Filtering the sorted rows is sorting the filtered ones. -/
theorem filter_ordered (h : RowOrder le) (p q : ρ → Bool) (t : List ρ) :
    (ordered p le t).filter (fun x => q x.1) = ordered (fun r => p r && q r) le t := by
  have hselect : (select p t).filter (fun x => q x.1) = select (fun r => p r && q r) t := by
    rw [select, select, List.filter_filter]
    exact List.filter_congr fun x _ => Bool.and_comm _ _
  have hperm : ((ordered p le t).filter fun x => q x.1).Perm
      (ordered (fun r => p r && q r) le t) := by
    have hfilter := (ordered_perm p le t).filter fun x => q x.1
    rw [hselect] at hfilter
    exact hfilter.trans (ordered_perm _ le t).symm
  refine hperm.eq_of_pairwise (fun x y hx hy hxy hyx => ?_)
    ((ordered_pairwise h p t).filter _) (ordered_pairwise h _ t)
  have hkey := h.key x y hxy hyx
  have hx' := (mem_ordered.mp (List.mem_filter.mp hx).1).1
  have hy' := (mem_ordered.mp hy).1
  rw [← hkey, hx', Option.some.injEq] at hy'
  exact Prod.ext hy' hkey

end

end Orchestrator.Base.Table
