import Mathlib.Logic.Equiv.Defs
import Mathlib.Tactic.SplitIfs
import Orchestrator.Base.Table

/-!
# Patches of tables

A patch rewrites the rows of a table one by one and appends rows. Two patches that leave
each other's rows alone can be applied in either order: the tables differ by a swap of the
two appended blocks, and so do the keys that the rows refer to.
-/

namespace Orchestrator.Base

universe u v

variable {ρ : Type u} {κ : Type v}

/-! ### Swapped blocks of keys -/

/-- The key that a key gets when the blocks of lengths `a` and `b` that follow the first `n`
keys are swapped. -/
def swapKey (n a b k : Nat) : Nat :=
  if k < n then k
  else if k < n + a then k + b
  else if k < n + a + b then k - a
  else k

private theorem swapKey_swapKey (n a b k : Nat) : swapKey n b a (swapKey n a b k) = k := by
  unfold swapKey
  split_ifs <;> omega

/-- The swap of two blocks of keys. -/
def blockSwap (n a b : Nat) : Equiv.Perm Nat where
  toFun := swapKey n a b
  invFun := swapKey n b a
  left_inv := swapKey_swapKey n a b
  right_inv := swapKey_swapKey n b a

/-- Keys before the blocks stay. -/
theorem blockSwap_of_lt {n k : Nat} (a b : Nat) (h : k < n) : blockSwap n a b k = k := if_pos h

/-- The first block moves behind the second. -/
theorem blockSwap_add {n a i : Nat} (b : Nat) (h : i < a) :
    blockSwap n a b (n + i) = n + b + i := by
  show swapKey n a b (n + i) = n + b + i
  unfold swapKey
  split_ifs <;> omega

/-- The rows of `t'` are those of `t` under the keys `σ`, each seen through `f`. -/
def Relabelled (σ : Equiv.Perm Nat) (f : ρ → ρ) (t t' : List ρ) : Prop :=
  ∀ k, t'[σ k]? = (t[k]?).map f

/-- Tables that end in two blocks, in either order. -/
theorem relabelled_blocks (f : ρ → ρ) (t l l' : List ρ) :
    Relabelled (blockSwap t.length l.length l'.length) f (t ++ l ++ l')
      (t.map f ++ l'.map f ++ l.map f) := by
  intro k
  show (t.map f ++ l'.map f ++ l.map f)[swapKey t.length l.length l'.length k]? = _
  unfold swapKey
  simp only [List.getElem?_append, List.length_append, List.length_map, List.getElem?_map]
  split_ifs <;> try omega
  · rfl
  · congr 2
    omega
  · congr 2
    omega
  · rw [List.getElem?_eq_none (by omega), List.getElem?_eq_none (by omega)]

/-! ### Patches -/

/-- A rewriting of the rows of a table and the rows that follow them. -/
structure Patch (ρ : Type u) where
  update : ρ → ρ := id
  rows : List ρ := []

namespace Patch

variable {p p₁ p₁' p₂ p₂' : Patch ρ} {t : List ρ}

/-- The table after a patch. -/
def apply (p : Patch ρ) (t : List ρ) : List ρ := t.map p.update ++ p.rows

@[simp] theorem length_apply (p : Patch ρ) (t : List ρ) :
    (p.apply t).length = t.length + p.rows.length := by
  simp [apply]

/-- A patch that only appends. -/
@[simp] theorem apply_append (l t : List ρ) : (Patch.mk id l).apply t = t ++ l := by
  simp [apply]

/-- Stored rows stay in front when a patch only appends. -/
theorem prefix_apply (h : p.update = id) : t <+: p.apply t := by
  rw [apply, h, List.map_id]
  exact List.prefix_append t p.rows

/-- A stored row after a patch. -/
theorem getElem?_apply {k : Nat} {r : ρ} (p : Patch ρ) (h : t[k]? = some r) :
    (p.apply t)[k]? = some (p.update r) := by
  have hk : k < (t.map p.update).length := by
    rw [List.length_map]
    exact (List.getElem?_eq_some_iff.mp h).1
  rw [apply, List.getElem?_append_left hk, List.getElem?_map, h, Option.map_some]

/-- A lookup does not see a patch that keeps the column and appends other values. -/
theorem lookup_apply [DecidableEq κ] {col : ρ → κ} {x : κ} (hu : ∀ r, col (p.update r) = col r)
    (hl : ∀ r ∈ p.rows, col r ≠ x) : Table.lookup col x (p.apply t) = Table.lookup col x t := by
  have hmap : (p.apply t).map col = t.map col ++ p.rows.map col := by
    simp [apply, List.map_append, Function.comp_def, hu]
  have hrows : (p.rows.map col).findIdx? (fun y => y = x) = none := by
    simpa [List.findIdx?_eq_none_iff] using hl
  rw [Table.lookup, hmap, List.findIdx?_append, hrows]
  simp [Table.lookup]

/-- A function that fixes every row fixes the table. -/
private theorem map_fixed {α : Type u} {g : α → α} {l : List α} (h : ∀ a ∈ l, g a = a) :
    l.map g = l := (List.map_congr_left h).trans (List.map_id' l)

/-- A selection does not see a patch that keeps the selected rows and appends others. -/
theorem select_apply {q q' : ρ → Bool} (hq : ∀ r ∈ t, q' (p.update r) = q r)
    (hu : ∀ r ∈ t, q r = true → p.update r = r) (hl : ∀ r ∈ p.rows, q' r = false) :
    Table.select q' (p.apply t) = Table.select q t := by
  have hrows (n : Nat) : (p.rows.zipIdx n).filter (fun x => q' x.1) = [] := by
    rw [List.filter_eq_nil_iff]
    rintro ⟨r, k⟩ hmem
    simp [hl r (List.fst_mem_of_mem_zipIdx hmem)]
  have hfilter : t.zipIdx.filter ((fun x => q' x.1) ∘ Prod.map p.update id) =
      t.zipIdx.filter (fun x => q x.1) := by
    apply List.filter_congr
    rintro ⟨r, k⟩ hmem
    exact hq r (List.fst_mem_of_mem_zipIdx hmem)
  rw [Table.select, apply, List.zipIdx_append, List.filter_append, hrows, List.append_nil,
    List.zipIdx_map, List.filter_map, hfilter, Table.select]
  apply map_fixed
  rintro ⟨r, k⟩ hmem
  obtain ⟨hmem, hr⟩ := List.mem_filter.mp hmem
  exact Prod.ext (hu r (List.fst_mem_of_mem_zipIdx hmem) hr) rfl

/-- An upsert by a unique column and a change of the upserted row, as one patch. -/
theorem modify_upsert [DecidableEq κ] {col : ρ → κ} (ht : (t.map col).Nodup) (x : κ) (new : ρ)
    (f g : ρ → ρ) :
    (Table.upsert col x new f t).modify (Table.upsertKey col x t) g =
      Patch.apply ⟨fun r => if col r = x then g (f r) else r,
        if (Table.lookup col x t).isSome then [] else [g new]⟩ t := by
  unfold Table.upsert Table.upsertKey
  cases h : Table.lookup col x t with
  | none =>
    have hne := Table.lookup_eq_none.mp h
    have hold : t.map (fun r => if col r = x then g (f r) else r) = t :=
      map_fixed fun r hr => if_neg (hne r hr)
    simp only [Option.elim_none, Option.getD_none, Table.modify_append_length, apply, hold]
    rfl
  | some k =>
    obtain ⟨row, hrow, hx⟩ := Table.lookup_eq_some h
    apply List.ext_getElem?
    intro i
    simp only [Option.elim_some, Option.getD_some, Option.isSome_some, if_true, apply,
      List.append_nil, List.getElem?_modify, List.getElem?_map]
    cases hi : t[i]? with
    | none => rfl
    | some r =>
      have hkey : col r = x ↔ k = i := by
        constructor
        · intro hr
          exact Table.key_unique ht hrow hi (hx.trans hr.symm)
        · rintro rfl
          rw [hrow] at hi
          rw [← Option.some.inj hi, hx]
      by_cases hk : k = i
      · simp [hk, hkey.mpr hk]
      · have hne : col r ≠ x := fun hr => hk (hkey.mp hr)
        simp [hk, hne]

/-- Updates of rows with one value in a column commute with updates that leave these alone. -/
theorem update_comm {col : ρ → κ} {x : κ} (hcol : ∀ r, col (p₁.update r) = col r)
    (hcol' : ∀ r, col (p₂.update r) = col r) (h₁ : ∀ r, col r ≠ x → p₁.update r = r)
    (h₂ : ∀ r, col r = x → p₂.update r = r) (r : ρ) :
    p₁.update (p₂.update r) = p₂.update (p₁.update r) := by
  by_cases hr : col r = x
  · rw [h₂ r hr, h₂ _ ((hcol r).trans hr)]
  · rw [h₁ r hr, h₁ _ (fun h => hr ((hcol' r).symm.trans h))]

/-- The patch `p'` is `p` seen through `f`. -/
structure Moves (f : ρ → ρ) (p p' : Patch ρ) : Prop where
  rows : p'.rows = p.rows.map f
  update : ∀ r, p'.update (f r) = f (p.update r)

/-- Two patches that leave each other's rows alone and commute on the stored ones give, in
either order, the same table up to the order of the two blocks. -/
theorem relabelled_apply {f : ρ → ρ} (h₁ : Moves f p₁ p₁') (h₂ : Moves f p₂' p₂)
    (hfixed : ∀ r ∈ t, f r = r)
    (hcommute : ∀ r ∈ t, p₁'.update (p₂.update r) = p₂.update (p₁'.update r))
    (hrows₁ : ∀ r ∈ p₁.rows, p₂'.update r = r) (hrows₂ : ∀ r ∈ p₂.rows, p₁'.update r = r) :
    Relabelled (blockSwap t.length p₁.rows.length p₂.rows.length) f (p₂'.apply (p₁.apply t))
      (p₁'.apply (p₂.apply t)) := by
  have hfirst : p₂'.apply (p₁.apply t) =
      t.map (p₂'.update ∘ p₁.update) ++ p₁.rows ++ p₂'.rows := by
    simp only [apply, List.map_append, List.map_map, map_fixed hrows₁]
  have hlength : p₂'.rows.length = p₂.rows.length := by rw [h₂.rows, List.length_map]
  have hold : (t.map (p₂'.update ∘ p₁.update)).map f = t.map (p₁'.update ∘ p₂.update) := by
    rw [List.map_map]
    apply List.map_congr_left
    intro r hr
    calc f (p₂'.update (p₁.update r))
        = p₂.update (p₁'.update (f r)) := by rw [h₁.update, h₂.update]
      _ = p₁'.update (p₂.update r) := by rw [hfixed r hr, hcommute r hr]
  have hsecond : p₁'.apply (p₂.apply t) =
      (t.map (p₂'.update ∘ p₁.update)).map f ++ p₂'.rows.map f ++ p₁.rows.map f := by
    rw [hold, ← h₁.rows, ← h₂.rows]
    simp only [apply, List.map_append, List.map_map, map_fixed hrows₂]
  have hblocks := relabelled_blocks f (t.map (p₂'.update ∘ p₁.update)) p₁.rows p₂'.rows
  rw [List.length_map, hlength] at hblocks
  rw [hfirst, hsecond]
  exact hblocks

/-- The case of patches that only append. -/
theorem relabelled_append {f : ρ → ρ} (h₁ : Moves f p₁ p₁') (h₂ : Moves f p₂' p₂)
    (hfixed : ∀ r ∈ t, f r = r) (hid₁' : p₁'.update = id) (hid₂ : p₂.update = id)
    (hid₂' : p₂'.update = id) :
    Relabelled (blockSwap t.length p₁.rows.length p₂.rows.length) f (p₂'.apply (p₁.apply t))
      (p₁'.apply (p₂.apply t)) := by
  apply relabelled_apply h₁ h₂ hfixed
  · exact fun r _ => by rw [hid₁', hid₂]
  · exact fun r _ => congrFun hid₂' r
  · exact fun r _ => congrFun hid₁' r

end Patch

end Orchestrator.Base
