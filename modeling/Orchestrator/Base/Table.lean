import Mathlib.Data.List.Nodup

/-!
# Tables of rows

A table is the list of its rows in insertion order and a row's primary key is its
position: fresh keys never repeat and rows are never deleted, so positions are stable.
Selection, lookup by a unique column, update by primary key and the conditional
update with its row count are the only statements; each comes with the laws that
later proofs use instead of unfolding it.
-/

namespace Orchestrator.Base.Table

universe u v w

variable {ρ : Type u} {κ : Type v}

/-- The rows that satisfy `p` with their keys, in insertion order. -/
def select (p : ρ → Bool) (t : List ρ) : List (ρ × Nat) := t.zipIdx.filter (fun x => p x.1)

/-- Key of the first row whose column `col` holds `x`. -/
def lookup [DecidableEq κ] (col : ρ → κ) (x : κ) (t : List ρ) : Option Nat :=
  (t.map col).findIdx? (fun y => y = x)

/-- Conditional update by primary key, with the number of rows it changed. -/
def updateWhere (t : List ρ) (k : Nat) (p : ρ → Bool) (f : ρ → ρ) : List ρ × Nat :=
  if (t[k]?).any p then (t.modify k f, 1) else (t, 0)

/-- Update of several rows by primary key, one after the other. -/
def updateEach (t : List ρ) (ks : List Nat) (f : ρ → ρ) : List ρ :=
  ks.foldl (fun t k => t.modify k f) t

/-- Selection returns exactly the matching rows under their own keys. -/
theorem mem_select {p : ρ → Bool} {t : List ρ} {r : ρ} {k : Nat} :
    (r, k) ∈ select p t ↔ t[k]? = some r ∧ p r = true := by
  rw [select, List.mem_filter, List.mem_zipIdx_iff_getElem?]

/-- The keys of a selection are the keys of the matching rows. -/
theorem mem_keys_select {p : ρ → Bool} {t : List ρ} {k : Nat} :
    k ∈ (select p t).map Prod.snd ↔ ∃ r, t[k]? = some r ∧ p r = true := by
  simp only [List.mem_map, Prod.exists, mem_select]
  constructor
  · rintro ⟨r, k, h, rfl⟩
    exact ⟨r, h⟩
  · rintro ⟨r, h⟩
    exact ⟨r, k, h, rfl⟩

/-- Selection returns each key once. -/
theorem nodup_keys_select (p : ρ → Bool) (t : List ρ) : ((select p t).map Prod.snd).Nodup := by
  have hsub : ((select p t).map Prod.snd).Sublist (t.zipIdx.map Prod.snd) :=
    List.Sublist.map Prod.snd List.filter_sublist
  apply hsub.nodup
  rw [List.zipIdx_map_snd]
  exact List.nodup_range'

/-- The number of selected rows is the number of matching rows. -/
theorem length_select (p : ρ → Bool) (t : List ρ) : (select p t).length = t.countP p := by
  have hmap : t.countP p = (t.zipIdx.map Prod.fst).countP p := by rw [List.zipIdx_map_fst]
  rw [hmap, List.countP_map, List.countP_eq_length_filter]
  rfl

/-- A row that is counted once is the only one of its kind. -/
theorem eq_of_countP_eq_one {p : ρ → Bool} {t : List ρ} (h : t.countP p = 1) {a b : ρ}
    (ha : a ∈ t) (hpa : p a = true) (hb : b ∈ t) (hpb : p b = true) : a = b := by
  rw [List.countP_eq_length_filter, List.length_eq_one_iff] at h
  obtain ⟨c, hc⟩ := h
  have hac : a ∈ t.filter p := List.mem_filter.mpr ⟨ha, hpa⟩
  have hbc : b ∈ t.filter p := List.mem_filter.mpr ⟨hb, hpb⟩
  rw [hc, List.mem_singleton] at hac hbc
  rw [hac, hbc]

/-- A successful lookup points at a row that holds the value. -/
theorem lookup_eq_some [DecidableEq κ] {col : ρ → κ} {x : κ} {t : List ρ} {k : Nat}
    (h : lookup col x t = some k) : ∃ r, t[k]? = some r ∧ col r = x := by
  obtain ⟨hk, hx, -⟩ := List.findIdx?_eq_some_iff_getElem.mp h
  rw [List.length_map] at hk
  rw [List.getElem_map] at hx
  exact ⟨t[k], List.getElem?_eq_getElem hk, by simpa using hx⟩

/-- A failed lookup means that no row holds the value. -/
theorem lookup_eq_none [DecidableEq κ] {col : ρ → κ} {x : κ} {t : List ρ} :
    lookup col x t = none ↔ ∀ r ∈ t, col r ≠ x := by
  simp [lookup, List.findIdx?_eq_none_iff]

/-- A lookup depends on the looked-up column alone. -/
theorem lookup_congr [DecidableEq κ] {col : ρ → κ} {t u : List ρ}
    (h : t.map col = u.map col) (x : κ) : lookup col x t = lookup col x u := by
  rw [lookup, lookup, h]

/-- A found key stays the answer when rows are appended or other columns change. -/
theorem lookup_of_prefix [DecidableEq κ] {col : ρ → κ} {x : κ} {t u : List ρ} {k : Nat}
    (hp : t.map col <+: u.map col) (h : lookup col x t = some k) :
    lookup col x u = some k := hp.findIdx?_eq_some h

/-- A row keeps its position and a column that only grows. -/
theorem row_of_prefix {col : ρ → κ} {t u : List ρ} {k : Nat} {r : ρ}
    (hp : t.map col <+: u.map col) (h : t[k]? = some r) :
    ∃ r', u[k]? = some r' ∧ col r' = col r := by
  obtain ⟨hk, rfl⟩ := List.getElem?_eq_some_iff.mp h
  have hrow := List.prefix_iff_getElem?.mp hp k (by simpa using hk)
  rw [List.getElem?_map, List.getElem_map, Option.map_eq_some_iff] at hrow
  exact hrow

/-- A fresh row is found at its own position. -/
theorem lookup_append_new [DecidableEq κ] {col : ρ → κ} {x : κ} {t : List ρ} {r : ρ}
    (h : lookup col x t = none) (hr : col r = x) :
    lookup col x (t ++ [r]) = some t.length := by
  rw [lookup] at h
  simp [lookup, List.findIdx?_append, h, hr]

/-- A unique column identifies its row. -/
theorem key_unique {col : ρ → κ} {t : List ρ} (ht : (t.map col).Nodup) {i j : Nat} {r r' : ρ}
    (hr : t[i]? = some r) (hr' : t[j]? = some r') (he : col r = col r') : i = j := by
  have hi : i < (t.map col).length := by simpa using (List.getElem?_eq_some_iff.mp hr).1
  apply (List.getElem?_inj hi ht).mp
  rw [List.getElem?_map, List.getElem?_map, hr, hr', Option.map_some, Option.map_some, he]

/-- An update that keeps a column leaves the whole column unchanged. -/
theorem map_modify {f : ρ → ρ} {col : ρ → κ} (hf : ∀ r, col (f r) = col r)
    (t : List ρ) (k : Nat) : (t.modify k f).map col = t.map col := by
  apply List.ext_getElem?
  intro i
  simp only [List.getElem?_map, List.getElem?_modify]
  cases t[i]? with
  | none => rfl
  | some r => by_cases hk : k = i <;> simp [hk, hf]

/-- An update by key sets the row that is stored there. -/
theorem modify_eq_set {f : ρ → ρ} {t : List ρ} {k : Nat} {r : ρ} (h : t[k]? = some r) :
    t.modify k f = t.set k (f r) := by
  apply List.ext_getElem?
  intro i
  by_cases hi : k = i
  · subst hi
    obtain ⟨hk, rfl⟩ := List.getElem?_eq_some_iff.mp h
    simp [hk]
  · simp [hi]

/-- An update of the row that was inserted last. -/
theorem modify_append_length (l : List ρ) (a : ρ) (f : ρ → ρ) :
    (l ++ [a]).modify l.length f = l ++ [f a] := by
  apply List.ext_getElem?
  intro i
  rw [List.getElem?_modify]
  rcases Nat.lt_trichotomy i l.length with h | h | h
  · simp [List.getElem?_append_left h, Nat.ne_of_gt h]
  · subst h
    simp
  · have hout (b : ρ) : (l ++ [b])[i]? = none := by
      rw [List.getElem?_eq_none_iff, List.length_append, List.length_singleton]
      exact h
    simp [hout]

/-- A conditional update either changes the one matching row or nothing. -/
theorem updateWhere_cases (t : List ρ) (k : Nat) (p : ρ → Bool) (f : ρ → ρ) :
    (∃ r, t[k]? = some r ∧ p r = true ∧ updateWhere t k p f = (t.modify k f, 1)) ∨
      updateWhere t k p f = (t, 0) := by
  unfold updateWhere
  cases hr : t[k]? with
  | none => exact Or.inr (by simp)
  | some r =>
    by_cases hp : p r = true
    · exact Or.inl ⟨r, rfl, hp, by simp [hp]⟩
    · exact Or.inr (by simp [hp])

/-- Rows after an update of several distinct keys. -/
theorem getElem?_updateEach {f : ρ → ρ} {ks : List Nat} (hks : ks.Nodup)
    (t : List ρ) (i : Nat) :
    (updateEach t ks f)[i]? = if i ∈ ks then (t[i]?).map f else t[i]? := by
  induction ks generalizing t with
  | nil => simp [updateEach]
  | cons k ks ih =>
    obtain ⟨hk, hks⟩ := List.nodup_cons.mp hks
    have hstep : updateEach t (k :: ks) f = updateEach (t.modify k f) ks f := rfl
    rw [hstep, ih hks, List.getElem?_modify]
    by_cases hi : k = i
    · subst hi
      simp [hk]
    · simp [hi, Ne.symm hi]

/-- Updating the selected rows one by one is updating the matching rows at once. -/
theorem updateEach_select (p : ρ → Bool) (f : ρ → ρ) (t : List ρ) :
    updateEach t ((select p t).map Prod.snd) f = t.map (fun r => if p r then f r else r) := by
  apply List.ext_getElem?
  intro i
  rw [getElem?_updateEach (nodup_keys_select p t), List.getElem?_map]
  cases hr : t[i]? with
  | none => simp
  | some r =>
    have hm : i ∈ (select p t).map Prod.snd ↔ p r = true := by
      rw [mem_keys_select]
      simp [hr]
    by_cases hp : p r = true <;> simp [hm, hp]

/-- Among rows with distinct keys the row of one key is alone. -/
theorem filter_key_of_mem {l : List (ρ × Nat)} (hl : (l.map Prod.snd).Nodup) {r : ρ} {k : Nat}
    (h : (r, k) ∈ l) : l.filter (fun x => x.2 = k) = [(r, k)] := by
  induction l with
  | nil => simp at h
  | cons x l ih =>
    rw [List.map_cons, List.nodup_cons] at hl
    rcases List.mem_cons.mp h with rfl | h
    · have hrest : l.filter (fun x => x.2 = k) = [] := by
        rw [List.filter_eq_nil_iff]
        intro y hy he
        exact hl.1 (List.mem_map.mpr ⟨y, hy, of_decide_eq_true he⟩)
      simp [hrest]
    · have hne : x.2 ≠ k := by
        intro he
        exact hl.1 (List.mem_map.mpr ⟨(r, k), h, he.symm⟩)
      simp [hne, ih hl.2 h]

/-- The selected row of one key. -/
theorem filter_select_key (p : ρ → Bool) (t : List ρ) (k : Nat) :
    (select p t).filter (fun x => x.2 = k) =
      ((t[k]?).toList.filter p).map (fun r => (r, k)) := by
  cases hr : t[k]? with
  | none =>
    rw [Option.toList_none, List.filter_nil, List.map_nil, List.filter_eq_nil_iff]
    rintro ⟨r, i⟩ hx he
    have hi : i = k := of_decide_eq_true he
    rw [mem_select, hi, hr] at hx
    cases hx.1
  | some r =>
    by_cases hp : p r = true
    · rw [filter_key_of_mem (nodup_keys_select p t) (mem_select.mpr ⟨hr, hp⟩)]
      simp [hp]
    · have hnone : ∀ x ∈ select p t, ¬decide (x.2 = k) = true := by
        rintro ⟨r', i⟩ hx he
        have hi : i = k := of_decide_eq_true he
        rw [mem_select, hi, hr, Option.some.injEq] at hx
        exact hp (hx.1 ▸ hx.2)
      rw [List.filter_eq_nil_iff.mpr hnone]
      simp [hp]

/-! ### Upserts -/

/-- The two outcomes of an upsert by the unique column `col`: the table, the key and
the row that it leaves. -/
inductive Upsert [DecidableEq κ] (col : ρ → κ) (x : κ) (new : ρ) (f : ρ → ρ) (t : List ρ) :
    List ρ → Nat → ρ → Prop where
  | insert (h : lookup col x t = none) : Upsert col x new f t (t ++ [new]) t.length new
  | update {k : Nat} {r : ρ} (h : lookup col x t = some k) (hr : t[k]? = some r) :
      Upsert col x new f t (t.modify k f) k (f r)

/-- The key under which an upsert by the unique column `col` leaves its row. -/
def upsertKey [DecidableEq κ] (col : ρ → κ) (x : κ) (t : List ρ) : Nat :=
  (lookup col x t).getD t.length

/-- The row that an upsert leaves. -/
def upsertRow [DecidableEq κ] (col : ρ → κ) (x : κ) (new : ρ) (f : ρ → ρ) (t : List ρ) : ρ :=
  ((lookup col x t).bind fun k => t[k]?).elim new f

/-- The table that an upsert leaves. -/
def upsert [DecidableEq κ] (col : ρ → κ) (x : κ) (new : ρ) (f : ρ → ρ) (t : List ρ) : List ρ :=
  (lookup col x t).elim (t ++ [new]) fun k => t.modify k f

/-- An upsert as a function has one of the two outcomes. -/
theorem upsert_spec [DecidableEq κ] (col : ρ → κ) (x : κ) (new : ρ) (f : ρ → ρ) (t : List ρ) :
    Upsert col x new f t (upsert col x new f t) (upsertKey col x t)
      (upsertRow col x new f t) := by
  unfold upsert upsertKey upsertRow
  cases h : lookup col x t with
  | none => exact .insert h
  | some k =>
    obtain ⟨r, hr, -⟩ := lookup_eq_some h
    simp only [Option.elim_some, Option.getD_some, Option.bind_some, hr]
    exact .update h hr

namespace Upsert

variable [DecidableEq κ] {col : ρ → κ} {x : κ} {new : ρ} {f : ρ → ρ} {t t' : List ρ}
  {k : Nat} {r' : ρ}

/-- The upserted row is stored under its key. -/
theorem stored (h : Upsert col x new f t t' k r') : t'[k]? = some r' := by
  cases h with
  | insert h => simp
  | update h hr => simp [hr]

/-- An upsert removes no row. -/
theorem length_le (h : Upsert col x new f t t' k r') : t.length ≤ t'.length := by
  cases h <;> simp

/-- The upserted row has a key of the table. -/
theorem key_lt (h : Upsert col x new f t t' k r') : k < t'.length :=
  (List.getElem?_eq_some_iff.mp h.stored).1

/-- Every other row is unchanged. -/
theorem frame (h : Upsert col x new f t t' k r') {i : Nat} {r : ρ} (hi : i ≠ k)
    (hr : t[i]? = some r) : t'[i]? = some r := by
  cases h with
  | insert h =>
    rw [List.getElem?_append_left (List.getElem?_eq_some_iff.mp hr).1]
    exact hr
  | update h hr' => simp [hi.symm, hr]

/-- The row that was stored under the key is the one that the upsert rewrote. -/
theorem rewritten (h : Upsert col x new f t t' k r') {r : ρ} (hr : t[k]? = some r) :
    r' = f r := by
  cases h with
  | insert h => simp at hr
  | update h hr' => rw [Option.some.inj (hr'.symm.trans hr)]

/-- A key that was stored before is the one that the lookup found. -/
theorem found_before (h : Upsert col x new f t t' k r') {r : ρ} (hr : t[k]? = some r) :
    lookup col x t = some k := by
  cases h with
  | insert h => simp at hr
  | update h _ => exact h

/-- A row of the new table is the upserted one or an unchanged old one. -/
theorem origin (h : Upsert col x new f t t' k r') {i : Nat} {r : ρ} (hr : t'[i]? = some r) :
    i = k ∧ r = r' ∨ i ≠ k ∧ t[i]? = some r := by
  by_cases hi : i = k
  · subst hi
    exact Or.inl ⟨rfl, Option.some.inj (hr.symm.trans h.stored)⟩
  · refine Or.inr ⟨hi, ?_⟩
    cases h with
    | insert h =>
      have hlt : i < t.length := by
        have hle := (List.getElem?_eq_some_iff.mp hr).1
        rw [List.length_append, List.length_singleton] at hle
        omega
      rwa [List.getElem?_append_left hlt] at hr
    | update h hr' => simpa [Ne.symm hi] using hr

/-- The upserted row was written by the upsert. -/
theorem written (h : Upsert col x new f t t' k r') : r' = new ∨ ∃ r, r' = f r := by
  cases h with
  | insert h => exact Or.inl rfl
  | update h hr => exact Or.inr ⟨_, rfl⟩

/-- A column that updates keep only grows. -/
theorem column {γ : Type w} {g : ρ → γ} (h : Upsert col x new f t t' k r')
    (hf : ∀ r, g (f r) = g r) : t.map g <+: t'.map g := by
  cases h with
  | insert h => simp
  | update h hr => exact ⟨[], by rw [List.append_nil, map_modify hf]⟩

/-- The unique column stays unique. -/
theorem nodup (h : Upsert col x new f t t' k r') (hf : ∀ r, col (f r) = col r)
    (hnew : col new = x) (ht : (t.map col).Nodup) : (t'.map col).Nodup := by
  cases h with
  | insert h =>
    rw [lookup_eq_none] at h
    simp only [List.map_append, List.map_cons, List.map_nil]
    refine List.nodup_append.mpr ⟨ht, by simp, ?_⟩
    rintro _ hmem _ hx rfl
    obtain ⟨r, hr, he⟩ := List.mem_map.mp hmem
    exact h r hr (he.trans ((List.mem_singleton.mp hx).trans hnew))
  | update h hr => rwa [map_modify hf]

/-- The upserted row is the one that a lookup finds. -/
theorem found (h : Upsert col x new f t t' k r') (hf : ∀ r, col (f r) = col r)
    (hnew : col new = x) : lookup col x t' = some k := by
  cases h with
  | insert h => exact lookup_append_new h hnew
  | update h hr => rwa [lookup_congr (map_modify hf t k)]

/-- The upserted row holds the looked-up value. -/
theorem key (h : Upsert col x new f t t' k r') (hf : ∀ r, col (f r) = col r)
    (hnew : col new = x) : col r' = x := by
  obtain ⟨r, hr, hx⟩ := lookup_eq_some (h.found hf hnew)
  rw [h.stored, Option.some.injEq] at hr
  rw [hr, hx]

end Upsert

end Orchestrator.Base.Table
