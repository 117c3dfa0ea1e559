import Orchestrator.Base.RowLocks

/-!
# Transactions under row locks are serial

A transaction executes conditional updates and inserts one by one while others commit.
Its updates have locked their rows, so at its commit every one of them still finds the
row that it found then: the commit leaves what the transaction's operations leave when
they run in their order, without interruption, on the rows committed by that time.
-/

namespace Orchestrator.Base

universe u v x y

variable {ρ : Type u} {η : Type v}

/-- `UPDATE … WHERE key = k AND p` or `INSERT`, with its log entry. -/
inductive Operation (ρ : Type u) (η : Type v) where
  | update (k : Nat) (p : ρ → Bool) (f : ρ → ρ) (e : ρ → η)
  | insert (r : ρ) (e : η)

/-- The row that the operation locks. -/
def Operation.key : Operation ρ η → Option Nat
  | .update k _ _ _ => some k
  | .insert _ _ => none

/-- The operation takes effect on rows and log that nobody else uses. -/
inductive Operation.Runs (t : List ρ) (l : List η) :
    Operation ρ η → List ρ → List η → Prop where
  | update {k : Nat} {p : ρ → Bool} {f : ρ → ρ} {e : ρ → η} {r : ρ} (row : t[k]? = some r)
      (hp : p r = true) : Runs t l (.update k p f e) (t.set k (f r)) (l ++ [e r])
  | insert (r : ρ) (e : η) : Runs t l (.insert r e) (t ++ [r]) (l ++ [e])

/-- The changes of operations that have taken effect one after the other, on rows that
the ones at hand, with the earlier changes applied, show. -/
inductive Effects : (Nat → Option ρ) → List (Operation ρ η) → List (Change ρ η) → Prop where
  | nil {f : Nat → Option ρ} : Effects f [] []
  | update {f : Nat → Option ρ} {k : Nat} {p : ρ → Bool} {g : ρ → ρ} {e : ρ → η} {r : ρ}
      {os : List (Operation ρ η)} {cs : List (Change ρ η)} (row : f k = some r) (hp : p r = true)
      (rest : Effects (Function.update f k (some (g r))) os cs) :
      Effects f (.update k p g e :: os) (.write k (g r) (e r) :: cs)
  | insert {f : Nat → Option ρ} {r : ρ} {e : η} {os : List (Operation ρ η)}
      {cs : List (Change ρ η)} (rest : Effects f os cs) :
      Effects f (.insert r e :: os) (.insert r e :: cs)

namespace Effects

variable {f g : Nat → Option ρ} {os : List (Operation ρ η)} {cs : List (Change ρ η)}

/-- Every operation has one change. -/
theorem length_eq (h : Effects f os cs) : os.length = cs.length := by
  induction h with
  | nil => rfl
  | update _ _ _ ih => exact congrArg Nat.succ ih
  | insert _ ih => exact congrArg Nat.succ ih

/-- A row that no operation locks is seen as it was. -/
theorem view_eq (h : Effects f os cs) {k : Nat} (hk : ∀ o ∈ os, o.key ≠ some k) :
    cs.foldl Change.view f k = f k := by
  induction h with
  | nil => rfl
  | @update f i p u e r os cs row hp rest ih =>
    have hne : k ≠ i := fun hki => hk _ List.mem_cons_self (congrArg some hki.symm)
    have htail := ih fun o ho => hk o (List.mem_cons_of_mem _ ho)
    rwa [Function.update_of_ne hne] at htail
  | insert _ ih => exact ih fun o ho => hk o (List.mem_cons_of_mem _ ho)

/-- Only the rows that the changes lock matter. -/
theorem mono (h : Effects f os cs)
    (hfg : ∀ c ∈ cs, ∀ k, c.key = some k → ∀ r, f k = some r → g k = some r) :
    Effects g os cs := by
  induction h generalizing g with
  | nil => exact .nil
  | @update f k p u e r os cs row hp rest ih =>
    apply Effects.update (hfg _ List.mem_cons_self k rfl r row) hp
    apply ih
    intro c hc i hi x hx
    by_cases hik : i = k
    · subst hik
      rwa [Function.update_self] at hx ⊢
    · rw [Function.update_of_ne hik] at hx ⊢
      exact hfg c (List.mem_cons_of_mem _ hc) i hi x hx
  | insert _ ih => exact .insert (ih fun c hc => hfg c (List.mem_cons_of_mem _ hc))

/-- One more update, of a row as the transaction sees it. -/
theorem concat_update (h : Effects f os cs) {k : Nat} {p : ρ → Bool} {u : ρ → ρ} {e : ρ → η}
    {r : ρ} (row : cs.foldl Change.view f k = some r) (hp : p r = true) :
    Effects f (os ++ [.update k p u e]) (cs ++ [.write k (u r) (e r)]) := by
  induction h with
  | nil => exact .update row hp .nil
  | update row' hp' _ ih => exact .update row' hp' (ih row)
  | insert _ ih => exact .insert (ih row)

/-- One more insert. -/
theorem concat_insert (h : Effects f os cs) (r : ρ) (e : η) :
    Effects f (os ++ [.insert r e]) (cs ++ [.insert r e]) := by
  induction h with
  | nil => exact .insert .nil
  | update row hp _ ih => exact .update row hp ih
  | insert _ ih => exact .insert ih

/-- A loop that follows single operations in a relation to rows and log follows the
publication of all of them. -/
theorem foldl {α : Type x} {σ : Type y} {op : α → Operation ρ η} {G : σ → α → σ}
    {R : σ → List ρ → List η → Prop}
    (hG : ∀ s t l a t' l', R s t l → (op a).Runs t l t' l' → R (G s a) t' l') {as : List α}
    (h : Effects f (as.map op) cs) {t : List ρ} {l : List η} {s : σ}
    (hf : ∀ k r, f k = some r → t[k]? = some r) (hR : R s t l) :
    R (as.foldl G s) (cs.foldl Change.rows t) (l ++ cs.map Change.entry) := by
  induction as generalizing f cs t l s with
  | nil =>
    cases h
    rw [List.map_nil, List.append_nil]
    exact hR
  | cons a as ih =>
    rw [List.map_cons] at h
    generalize ho : op a = o at h
    cases h with
    | @update _ k p u e r _ cs row hp rest =>
      have hrun : (op a).Runs t l (t.set k (u r)) (l ++ [e r]) := ho ▸ .update (hf k r row) hp
      have htail := ih rest (Grounded.view_set hf row (u r)) (hG s t l a _ _ hR hrun)
      rwa [List.append_assoc] at htail
    | @insert _ r e _ cs rest =>
      have hrun : (op a).Runs t l (t ++ [r]) (l ++ [e]) := ho ▸ .insert r e
      have htail := ih rest (Grounded.view_append hf r) (hG s t l a _ _ hR hrun)
      rwa [List.append_assoc] at htail

/-- A single operation takes effect. -/
theorem runs {o : Operation ρ η} (h : Effects f [o] cs) {t : List ρ} (l : List η)
    (hf : ∀ k r, f k = some r → t[k]? = some r) :
    o.Runs t l (cs.foldl Change.rows t) (l ++ cs.map Change.entry) := by
  cases h with
  | update row hp rest =>
    cases rest
    exact .update (hf _ _ row) hp
  | insert rest =>
    cases rest
    exact .insert _ _

end Effects

namespace Db

variable {db db' : Db ρ η} {v w : Nat} {os : List (Operation ρ η)}

/-- The operations that a session's open transaction has executed. -/
def Executed (db : Db ρ η) (w : Nat) (os : List (Operation ρ η)) : Prop :=
  Effects (fun k => db.rows[k]?) os (db.txns w)

/-- An update that does not find its row as it wants it. -/
theorem update_eq_misses {k : Nat} {p : ρ → Bool} {f : ρ → ρ} {e : ρ → η}
    (h : db.update w k p f e = .misses) : (db.view w k).any p = false := by
  unfold update at h
  split at h
  · next hrow => rw [hrow, Option.any_none]
  · next r hrow =>
    split at h
    · split at h <;> cases h
    · next hp => rw [hrow, Option.any_some, eq_false_of_ne_true hp]

namespace Executed

/-- Nothing is executed without a change. -/
theorem nil (h : db.txns w = []) : db.Executed w [] := by
  rw [Executed, h]
  exact .nil

/-- A session without operations has no changes. -/
theorem txns_eq_nil (h : db.Executed w []) : db.txns w = [] :=
  List.eq_nil_of_length_eq_zero h.length_eq.symm

/-- A session sees a row that it has not locked as it is committed. -/
theorem view_eq (h : db.Executed w os) {k : Nat} (hk : ∀ o ∈ os, o.key ≠ some k) :
    db.view w k = db.rows[k]? :=
  Effects.view_eq h hk

/-- A statement of another session that publishes nothing. -/
theorem of_eq (h : db.Executed w os) (hrows : db'.rows = db.rows)
    (htxns : db'.txns w = db.txns w) : db'.Executed w os := by
  rw [Executed, hrows, htxns]
  exact h

/-- An update that hits. -/
theorem update (h : db.Executed w os) {k : Nat} {p : ρ → Bool} {f : ρ → ρ} {e : ρ → η} {r : ρ}
    (hit : db.update w k p f e = .hits r db') :
    db'.Executed w (os ++ [.update k p f e]) := by
  obtain ⟨row, hp, hfree, rfl⟩ := update_eq_hits hit
  rw [Executed, txns_write, Function.update_self]
  exact h.concat_update row hp

/-- An insert. -/
theorem insert (h : db.Executed w os) (r : ρ) (e : η) :
    (db.insert w r e).Executed w (os ++ [.insert r e]) := by
  rw [Executed, txns_insert, Function.update_self]
  exact h.concat_insert r e

/-- A commit of another session leaves the rows that this one has locked. -/
theorem commit (h : db.Executed v os) (hv : v ≠ w) : (db.commit w).Executed v os := by
  rw [Executed, txns_commit, Function.update_of_ne hv]
  apply Effects.mono h
  intro c hc k hk r hr
  exact commit_frame hv hc hk hr

/-- The commit of one operation is that operation. -/
theorem commit_runs {o : Operation ρ η} (h : db.Executed w [o]) :
    o.Runs db.rows db.log (db.commit w).rows (db.commit w).log :=
  Effects.runs h db.log fun _ _ hr => hr

/-- The commit of a loop is the loop. -/
theorem commit_foldl {α : Type x} {σ : Type y} {op : α → Operation ρ η} {G : σ → α → σ}
    {R : σ → List ρ → List η → Prop}
    (hG : ∀ s t l a t' l', R s t l → (op a).Runs t l t' l' → R (G s a) t' l') {as : List α}
    (h : db.Executed v (as.map op)) {s : σ} (hR : R s db.rows db.log) :
    R (as.foldl G s) (db.commit v).rows (db.commit v).log :=
  Effects.foldl hG h (fun _ _ hr => hr) hR

end Executed

end Db

end Orchestrator.Base
