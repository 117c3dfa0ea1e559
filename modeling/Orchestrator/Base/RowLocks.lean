import Mathlib.Data.List.Basic
import Mathlib.Logic.Function.Basic
import Orchestrator.Base.Table

/-!
# Row locks under read committed

Concurrent transactions over one table with an append-only log. An update by primary
key sees the committed row, or its transaction's own version of it, and takes the row's
lock until its transaction ends; while another transaction holds the lock, an update
that the committed row satisfies waits, and then sees what was committed meanwhile. New
rows and log entries become visible with the commit. Because of the locks, an
uncommitted write stays a write of the committed row, whatever else commits before it.
-/

namespace Orchestrator.Base

universe u v

variable {ρ : Type u} {η : Type v}

/-- The uncommitted effect of one statement: a new version of a row, or a new row, each
with the log entry that comes with it. -/
inductive Change (ρ : Type u) (η : Type v) where
  | write (key : Nat) (row : ρ) (entry : η)
  | insert (row : ρ) (entry : η)

namespace Change

/-- The row that a change locks. -/
def key : Change ρ η → Option Nat
  | write k _ _ => some k
  | insert _ _ => none

/-- The row that a change adds. -/
def added : Change ρ η → Option ρ
  | write _ _ _ => none
  | insert r _ => some r

/-- The log entry of a change. -/
def entry : Change ρ η → η
  | write _ _ e => e
  | insert _ e => e

/-- The rows that a transaction sees after a change of its own. -/
def view (f : Nat → Option ρ) : Change ρ η → Nat → Option ρ
  | write k r _ => Function.update f k (some r)
  | insert _ _ => f

/-- The committed rows after a change. -/
def rows (t : List ρ) : Change ρ η → List ρ
  | write k r _ => t.set k r
  | insert r _ => t ++ [r]

end Change

/-- Committed rows and log, the uncommitted changes of every session, and the holder of
every row lock. -/
structure Db (ρ : Type u) (η : Type v) where
  rows : List ρ
  log : List η
  txns : Nat → List (Change ρ η)
  owner : Nat → Option Nat
  held : ∀ w, ∀ c ∈ txns w, ∀ k, c.key = some k → owner k = some w

/-- How an update by primary key ends. -/
inductive Updated (ρ : Type u) (η : Type v) where
  | waits
  | misses
  | hits (row : ρ) (db : Db ρ η)

namespace Db

/-- Committed rows and no sessions. -/
def ofRows (rows : List ρ) : Db ρ η := ⟨rows, [], fun _ => [], fun _ => none, by simp⟩

/-- The rows that a session sees. -/
def view (db : Db ρ η) (w : Nat) : Nat → Option ρ :=
  (db.txns w).foldl Change.view fun k => db.rows[k]?

/-- No other session holds the lock of the row. -/
def free (db : Db ρ η) (w k : Nat) : Bool := (db.owner k).all fun v => v = w

/-- Lock a row and write a version of it. -/
def write (db : Db ρ η) (w k : Nat) (r : ρ) (e : η) (h : db.free w k = true) : Db ρ η where
  rows := db.rows
  log := db.log
  txns := Function.update db.txns w (db.txns w ++ [.write k r e])
  owner := Function.update db.owner k (some w)
  held := by
    intro v c hc i hi
    by_cases hv : v = w
    · subst hv
      rw [Function.update_self, List.mem_append, List.mem_singleton] at hc
      by_cases hik : i = k
      · rw [hik, Function.update_self]
      · rw [Function.update_of_ne hik]
        rcases hc with hc | rfl
        · exact db.held v c hc i hi
        · exact absurd (Option.some.inj hi).symm hik
    · rw [Function.update_of_ne hv] at hc
      have hown := db.held v c hc i hi
      have hik : i ≠ k := by
        rintro rfl
        simp only [free, hown, Option.all_some, decide_eq_true_eq] at h
        exact hv h
      rw [Function.update_of_ne hik]
      exact hown

/-- Add a row that no other session sees yet. -/
def insert (db : Db ρ η) (w : Nat) (r : ρ) (e : η) : Db ρ η where
  rows := db.rows
  log := db.log
  txns := Function.update db.txns w (db.txns w ++ [.insert r e])
  owner := db.owner
  held := by
    intro v c hc i hi
    by_cases hv : v = w
    · subst hv
      rw [Function.update_self, List.mem_append, List.mem_singleton] at hc
      rcases hc with hc | rfl
      · exact db.held v c hc i hi
      · cases hi
    · rw [Function.update_of_ne hv] at hc
      exact db.held v c hc i hi

/-- The locks that remain when a session releases its own. -/
def released (db : Db ρ η) (w k : Nat) : Option Nat :=
  if db.owner k = some w then none else db.owner k

private theorem held_released (db : Db ρ η) (w : Nat) : ∀ v,
    ∀ c ∈ Function.update db.txns w [] v, ∀ k, c.key = some k → db.released w k = some v := by
  intro v c hc k hk
  by_cases hv : v = w
  · subst hv
    rw [Function.update_self] at hc
    cases hc
  · rw [Function.update_of_ne hv] at hc
    have hown := db.held v c hc k hk
    simp [released, hown, hv]

/-- Forget a session's changes and release its locks. -/
def rollback (db : Db ρ η) (w : Nat) : Db ρ η :=
  ⟨db.rows, db.log, Function.update db.txns w [], db.released w, db.held_released w⟩

/-- Publish a session's changes in statement order and release its locks. -/
def commit (db : Db ρ η) (w : Nat) : Db ρ η :=
  ⟨(db.txns w).foldl Change.rows db.rows, db.log ++ (db.txns w).map Change.entry,
    Function.update db.txns w [], db.released w, db.held_released w⟩

/-- `UPDATE … WHERE key = k AND p`, with the log entry of the same transaction. -/
def update (db : Db ρ η) (w k : Nat) (p : ρ → Bool) (f : ρ → ρ) (e : ρ → η) : Updated ρ η :=
  match db.view w k with
  | none => .misses
  | some r =>
    if p r then
      if h : db.free w k = true then .hits r (db.write w k (f r) (e r) h) else .waits
    else .misses

/-- An update that hits has locked and rewritten a row that satisfied its condition. -/
theorem update_eq_hits {db db' : Db ρ η} {w k : Nat} {p : ρ → Bool} {f : ρ → ρ} {e : ρ → η}
    {r : ρ} (h : db.update w k p f e = .hits r db') :
    db.view w k = some r ∧ p r = true ∧
      ∃ hfree, db' = db.write w k (f r) (e r) hfree := by
  unfold update at h
  split at h
  · cases h
  · next r' hr =>
    split at h
    · next hp =>
      split at h
      · next hfree =>
        cases h
        exact ⟨hr, hp, hfree, rfl⟩
      · cases h
    · cases h

/-- Before its first change a session sees the committed rows. -/
theorem view_of_txns_eq_nil {db : Db ρ η} {w : Nat} (h : db.txns w = []) (k : Nat) :
    db.view w k = db.rows[k]? := by
  rw [view, h, List.foldl_nil]

@[simp] theorem rows_write (db : Db ρ η) (w k : Nat) (r : ρ) (e : η) (h : db.free w k = true) :
    (db.write w k r e h).rows = db.rows := rfl

@[simp] theorem log_write (db : Db ρ η) (w k : Nat) (r : ρ) (e : η) (h : db.free w k = true) :
    (db.write w k r e h).log = db.log := rfl

@[simp] theorem txns_write (db : Db ρ η) (w k : Nat) (r : ρ) (e : η) (h : db.free w k = true) :
    (db.write w k r e h).txns = Function.update db.txns w (db.txns w ++ [.write k r e]) := rfl

@[simp] theorem rows_insert (db : Db ρ η) (w : Nat) (r : ρ) (e : η) :
    (db.insert w r e).rows = db.rows := rfl

@[simp] theorem log_insert (db : Db ρ η) (w : Nat) (r : ρ) (e : η) :
    (db.insert w r e).log = db.log := rfl

@[simp] theorem txns_insert (db : Db ρ η) (w : Nat) (r : ρ) (e : η) :
    (db.insert w r e).txns = Function.update db.txns w (db.txns w ++ [.insert r e]) := rfl

@[simp] theorem rows_rollback (db : Db ρ η) (w : Nat) : (db.rollback w).rows = db.rows := rfl

@[simp] theorem log_rollback (db : Db ρ η) (w : Nat) : (db.rollback w).log = db.log := rfl

@[simp] theorem txns_rollback (db : Db ρ η) (w : Nat) :
    (db.rollback w).txns = Function.update db.txns w [] := rfl

@[simp] theorem rows_commit (db : Db ρ η) (w : Nat) :
    (db.commit w).rows = (db.txns w).foldl Change.rows db.rows := rfl

@[simp] theorem log_commit (db : Db ρ η) (w : Nat) :
    (db.commit w).log = db.log ++ (db.txns w).map Change.entry := rfl

@[simp] theorem txns_commit (db : Db ρ η) (w : Nat) :
    (db.commit w).txns = Function.update db.txns w [] := rfl

end Db

/-- Every row comes by `R` from the row that its place started with. -/
structure Descends (R : ρ → ρ → Prop) (o t : List ρ) : Prop where
  length : t.length = o.length
  row : ∀ (k : Nat) (r : ρ), t[k]? = some r → ∃ x, o[k]? = some x ∧ R x r

namespace Descends

variable {R : ρ → ρ → Prop} {o t : List ρ}

/-- A new version of a row. -/
theorem set (h : Descends R o t) {k : Nat} {r r' : ρ} (row : t[k]? = some r)
    (hR : ∀ x, R x r → R x r') : Descends R o (t.set k r') := by
  refine ⟨by rw [List.length_set, h.length], fun i u hu => ?_⟩
  by_cases hi : i = k
  · subst hi
    rw [List.getElem?_set_self (List.getElem?_eq_some_iff.mp row).1] at hu
    obtain ⟨x, hx, hxr⟩ := h.row i r row
    exact ⟨x, hx, Option.some.inj hu ▸ hR x hxr⟩
  · rw [List.getElem?_set_ne (Ne.symm hi)] at hu
    exact h.row i u hu

/-- A new row. -/
theorem append (h : Descends R o t) {r : ρ} (hR : R r r) :
    Descends R (o ++ [r]) (t ++ [r]) := by
  refine ⟨by simp [h.length], fun i u hu => ?_⟩
  by_cases hi : i < t.length
  · rw [List.getElem?_append_left hi] at hu
    obtain ⟨x, hx, hxu⟩ := h.row i u hu
    exact ⟨x, by rw [List.getElem?_append_left (h.length ▸ hi)]; exact hx, hxu⟩
  · rw [List.getElem?_append_right (Nat.le_of_not_lt hi)] at hu
    obtain rfl := List.mem_singleton.mp (List.mem_of_getElem? hu)
    rw [List.getElem?_append_right (h.length ▸ Nat.le_of_not_lt hi), ← h.length]
    exact ⟨u, hu, hR⟩

end Descends

/-! ### Grounded changes -/

/-- Every write of the changes replaces a row that the rows at hand, with the earlier
changes applied, show; `W` relates the two versions and the entry, `N` holds of new rows. -/
inductive Grounded (W : Nat → ρ → ρ → η → Prop) (N : ρ → η → Prop) :
    (Nat → Option ρ) → List (Change ρ η) → Prop where
  | nil {f : Nat → Option ρ} : Grounded W N f []
  | write {f : Nat → Option ρ} {k : Nat} {r r' : ρ} {e : η} {cs : List (Change ρ η)}
      (row : f k = some r) (written : W k r r' e)
      (rest : Grounded W N (Function.update f k (some r')) cs) :
      Grounded W N f (.write k r' e :: cs)
  | insert {f : Nat → Option ρ} {r : ρ} {e : η} {cs : List (Change ρ η)} (fresh : N r e)
      (rest : Grounded W N f cs) : Grounded W N f (.insert r e :: cs)

namespace Grounded

variable {W : Nat → ρ → ρ → η → Prop} {N : ρ → η → Prop} {f g : Nat → Option ρ}
  {cs : List (Change ρ η)}

/-- The first write is a write of a row at hand. -/
theorem head {k : Nat} {r' : ρ} {e : η} (h : Grounded W N f (.write k r' e :: cs)) :
    ∃ r, f k = some r ∧ W k r r' e := by
  cases h with
  | write row written _ => exact ⟨_, row, written⟩

/-- Only the rows that the changes lock matter. -/
theorem mono (h : Grounded W N f cs)
    (hfg : ∀ c ∈ cs, ∀ k, c.key = some k → ∀ r, f k = some r → g k = some r) :
    Grounded W N g cs := by
  induction h generalizing g with
  | nil => exact .nil
  | @write f k r r' e cs row written rest ih =>
    refine .write (hfg _ List.mem_cons_self k rfl r row) written (ih ?_)
    intro c hc i hi x hx
    by_cases hik : i = k
    · subst hik
      rwa [Function.update_self] at hx ⊢
    · rw [Function.update_of_ne hik] at hx ⊢
      exact hfg c (List.mem_cons_of_mem _ hc) i hi x hx
  | insert fresh rest ih =>
    exact .insert fresh (ih fun c hc => hfg c (List.mem_cons_of_mem _ hc))

/-- One more write of a row as the transaction sees it. -/
theorem concat_write (h : Grounded W N f cs) {k : Nat} {r r' : ρ} {e : η}
    (row : cs.foldl Change.view f k = some r) (written : W k r r' e) :
    Grounded W N f (cs ++ [.write k r' e]) := by
  induction h with
  | nil => exact .write row written .nil
  | write row' written' _ ih => exact .write row' written' (ih row)
  | insert fresh _ ih => exact .insert fresh (ih row)

/-- One more new row. -/
theorem concat_insert (h : Grounded W N f cs) {r : ρ} {e : η} (fresh : N r e) :
    Grounded W N f (cs ++ [.insert r e]) := by
  induction h with
  | nil => exact .insert fresh .nil
  | write row written _ ih => exact .write row written ih
  | insert fresh' _ ih => exact .insert fresh' ih

/-- What is known of every change strengthens the relation of its rows. -/
theorem strengthen {W' : Nat → ρ → ρ → η → Prop} {N' : ρ → η → Prop} {Q : Change ρ η → Prop}
    (h : Grounded W N f cs) (hq : ∀ c ∈ cs, Q c)
    (hW : ∀ k r r' e, W k r r' e → Q (.write k r' e) → W' k r r' e)
    (hN : ∀ r e, N r e → Q (.insert r e) → N' r e) : Grounded W' N' f cs := by
  induction h with
  | nil => exact .nil
  | write row written _ ih =>
    exact .write row (hW _ _ _ _ written (hq _ List.mem_cons_self))
      (ih fun c hc => hq c (List.mem_cons_of_mem _ hc))
  | insert fresh _ ih =>
    exact .insert (hN _ _ fresh (hq _ List.mem_cons_self))
      (ih fun c hc => hq c (List.mem_cons_of_mem _ hc))

/-- Two relations that ground the same changes. -/
theorem and {W' : Nat → ρ → ρ → η → Prop} {N' : ρ → η → Prop} (h : Grounded W N f cs)
    (h' : Grounded W' N' f cs) :
    Grounded (fun k r r' e => W k r r' e ∧ W' k r r' e) (fun r e => N r e ∧ N' r e) f cs := by
  induction h with
  | nil => exact .nil
  | write row written _ ih =>
    cases h' with
    | write row' written' rest' =>
      obtain rfl := Option.some.inj (row.symm.trans row')
      exact .write row ⟨written, written'⟩ (ih rest')
  | insert fresh _ ih =>
    cases h' with
    | insert fresh' rest' => exact .insert ⟨fresh, fresh'⟩ (ih rest')

/-- Rows at hand stay committed rows under a write. -/
theorem view_set {t : List ρ} (hf : ∀ k r, f k = some r → t[k]? = some r) {k : Nat}
    {r : ρ} (row : f k = some r) (r' : ρ) :
    ∀ i x, Function.update f k (some r') i = some x → (t.set k r')[i]? = some x := by
  intro i x hx
  have hk : k < t.length := (List.getElem?_eq_some_iff.mp (hf k r row)).1
  by_cases hik : i = k
  · subst hik
    rw [Function.update_self] at hx
    rw [List.getElem?_set_self hk, hx]
  · rw [Function.update_of_ne hik] at hx
    rw [List.getElem?_set_ne (Ne.symm hik)]
    exact hf i x hx

/-- Rows at hand stay committed rows under an insert. -/
theorem view_append {t : List ρ} (hf : ∀ k r, f k = some r → t[k]? = some r) (r : ρ) :
    ∀ i x, f i = some x → (t ++ [r])[i]? = some x := by
  intro i x hx
  have hi := hf i x hx
  rw [List.getElem?_append_left (List.getElem?_eq_some_iff.mp hi).1]
  exact hi

/-- What every single write and insert preserves, the commit of all of them preserves. -/
theorem commit_induction {P : List ρ → List η → Prop}
    (hw : ∀ t l k r r' e, P t l → t[k]? = some r → W k r r' e → P (t.set k r') (l ++ [e]))
    (hn : ∀ t l r e, P t l → N r e → P (t ++ [r]) (l ++ [e])) {t : List ρ} {l : List η}
    (h : Grounded W N f cs) (hf : ∀ k r, f k = some r → t[k]? = some r) (hp : P t l) :
    P (cs.foldl Change.rows t) (l ++ cs.map Change.entry) := by
  induction h generalizing t l with
  | nil => simpa using hp
  | @write f k r r' e cs row written rest ih =>
    have htail := ih (view_set hf row r') (hw t l k r r' e hp (hf k r row) written)
    rwa [List.append_assoc] at htail
  | @insert f r e cs fresh rest ih =>
    have htail := ih (view_append hf r) (hn t l r e hp fresh)
    rwa [List.append_assoc] at htail

/-- Every row descends from the one that its place started with, new rows from themselves. -/
theorem descends {R : ρ → ρ → Prop} (hw : ∀ k o r r' e, R o r → W k r r' e → R o r')
    (hn : ∀ r e, N r e → R r r) {t o : List ρ} (h : Grounded W N f cs)
    (hf : ∀ k r, f k = some r → t[k]? = some r) (hR : Descends R o t) :
    Descends R (o ++ cs.filterMap Change.added) (cs.foldl Change.rows t) := by
  induction h generalizing t o with
  | nil => simpa using hR
  | @write f k r r' e cs row written rest ih =>
    exact ih (view_set hf row r') (hR.set (hf k r row) fun x hx => hw k x r r' e hx written)
  | @insert f r e cs fresh rest ih =>
    have htail := ih (view_append hf r) (hR.append (hn r e fresh))
    rwa [List.append_assoc] at htail

end Grounded

/-- A row that no change locks keeps its value. -/
theorem foldl_rows_frame {cs : List (Change ρ η)} {t : List ρ} {k : Nat} {r : ρ}
    (h : ∀ c ∈ cs, c.key ≠ some k) (hr : t[k]? = some r) :
    (cs.foldl Change.rows t)[k]? = some r := by
  induction cs generalizing t with
  | nil => exact hr
  | cons c cs ih =>
    apply ih fun c' hc' => h c' (List.mem_cons_of_mem c hc')
    cases c with
    | write i r' e =>
      have hne : i ≠ k := fun hik => h _ List.mem_cons_self (congrArg some hik)
      show (t.set i r')[k]? = some r
      rw [List.getElem?_set_ne hne]
      exact hr
    | insert r' e =>
      show (t ++ [r'])[k]? = some r
      rw [List.getElem?_append_left (List.getElem?_eq_some_iff.mp hr).1]
      exact hr

private theorem rows_of_not_mem_keys {cs : List (Change ρ η)} {t : List ρ} {k : Nat} {r : ρ}
    (h : k ∉ cs.filterMap Change.key) (hr : t[k]? = some r) :
    (cs.foldl Change.rows t)[k]? = some r :=
  foldl_rows_frame (fun c hc hkey => h (List.mem_filterMap.mpr ⟨c, hc, hkey⟩)) hr

namespace Grounded

variable {W : Nat → ρ → ρ → η → Prop} {N : ρ → η → Prop} {f : Nat → Option ρ}
  {cs : List (Change ρ η)} {P Q : ρ → Prop}

private theorem starts (hW : ∀ k r r' e, W k r r' e → P r) (h : Grounded W N f cs) {k : Nat}
    (hk : k ∈ cs.filterMap Change.key) : ∃ r, f k = some r ∧ P r := by
  induction h with
  | nil => cases hk
  | @write f i r r' e cs row written rest ih =>
    by_cases hik : k = i
    · exact hik ▸ ⟨r, row, hW i r r' e written⟩
    · obtain ⟨x, hx, hp⟩ := ih ((List.mem_cons.mp hk).resolve_left hik)
      rw [Function.update_of_ne hik] at hx
      exact ⟨x, hx, hp⟩
  | insert _ _ ih => exact ih hk

private theorem ends (hW : ∀ k r r' e, W k r r' e → Q r') (h : Grounded W N f cs) {t : List ρ}
    (hf : ∀ k r, f k = some r → t[k]? = some r) {k : Nat}
    (hk : k ∈ cs.filterMap Change.key) :
    ∃ r, (cs.foldl Change.rows t)[k]? = some r ∧ Q r := by
  induction h generalizing t with
  | nil => cases hk
  | @write f i r r' e cs row written rest ih =>
    by_cases hrest : k ∈ cs.filterMap Change.key
    · exact ih (view_set hf row r') hrest
    · obtain rfl : k = i := (List.mem_cons.mp hk).resolve_right hrest
      show ∃ x, (cs.foldl Change.rows (t.set k r'))[k]? = some x ∧ Q x
      refine ⟨r', rows_of_not_mem_keys hrest ?_, hW k r r' e written⟩
      exact List.getElem?_set_self (List.getElem?_eq_some_iff.mp (hf k r row)).1
  | insert _ _ ih => exact ih (view_append hf _) hk

/-- A row outside `Q` stays there unless a write brings it to `Q`. -/
theorem not_reached (hW : ∀ k r r' e, W k r r' e → ¬ Q r') {t : List ρ}
    (h : Grounded W N (fun k => t[k]?) cs) {k : Nat} {r r' : ρ} (hr : t[k]? = some r)
    (hq : ¬ Q r) (hr' : (cs.foldl Change.rows t)[k]? = some r') : ¬ Q r' := by
  by_cases hk : k ∈ cs.filterMap Change.key
  · obtain ⟨x, hx, hxq⟩ := ends hW h (fun _ _ hr => hr) hk
    exact Option.some.inj (hx.symm.trans hr') ▸ hxq
  · exact Option.some.inj ((rows_of_not_mem_keys hk hr).symm.trans hr') ▸ hq

/-- Without inserts every change writes a row. -/
theorem length_keys (hN : ∀ r e, ¬ N r e) (h : Grounded W N f cs) :
    (cs.filterMap Change.key).length = cs.length := by
  induction h with
  | nil => rfl
  | write _ _ _ ih => exact congrArg Nat.succ ih
  | insert fresh _ _ => exact absurd fresh (hN _ _)

/-- Writes that all take their rows from `P` to `Q` write each row once. -/
theorem keys_nodup (hW : ∀ k r r' e, W k r r' e → P r ∧ Q r') (hPQ : ∀ r, P r → ¬ Q r)
    (h : Grounded W N f cs) : (cs.filterMap Change.key).Nodup := by
  induction h with
  | nil => exact List.nodup_nil
  | @write f i r r' e cs row written rest ih =>
    refine List.nodup_cons.mpr ⟨fun hi => ?_, ih⟩
    obtain ⟨x, hx, hp⟩ := starts (fun k r r' e hw => (hW k r r' e hw).1) rest hi
    rw [Function.update_self] at hx
    exact hPQ x hp (Option.some.inj hx ▸ (hW i r r' e written).2)
  | insert _ _ ih => exact ih

/-- Writes that all take their rows from `P` to `Q` write the rows that change so. -/
theorem mem_keys_iff (hW : ∀ k r r' e, W k r r' e → P r ∧ Q r') (hPQ : ∀ r, P r → ¬ Q r)
    {t : List ρ} (h : Grounded W N (fun k => t[k]?) cs) (k : Nat) :
    k ∈ cs.filterMap Change.key ↔ (∃ r, t[k]? = some r ∧ P r) ∧
      ∃ r, (cs.foldl Change.rows t)[k]? = some r ∧ Q r := by
  constructor
  · intro hk
    exact ⟨starts (fun k r r' e hw => (hW k r r' e hw).1) h hk,
      ends (fun k r r' e hw => (hW k r r' e hw).2) h (fun _ _ hr => hr) hk⟩
  · rintro ⟨⟨r, hr, hp⟩, r', hr', hq⟩
    by_contra hk
    obtain rfl := Option.some.inj ((rows_of_not_mem_keys hk hr).symm.trans hr')
    exact hPQ r hp hq

end Grounded

namespace Db

variable {W : Nat → ρ → ρ → η → Prop} {N : ρ → η → Prop}

/-- Every session's changes are grounded in the committed rows. -/
def Grounded (W : Nat → ρ → ρ → η → Prop) (N : ρ → η → Prop) (db : Db ρ η) : Prop :=
  ∀ w, Base.Grounded W N (fun k => db.rows[k]?) (db.txns w)

/-- No session, no changes. -/
theorem grounded_ofRows (rows : List ρ) : Grounded W N (ofRows rows : Db ρ η) := fun _ => .nil

/-- A write of the row that its session sees. -/
theorem Grounded.write {db : Db ρ η} (h : db.Grounded W N) {w k : Nat} {r r' : ρ} {e : η}
    (row : db.view w k = some r) (written : W k r r' e) (hfree : db.free w k = true) :
    (db.write w k r' e hfree).Grounded W N :=
  (Function.forall_update_iff _ fun _ cs => Base.Grounded W N (fun k => db.rows[k]?) cs).mpr
    ⟨(h w).concat_write row written, fun v _ => h v⟩

/-- A new row. -/
theorem Grounded.insert {db : Db ρ η} (h : db.Grounded W N) (w : Nat) {r : ρ} {e : η}
    (fresh : N r e) : (db.insert w r e).Grounded W N :=
  (Function.forall_update_iff _ fun _ cs => Base.Grounded W N (fun k => db.rows[k]?) cs).mpr
    ⟨(h w).concat_insert fresh, fun v _ => h v⟩

/-- A rollback. -/
theorem Grounded.rollback {db : Db ρ η} (h : db.Grounded W N) (w : Nat) :
    (db.rollback w).Grounded W N :=
  (Function.forall_update_iff _ fun _ cs => Base.Grounded W N (fun k => db.rows[k]?) cs).mpr
    ⟨.nil, fun v _ => h v⟩

/-- A commit leaves the rows that other sessions have locked as they are. -/
theorem commit_frame {db : Db ρ η} {v w k : Nat} (hv : v ≠ w) {c : Change ρ η}
    (hc : c ∈ db.txns v) (hk : c.key = some k) {r : ρ} (hr : db.rows[k]? = some r) :
    (db.commit w).rows[k]? = some r := by
  apply foldl_rows_frame _ hr
  intro c' hc' hk'
  have hv' := db.held v c hc k hk
  have hw' := db.held w c' hc' k hk'
  exact hv (Option.some.inj (hv'.symm.trans hw'))

/-- A commit. -/
theorem Grounded.commit {db : Db ρ η} (h : db.Grounded W N) (w : Nat) :
    (db.commit w).Grounded W N := by
  apply (Function.forall_update_iff _ fun _ cs =>
    Base.Grounded W N (fun k => (db.commit w).rows[k]?) cs).mpr
  refine ⟨.nil, fun v hv => ?_⟩
  apply (h v).mono
  intro c hc k hk r hr
  exact commit_frame hv hc hk hr

/-- A commit preserves what each of its writes and inserts preserves. -/
theorem Grounded.commit_induction {db : Db ρ η} (h : db.Grounded W N) (w : Nat)
    {P : List ρ → List η → Prop}
    (hw : ∀ t l k r r' e, P t l → t[k]? = some r → W k r r' e → P (t.set k r') (l ++ [e]))
    (hn : ∀ t l r e, P t l → N r e → P (t ++ [r]) (l ++ [e])) (hp : P db.rows db.log) :
    P (db.commit w).rows (db.commit w).log :=
  Base.Grounded.commit_induction hw hn (h w) (fun _ _ hr => hr) hp

/-! ### A session that runs alone -/

/-- No other session holds a lock, and the session sees what its commit would leave. -/
structure Solo (db : Db ρ η) (w : Nat) : Prop where
  free : ∀ k, db.free w k = true
  view : ∀ k, db.view w k = (db.commit w).rows[k]?

/-- A session without changes runs alone if no row is locked against it. -/
theorem solo_of_txns_eq_nil {db : Db ρ η} {w : Nat} (h : ∀ k, db.free w k = true)
    (hw : db.txns w = []) : db.Solo w where
  free := h
  view k := by rw [view_of_txns_eq_nil hw, rows_commit, hw, List.foldl_nil]

/-- A write of a session that runs alone. -/
theorem Solo.write {db : Db ρ η} {w k : Nat} (h : db.Solo w) {r : ρ}
    (hr : (db.commit w).rows[k]? = some r) (r' : ρ) (e : η) (hfree : db.free w k = true) :
    (db.write w k r' e hfree).Solo w ∧
      ((db.write w k r' e hfree).commit w).rows = (db.commit w).rows.set k r' ∧
      ((db.write w k r' e hfree).commit w).log = (db.commit w).log ++ [e] := by
  have hrows : ((db.write w k r' e hfree).commit w).rows = (db.commit w).rows.set k r' := by
    simp [List.foldl_append, Change.rows]
  have hk : k < (db.commit w).rows.length := (List.getElem?_eq_some_iff.mp hr).1
  refine ⟨⟨fun i => ?_, fun i => ?_⟩, hrows, by simp [Change.entry]⟩
  · have hi := h.free i
    simp only [Db.free, Db.write] at hi ⊢
    by_cases hik : i = k
    · simp [hik]
    · rwa [Function.update_of_ne hik]
  · rw [hrows, Db.view, txns_write, Function.update_self, List.foldl_append]
    show Function.update (db.view w) k (some r') i = _
    by_cases hik : i = k
    · rw [hik, Function.update_self, List.getElem?_set_self hk]
    · rw [Function.update_of_ne hik, List.getElem?_set_ne (Ne.symm hik), h.view]

/-- An update of a session that runs alone hits exactly if the row that its commit would
leave satisfies the condition. -/
theorem Solo.update {db : Db ρ η} {w : Nat} (h : db.Solo w) (k : Nat) (p : ρ → Bool) (f : ρ → ρ)
    (e : ρ → η) :
    (∃ r db', (db.commit w).rows[k]? = some r ∧ p r = true ∧ db.update w k p f e = .hits r db' ∧
        db'.Solo w ∧ (db'.commit w).rows = (db.commit w).rows.modify k f ∧
        (db'.commit w).log = (db.commit w).log ++ [e r]) ∨
      db.update w k p f e = .misses ∧ ((db.commit w).rows[k]?).any p = false := by
  have hview := h.view k
  unfold Db.update
  rw [hview]
  cases hr : (db.commit w).rows[k]? with
  | none => exact Or.inr ⟨rfl, rfl⟩
  | some r =>
    by_cases hp : p r = true
    · have hfree := h.free k
      obtain ⟨hsolo, hrows, hlog⟩ := h.write hr (f r) (e r) hfree
      refine Or.inl ⟨r, _, rfl, hp, ?_, hsolo, ?_, hlog⟩
      · simp only [hp, hfree, if_true, dite_true]
      · rw [hrows, Table.modify_eq_set hr]
    · exact Or.inr ⟨if_neg hp, by simpa using hp⟩

end Db

end Orchestrator.Base
