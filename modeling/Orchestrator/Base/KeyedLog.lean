import Orchestrator.Base.Patch

/-!
# Tables that a log describes

A log of events, each about one key, describes a table: one row for each key, in the order
of the keys' first events, which is what the key's own events leave of a blank row. A new
event patches the described table in place, whatever the other keys' events were.
-/

namespace Orchestrator.Base.KeyedLog

universe u v w

variable {ε : Type u} {κ : Type v} {ρ : Type w} [DecidableEq κ]

/-- The keys of a log in the order of their first events. -/
def keys (key : ε → κ) (log : List ε) : List κ := (log.map key).eraseDups

/-- The events about one key. -/
def about (key : ε → κ) (x : κ) (log : List ε) : List ε := log.filter fun e => key e = x

/-- What the events about one key leave of its blank row. -/
def row (key : ε → κ) (write : ε → ρ → ρ) (blank : κ → ρ) (log : List ε) (x : κ) : ρ :=
  (about key x log).foldl (fun r e => write e r) (blank x)

/-- The table that a log describes. -/
def table (key : ε → κ) (write : ε → ρ → ρ) (blank : κ → ρ) (log : List ε) : List ρ :=
  (keys key log).map (row key write blank log)

section

variable {key : ε → κ} {write : ε → ρ → ρ} {blank blank' : κ → ρ} {col : ρ → κ} {log : List ε}

/-- The keys of a log are the keys of its events. -/
theorem mem_keys {x : κ} : x ∈ keys key log ↔ ∃ e ∈ log, key e = x := by
  rw [keys, List.mem_eraseDups, List.mem_map]

/-- A new event adds its key behind the others, once. -/
theorem keys_append (log : List ε) (e : ε) :
    keys key (log ++ [e]) =
      keys key log ++ if key e ∈ keys key log then [] else [key e] := by
  rw [keys, List.map_append, List.eraseDups_append, List.map_singleton]
  by_cases h : key e ∈ keys key log
  · rw [if_pos h]
    have hm : key e ∈ log.map key := List.mem_eraseDups.mp h
    have hnil : [key e].removeAll (log.map key) = [] := by simpa [List.removeAll] using hm
    rw [hnil, List.eraseDups_nil]
    rfl
  · rw [if_neg h]
    have hm : key e ∉ log.map key := fun hm => h (List.mem_eraseDups.mpr hm)
    have hone : [key e].removeAll (log.map key) = [key e] := by simpa [List.removeAll] using hm
    rw [hone]
    rfl

/-- A new event about a key is the last of its events. -/
theorem about_append_self (log : List ε) (e : ε) :
    about key (key e) (log ++ [e]) = about key (key e) log ++ [e] := by
  simp [about, List.filter_append]

/-- A new event is no event about another key. -/
theorem about_append_other {e : ε} {x : κ} (h : key e ≠ x) (log : List ε) :
    about key x (log ++ [e]) = about key x log := by
  simp [about, List.filter_append, h]

/-- No event is about a key outside the log. -/
theorem about_eq_nil {x : κ} (h : x ∉ keys key log) : about key x log = [] := by
  rw [about, List.filter_eq_nil_iff]
  intro e he hx
  exact h (mem_keys.mpr ⟨e, he, of_decide_eq_true hx⟩)

/-- A new event writes the row of its key. -/
theorem row_append_self (log : List ε) (e : ε) :
    row key write blank (log ++ [e]) (key e) = write e (row key write blank log (key e)) := by
  rw [row, about_append_self, List.foldl_append]
  rfl

/-- A new event leaves the row of every other key. -/
theorem row_append_other {e : ε} {x : κ} (h : key e ≠ x) (log : List ε) :
    row key write blank (log ++ [e]) x = row key write blank log x := by
  rw [row, about_append_other h, row]

/-- The row of a key outside the log is blank. -/
theorem row_eq_blank {x : κ} (h : x ∉ keys key log) : row key write blank log x = blank x := by
  rw [row, about_eq_nil h]
  rfl

/-- Every row holds its key. -/
theorem col_row (hblank : ∀ x, col (blank x) = x) (hwrite : ∀ e r, col (write e r) = col r)
    (log : List ε) (x : κ) : col (row key write blank log x) = x := by
  have hfold : ∀ (es : List ε) (r : ρ), col (es.foldl (fun r e => write e r) r) = col r := by
    intro es
    induction es with
    | nil => exact fun _ => rfl
    | cons e es ih => exact fun r => (ih (write e r)).trans (hwrite e r)
  rw [row, hfold, hblank]

/-- The table depends on the blank rows of the log's keys only. -/
theorem table_congr (h : ∀ x ∈ keys key log, blank x = blank' x) :
    table key write blank log = table key write blank' log := by
  apply List.map_congr_left
  intro x hx
  rw [row, row, h x hx]

/-- The keys of the described table are the keys of the log. -/
theorem map_col_table (hblank : ∀ x, col (blank x) = x)
    (hwrite : ∀ e r, col (write e r) = col r) (log : List ε) :
    (table key write blank log).map col = keys key log := by
  rw [table, List.map_map]
  have hid : ∀ x ∈ keys key log, (col ∘ row key write blank log) x = x := fun x _ =>
    col_row hblank hwrite log x
  rw [List.map_congr_left hid, List.map_id']

/-- The patch of a new event: the row of its key is written, in place when it exists. -/
def patch (key : ε → κ) (write : ε → ρ → ρ) (blank : κ → ρ) (col : ρ → κ) (log : List ε)
    (e : ε) : Patch ρ where
  update r := if col r = key e then write e r else r
  rows := if key e ∈ keys key log then [] else [write e (blank (key e))]

/-- A new event patches the table that the log describes. -/
theorem table_append (hblank : ∀ x, col (blank x) = x) (hwrite : ∀ e r, col (write e r) = col r)
    (log : List ε) (e : ε) :
    table key write blank (log ++ [e]) =
      (patch key write blank col log e).apply (table key write blank log) := by
  have hold : (keys key log).map (row key write blank (log ++ [e])) =
      (table key write blank log).map (patch key write blank col log e).update := by
    rw [table, List.map_map]
    apply List.map_congr_left
    intro x hx
    simp only [Function.comp_apply, patch, col_row hblank hwrite]
    by_cases hkey : x = key e
    · rw [if_pos hkey, hkey, row_append_self]
    · rw [if_neg hkey, row_append_other (Ne.symm hkey)]
  rw [Patch.apply, ← hold, table, keys_append, List.map_append]
  congr 1
  simp only [patch]
  split
  · rfl
  · next h =>
    rw [List.map_singleton, row_append_self, row_eq_blank h]

end

end Orchestrator.Base.KeyedLog
