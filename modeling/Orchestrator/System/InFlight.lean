import Orchestrator.System.Evolution

/-!
# Attempts in flight

A worker that holds an attempt holds the row's own counters, the row is not scheduled,
and no other worker holds an attempt of the task. So a retry is decided by the attempts
that the row has left, and a task that is neither scheduled nor in flight with attempts
left is never claimed again.
-/

namespace Orchestrator.System

open Base Domain Orchestration Workers

/-- The attempts that workers hold agree with the rows and exclude each other. -/
structure InFlight (s : Sys) : Prop where
  copy : ∀ w k c, s.attempt w = some (k, c) → ∃ t, s.store.outreachTasks[k]? = some t ∧
    t.status ≠ .scheduled ∧ t.attemptCount = c.attemptCount ∧ t.maxAttempts = c.maxAttempts
  alone : ∀ v w k c c', s.attempt v = some (k, c) → s.attempt w = some (k, c') → v = w

/-- A task that a worker may still claim: scheduled, or in flight with attempts left. -/
def Live (t : OutreachTask) : Prop :=
  t.status = .scheduled ∨ t.status = .dispatching ∧ t.attemptCount < t.maxAttempts

instance (t : OutreachTask) : Decidable (Live t) := inferInstanceAs (Decidable (_ ∨ _))

/-- Cancelling scheduled tasks and appending new ones leaves every other task. -/
private theorem getElem?_cancelWhere {p : OutreachTask → Bool}
    (hp : ∀ t, p t = true → t.status = .scheduled) {tasks : List OutreachTask} {k : Nat}
    {t : OutreachTask} (ht : tasks[k]? = some t) (hne : t.status ≠ .scheduled)
    (ts : List OutreachTask) : (tasks.map (OutreachTask.cancelWhere p) ++ ts)[k]? = some t := by
  have hk := (List.getElem?_eq_some_iff.mp ht).1
  have hnot : p t ≠ true := fun h => hne (hp t h)
  rw [List.getElem?_append_left (by simpa using hk), List.getElem?_map, ht]
  simp [OutreachTask.cancelWhere, hnot]

/-- A task that is not scheduled is only changed by the worker that holds it or by hand. -/
theorem Step.unscheduled {rt : Runtime} {s s' : Sys} {op : Op} (hs : WellFormed s.store)
    (h : Step rt s op s') {k : Nat} {t : OutreachTask} (ht : s.store.outreachTasks[k]? = some t)
    (hne : t.status ≠ .scheduled) :
    s'.store.outreachTasks[k]? = some t ∨
      (∃ w outcome config queue copy t' a, op = .settle w outcome ∧
        s.passes w = some ⟨config, queue, some (k, copy)⟩ ∧ t.status = .dispatching ∧
        Settlement config k copy t outcome t' a ∧ s'.store.outreachTasks[k]? = some t') ∨
      ∃ loaded body, op = .recordDeliveryResult k loaded body ∧
        s'.store.outreachTasks[k]? = some (manualWrite body t) := by
  have hk := (List.getElem?_eq_some_iff.mp ht).1
  cases h with
  | idle store _ _ => exact Or.inl (by rwa [store])
  | @claimed worker taskId config queue old pass row hdue =>
    have hne' : taskId ≠ k := by
      rintro rfl
      obtain rfl : old = t := Option.some.inj (row.symm.trans ht)
      exact hne (scheduled_of_due hdue)
    exact Or.inl (by simp [writeRow, hne', ht])
  | @settled worker taskId config queue copy old new outcome a pass row hd hw =>
    by_cases he : taskId = k
    · subst he
      obtain rfl : old = t := Option.some.inj (row.symm.trans ht)
      exact Or.inr (Or.inl ⟨worker, outcome, config, queue, copy, new, a, rfl, pass, hd, hw,
        by simp [writeRow, hk]⟩)
    · exact Or.inl (by simp [writeRow, he, ht])
  | ingested h =>
    obtain ⟨p, ts, hp, he⟩ := (ingestEventSnapshot_ingested hs h).outreachTasks
    exact Or.inl (by rw [store_commit, he]; exact getElem?_cancelWhere hp ht hne ts)
  | @recorded taskId loaded body old row hallowed =>
    by_cases he : taskId = k
    · subst he
      obtain rfl : old = t := Option.some.inj (row.symm.trans ht)
      exact Or.inr (Or.inr ⟨loaded, body, rfl, by simp [writeRow, hk]⟩)
    · exact Or.inl (by simp [writeRow, he, ht])
  | @operatorCancelled _ _ _ accountId account key row =>
    refine Or.inl ?_
    rw [store_commit, cancelScheduledAccountOutreach_eq]
    have h := getElem?_cancelWhere (fun _ => operatorCancellable_scheduled accountId) ht hne []
    rwa [List.append_nil] at h

section

variable {rt : Runtime} {s s' : Sys} {worker taskId : Nat} {config : PassConfig} {queue : List Nat}

/-- Dropping attempts keeps the others consistent. -/
private theorem InFlight.drop (hf : InFlight s) (hstore : s'.store = s.store)
    (hattempt : ∀ w, s'.attempt w = none ∨ s'.attempt w = s.attempt w) : InFlight s' := by
  have hold {w k c} (hw : s'.attempt w = some (k, c)) : s.attempt w = some (k, c) := by
    rcases hattempt w with h | h
    · rw [h] at hw
      cases hw
    · rw [← h, hw]
  constructor
  · intro w k c hw
    rw [hstore]
    exact hf.copy w k c (hold hw)
  · intro v w k c c' hv hw
    exact hf.alone v w k c c' (hold hv) (hold hw)

/-- A claim puts one attempt in flight, of a task that no worker held. -/
private theorem InFlight.claim (hf : InFlight s) {t : OutreachTask}
    (hrow : s.store.outreachTasks[taskId]? = some t) (hdue : due config.now t = true) :
    InFlight ((s.commit (writeRow s.store taskId (claimWrite t)
      (dispatchStarted config.workerId taskId (claimWrite t)))).setPass worker
        (some ⟨config, queue, some (taskId, claimWrite t)⟩)) := by
  have hlen := (List.getElem?_eq_some_iff.mp hrow).1
  -- no attempt of the claimed task was in flight, because its row was scheduled
  have hfree {w k c} (hw : s.attempt w = some (k, c)) : k ≠ taskId := by
    rintro rfl
    obtain ⟨t', ht', hne, -⟩ := hf.copy w _ c hw
    obtain rfl : t = t' := Option.some.inj (hrow.symm.trans ht')
    exact hne (scheduled_of_due hdue)
  constructor
  · intro w k c hw
    simp only [attempt_setPass, attempt_commit, Option.bind_some] at hw
    split at hw
    · cases hw
      exact ⟨claimWrite t, by simp [writeRow, hlen], by simp [claimWrite], rfl, rfl⟩
    · obtain ⟨t', ht', hrest⟩ := hf.copy w k c hw
      exact ⟨t', by simpa [writeRow, Ne.symm (hfree hw)] using ht', hrest⟩
  · intro v w k c c' hv hw
    simp only [attempt_setPass, attempt_commit, Option.bind_some] at hv hw
    split at hv <;> split at hw
    · next hv' hw' => rw [hv', hw']
    · cases hv
      exact absurd rfl (hfree hw)
    · cases hw
      exact absurd rfl (hfree hv)
    · exact hf.alone v w k c c' hv hw

/-- A settlement ends the attempt of the task that it writes. -/
private theorem InFlight.settle (hf : InFlight s) {copy t' : OutreachTask} {a : AuditEvent}
    (hpass : s.passes worker = some ⟨config, queue, some (taskId, copy)⟩) :
    InFlight ((s.commit (writeRow s.store taskId t' a)).setPass worker
      (some ⟨config, queue, none⟩)) := by
  have hmine : s.attempt worker = some (taskId, copy) := by simp [Sys.attempt, hpass]
  constructor
  · intro w k c hc
    simp only [attempt_setPass, attempt_commit, Option.bind_some] at hc
    split at hc
    · cases hc
    · next hne =>
      have hk : taskId ≠ k := by
        rintro rfl
        exact hne (hf.alone w worker _ c copy hc hmine)
      obtain ⟨u, hu, hrest⟩ := hf.copy w k c hc
      exact ⟨u, by simpa [writeRow, hk] using hu, hrest⟩
  · intro v w k c c' hv hw
    simp only [attempt_setPass, attempt_commit, Option.bind_some] at hv hw
    split at hv
    · cases hv
    · split at hw
      · cases hw
      · exact hf.alone v w k c c' hv hw

/-- A step outside the passes keeps the attempts in flight consistent. -/
private theorem InFlight.outside (hf : InFlight s) (hs : WellFormed s.store) {op : Op}
    (h : Step rt s op s') (hop : ∀ w outcome, op ≠ .settle w outcome)
    (hattempt : ∀ w, s'.attempt w = s.attempt w) : InFlight s' := by
  constructor
  · intro w k c hw
    rw [hattempt] at hw
    obtain ⟨t, ht, hne, hcount, hmax⟩ := hf.copy w k c hw
    rcases h.unscheduled hs ht hne with h | ⟨_, _, _, _, _, _, _, rfl, -⟩ | ⟨_, body, -, h⟩
    · exact ⟨t, h, hne, hcount, hmax⟩
    · exact absurd rfl (hop _ _)
    · refine ⟨manualWrite body t, h, ?_, hcount, hmax⟩
      cases hb : body.status <;> simp [manualWrite, DeliveryStatus.toStatus, hb]
  · intro v w k c c' hv hw
    rw [hattempt] at hv hw
    exact hf.alone v w k c c' hv hw

end

/-- Every step keeps the attempts in flight consistent. -/
theorem step_inFlight (rt : Runtime) (s : Sys) (op : Op) (hs : WellFormed s.store)
    (hf : InFlight s) : InFlight (step rt s op) := by
  have hstep := step_spec rt s op
  generalize step rt s op = s' at hstep ⊢
  have hrest := hf.outside hs hstep
  cases hstep with
  | idle store _ attempt => exact hf.drop store attempt
  | claimed _ row hdue => exact hf.claim row hdue
  | settled pass _ _ _ => exact hf.settle pass
  | ingested _ => exact hrest (fun _ _ => by simp) fun _ => rfl
  | recorded _ _ => exact hrest (fun _ _ => by simp) fun _ => rfl
  | operatorCancelled _ _ => exact hrest (fun _ _ => by simp) fun _ => rfl

/-- The references of the store and the attempts in flight, together. -/
def Sound (s : Sys) : Prop := WellFormed s.store ∧ InFlight s

/-- Every step keeps a state sound. -/
theorem step_sound (rt : Runtime) (s : Sys) (op : Op) (h : Sound s) : Sound (step rt s op) :=
  ⟨step_wellFormed rt s op h.1, step_inFlight rt s op h.1 h.2⟩

/-- The first state is sound. -/
theorem sound_start (clock : Int) : Sound (start clock) :=
  ⟨wellFormed_empty, by constructor <;> simp [start, Sys.attempt]⟩

/-- Every reachable state is sound. -/
theorem run_sound (rt : Runtime) (clock : Int) (ops : List Op) :
    Sound (run (step rt) (start clock) ops) :=
  run_invariant (step_sound rt) (start clock) (sound_start clock) ops

/-- A task that is not live stays so. -/
theorem step_not_live (rt : Runtime) (s : Sys) (op : Op) (h : Sound s) {k : Nat}
    {t : OutreachTask} (ht : s.store.outreachTasks[k]? = some t) (hl : ¬ Live t) :
    ∃ t', (step rt s op).store.outreachTasks[k]? = some t' ∧ ¬ Live t' := by
  have hne : t.status ≠ .scheduled := fun he => hl (Or.inl he)
  rcases (step_spec rt s op).unscheduled h.1 ht hne with
    hk | ⟨w, outcome, config, queue, copy, t', a, -, hp, hd, hw, hk⟩ | ⟨loaded, body, -, hk⟩
  · exact ⟨t, hk, hl⟩
  · refine ⟨t', hk, ?_⟩
    obtain ⟨u, hu, -, hcount, hmax⟩ := h.2.copy w k copy (by simp [Sys.attempt, hp])
    obtain rfl : t = u := Option.some.inj (ht.symm.trans hu)
    cases hw with
    | success result => simp [Live, successWrite]
    | failure error =>
      -- the copy has the row's counters, so no attempt is left and the task has failed
      have hlast : willRetry copy = false := by
        rw [willRetry, decide_eq_false_iff_not, ← hcount, ← hmax]
        exact fun hlt => hl (Or.inr ⟨hd, hlt⟩)
      simp [Live, failureWrite, finalStatus, hlast]
  · refine ⟨_, hk, ?_⟩
    cases hb : body.status <;> simp [Live, manualWrite, DeliveryStatus.toStatus, hb]

/-- A task that is not live stays so throughout every run. -/
theorem run_not_live (rt : Runtime) (s : Sys) (h : Sound s) {k : Nat} {t : OutreachTask}
    (ht : s.store.outreachTasks[k]? = some t) (hl : ¬ Live t) (ops : List Op) :
    ∃ t', (run (step rt) s ops).store.outreachTasks[k]? = some t' ∧ ¬ Live t' := by
  have hrun := @run_invariant _ _ (step rt) (fun s => Sound s ∧
    ∃ t', s.store.outreachTasks[k]? = some t' ∧ ¬ Live t') ?_ s ⟨h, t, ht, hl⟩ ops
  · exact hrun.2
  · rintro s op ⟨h, t', ht', hl'⟩
    exact ⟨step_sound rt s op h, step_not_live rt s op h ht' hl'⟩

/-- A task that is claimed in some state of a run was live in every earlier one. -/
theorem live_of_claimed {rt : Runtime} {s : Sys} (h : Sound s) {ops : List Op} {op : Op}
    {c : Claim} (hc : claimed (run (step rt) s ops) op = some c) {t : OutreachTask}
    (ht : s.store.outreachTasks[c.taskId]? = some t) : Live t := by
  by_contra hl
  obtain ⟨t', ht', hl'⟩ := run_not_live rt s h ht hl ops
  obtain ⟨_, _, _, u, -, -, -, hu, hdue, -⟩ := claimed_eq_some hc
  obtain rfl : u = t' := Option.some.inj (hu.symm.trans ht')
  exact hl' (Or.inl (scheduled_of_due hdue))

end Orchestrator.System
