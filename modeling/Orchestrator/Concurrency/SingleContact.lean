import Mathlib.Data.List.Count
import Orchestrator.Concurrency.StatusMachine

/-!
# One contact per claim

What the sessions guarantee about contacting a customer, under any interleaving and with
any crashes: attempts are counted by their audit rows and bounded, a claim leads to at
most one provider call, one worker at a time works on a task, and a task that was
delivered, decided by hand or cancelled is never claimed again.
-/

namespace Orchestrator.Concurrency

open Base Domain Orchestration Workers

/-! ### Provider calls -/

/-- The call that a committed claim has still to make: the task and the attempt number. -/
def Session.uncalled : Session → Option (Nat × Nat)
  | .pass _ _ (.claimed taskId task) => some (taskId, task.attemptCount)
  | _ => none

/-- No call is made twice, and each belongs to a committed claim. -/
structure Called (s : State) : Prop where
  nodup : s.calls.Nodup
  claimed : ∀ k n, (k, n) ∈ s.calls → 1 ≤ n ∧ n ≤ attemptCount s.db.rows k
  pending : ∀ w x, (s.sessions w).uncalled = some x → x ∉ s.calls

private theorem attempt_of_uncalled {p : Session} {k n : Nat} (h : p.uncalled = some (k, n)) :
    ∃ copy, p.attempt = some (k, copy) ∧ copy.attemptCount = n := by
  unfold Session.uncalled at h
  split at h
  · cases h
    exact ⟨_, rfl, rfl⟩
  · cases h

/-- The number of an unsettled attempt is the stored one. -/
theorem Attempted.attemptCount_eq {rows : List OutreachTask} {k : Nat} {copy : OutreachTask}
    (h : Attempted rows k copy) : attemptCount rows k = copy.attemptCount := by
  obtain ⟨-, t, ht, -, hcopy⟩ := h
  rw [attemptCount_of_row ht, hcopy.1]

/-- Commits only count attempts up. -/
theorem Sound.attemptCount_le {db : Db OutreachTask AuditEvent} {sessions : Nat → Session}
    (h : Sound db sessions) (w k : Nat) :
    attemptCount db.rows k ≤ attemptCount (db.commit w).rows k := by
  apply h.grounded.commit_induction w
    (P := fun rows _ => attemptCount db.rows k ≤ attemptCount rows k)
  · intro rows log i t t' a hle row hw
    rw [attemptCount_set row]
    split
    · next hk =>
      subst hk
      rw [attemptCount_of_row row] at hle
      rcases hw.counters.2 with ⟨-, hcount, -⟩ | ⟨hcount, -⟩ <;> omega
    · exact hle
  · intro rows log t a hle hn
    rw [attemptCount_append rows (by cases hn; rfl)]
    exact hle
  · exact Nat.le_refl _

/-- A statement without a provider call keeps the calls if the session that moves has none
to make. -/
private theorem Called.move {s s' : State} {w : Nat} {p : Session} (h : Called s)
    (hcalls : s'.calls = s.calls) (hsessions : s'.sessions = Function.update s.sessions w p)
    (hle : ∀ k, attemptCount s.db.rows k ≤ attemptCount s'.db.rows k)
    (hp : ∀ x, p.uncalled = some x → x ∉ s.calls) : Called s' := by
  refine ⟨hcalls ▸ h.nodup, fun k n hx => ?_, fun v x hx => ?_⟩
  · rw [hcalls] at hx
    obtain ⟨hpos, hn⟩ := h.claimed k n hx
    exact ⟨hpos, hn.trans (hle k)⟩
  · rw [hcalls]
    rw [hsessions] at hx
    by_cases hv : v = w
    · subst hv
      rw [Function.update_self] at hx
      exact hp x hx
    · rw [Function.update_of_ne hv] at hx
      exact h.pending v x hx

/-- Every statement keeps the calls single. -/
theorem step_called (s : State) (st : Statement) (h : Sound s.db s.sessions) (hc : Called s) :
    Called (step s st) := by
  have hstep := step_spec s st
  generalize step s st = s' at hstep
  have hidle : ∀ {p : Session}, p.uncalled = none → ∀ x, p.uncalled = some x → x ∉ s.calls := by
    intro p hp x hx
    rw [hp] at hx
    cases hx
  cases hstep with
  | idle => exact hc
  | started _ opening =>
    exact hc.move rfl rfl (fun _ => Nat.le_refl _) (hidle (by cases opening <;> rfl))
  | dropped clean =>
    refine hc.move rfl rfl (fun _ => Nat.le_refl _) (hidle ?_)
    rcases clean with rfl | ⟨_, _, rfl⟩ <;> rfl
  | @called w taskId config queue task session =>
    have hattempt : (s.sessions w).attempt = some (taskId, task) := by
      rw [session]
      rfl
    have hattempted := h.attempts w taskId task hattempt
    have hnew : (taskId, task.attemptCount) ∉ s.calls :=
      hc.pending w _ (by rw [session]; rfl)
    refine ⟨List.nodup_append.mpr ⟨hc.nodup, List.nodup_singleton _, ?_⟩, fun k n hx => ?_,
      fun v x hx => ?_⟩
    · rintro x hx y hy rfl
      rw [List.mem_singleton] at hy
      exact hnew (hy ▸ hx)
    · rcases List.mem_append.mp hx with hx | hx
      · exact hc.claimed k n hx
      · cases List.mem_singleton.mp hx
        exact ⟨hattempted.1, hattempted.attemptCount_eq.ge⟩
    · by_cases hv : v = w
      · subst hv
        rw [show (State.become s v _).sessions v = _ from Function.update_self _ _ _] at hx
        cases hx
      · rw [show (State.become s w _).sessions v = s.sessions v from
          Function.update_of_ne hv _ _] at hx
        intro hmem
        rcases List.mem_append.mp hmem with hmem | hmem
        · exact hc.pending v x hx hmem
        · cases List.mem_singleton.mp hmem
          obtain ⟨copy, hcopy, -⟩ := attempt_of_uncalled hx
          exact hv (h.unique v w taskId copy task hcopy hattempt)
  | @committed w p session =>
    refine hc.move rfl rfl (h.attemptCount_le w) fun x hx hmem => ?_
    cases h.publishes session with
    | claim _ next row _ _ _ =>
      subst next
      cases hx
      have hle := (hc.claimed _ _ hmem).2
      rw [attemptCount_of_row row] at hle
      simp only [claimWrite] at hle
      omega
    | settle _ next _ _ _ _ _ =>
      subst next
      cases hx
    | close _ after _ => rcases after with rfl | ⟨_, rfl⟩ <;> cases hx
  | _ => exact hc.move rfl rfl (fun _ => Nat.le_refl _) (hidle rfl)

/-! ### Tasks that are over -/

/-- The session's attempt on a task can still end in a retry. -/
def Session.retries (k : Nat) : Session → Bool
  | .pass _ _ (.claimed taskId _) | .pass _ _ (.sending taskId _)
  | .pass _ _ (.sent taskId _ (.raised _)) | .pass _ _ (.settling taskId _ (.raised _)) =>
    taskId = k
  | _ => false

/-- The task is not scheduled, and no session can reschedule it. -/
def Over (rows : List OutreachTask) (sessions : Nat → Session) (k : Nat) : Prop :=
  ∃ t, rows[k]? = some t ∧ t.status ≠ .scheduled ∧
    (t.status = .dispatching → ∀ w, (sessions w).retries k = false)

/-- The provider returned a result for the task, a manual result of it committed, or it
is cancelled. -/
def Decided (s : State) (k : Nat) : Prop :=
  (∃ n, (k, n) ∈ s.deliveries) ∨
    (∃ a ∈ s.db.log, a.entityType = .outreachTask ∧ a.entityId = k ∧
      a.eventType = .deliveryResultRecorded) ∨
    ∃ t, s.db.rows[k]? = some t ∧ t.status = .cancelled

private theorem attempt_of_retries {p : Session} {k : Nat} (h : p.retries k = true) :
    ∃ copy, p.attempt = some (k, copy) := by
  unfold Session.retries at h
  split at h
  all_goals first
    | obtain rfl := of_decide_eq_true h
      exact ⟨_, rfl⟩
    | cases h

/-- A session that moves without gaining a retry leaves the task over. -/
private theorem Over.move {rows : List OutreachTask} {sessions : Nat → Session} {k w : Nat}
    {p : Session} (h : Over rows sessions k)
    (hp : p.retries k = true → (sessions w).retries k = true) :
    Over rows (Function.update sessions w p) k := by
  obtain ⟨t, ht, hs, hd⟩ := h
  refine ⟨t, ht, hs, fun hdispatching => ?_⟩
  apply (Function.forall_update_iff _ fun _ (q : Session) => q.retries k = false).mpr
  refine ⟨?_, fun v _ => hd hdispatching v⟩
  by_contra hretries
  rw [Bool.not_eq_false] at hretries
  have hold := hd hdispatching w
  rw [hp hretries] at hold
  cases hold

private theorem Over.close {rows : List OutreachTask} {sessions : Nat → Session} {k i : Nat}
    {t t' : OutreachTask} {a : AuditEvent} (h : Over rows sessions k) (row : rows[i]? = some t)
    (hw : ClosingWrite i t t' a) : Over (rows.set i t') sessions k := by
  obtain ⟨u, hu, hs, hd⟩ := h
  by_cases hi : i = k
  · subst hi
    obtain ⟨hscheduled, hdispatching, -⟩ := hw.closes
    exact ⟨t', List.getElem?_set_self (List.getElem?_eq_some_iff.mp row).1, hscheduled,
      fun h' => absurd h' hdispatching⟩
  · exact ⟨u, by rw [List.getElem?_set_ne hi]; exact hu, hs, hd⟩

private theorem Over.append {rows : List OutreachTask} {sessions : Nat → Session} {k : Nat}
    (h : Over rows sessions k) (t : OutreachTask) : Over (rows ++ [t]) sessions k := by
  obtain ⟨u, hu, hrest⟩ := h
  refine ⟨u, ?_, hrest⟩
  rw [List.getElem?_append_left (List.getElem?_eq_some_iff.mp hu).1]
  exact hu

/-- A commit leaves a task over and publishes no claim of it. -/
theorem Over.commit {s : State} {k w : Nat} {p : Session} (ho : Over s.db.rows s.sessions k)
    (h : Sound s.db s.sessions) (hp : (s.sessions w).committed = some p) :
    Over (s.db.commit w).rows (Function.update s.sessions w p) k ∧
      (s.db.commit w).log.countP (started k) = s.db.log.countP (started k) := by
  have hstarted : ∀ {i : Nat} {a : AuditEvent}, a.entityId = i → started i a = false →
      started k a = false := by
    intro i a hid ha
    by_cases hi : k = i
    · rwa [hi]
    · simp [started, hid, Ne.symm hi]
  cases h.publishes hp with
  | @claim config queue i t session next row hs rows log =>
    obtain ⟨u, hu, hus, hd⟩ := ho
    have hi : i ≠ k := by
      rintro rfl
      obtain rfl : t = u := Option.some.inj (row.symm.trans hu)
      exact hus hs
    rw [rows, log]
    constructor
    · apply Over.move ⟨u, by rw [List.getElem?_set_ne hi]; exact hu, hus, hd⟩
      intro hretries
      subst next
      exact absurd (of_decide_eq_true hretries) hi
    · simp [started, dispatchStarted, hi]
  | @settle config config' queue i task t copy outcome session next row hd copies rows log =>
    rw [rows, log]
    constructor
    · refine Over.move ?_ (by subst next; intro hretries; cases hretries)
      obtain ⟨u, hu, hus, hdispatching⟩ := ho
      by_cases hi : i = k
      · subst hi
        obtain rfl : t = u := Option.some.inj (row.symm.trans hu)
        have hretries := hdispatching hd w
        rw [session] at hretries
        have hlt := (List.getElem?_eq_some_iff.mp row).1
        cases outcome with
        | delivered result =>
          exact ⟨_, List.getElem?_set_self hlt, by simp [settleWrite, successWrite],
            by simp [settleWrite, successWrite]⟩
        | raised error => simp [Session.retries] at hretries
      · exact ⟨u, by rw [List.getElem?_set_ne hi]; exact hu, hus, hdispatching⟩
    · cases outcome <;> simp [started, settleRow, dispatchSucceeded, dispatchFailed]
  | close before after grounded =>
    have hboth : Over (s.db.commit w).rows s.sessions k ∧
        (s.db.commit w).log.countP (started k) = s.db.log.countP (started k) := by
      refine grounded.commit_induction (P := fun rows log => Over rows s.sessions k ∧
        log.countP (started k) = s.db.log.countP (started k)) ?_ ?_ (fun _ _ hr => hr) ⟨ho, rfl⟩
      · rintro rows log i t t' a ⟨hover, hcount⟩ row hw
        refine ⟨hover.close row hw, ?_⟩
        have ha := hstarted (TaskWrite.close hw).entity.2 hw.closes.2.2.2
        simp [ha, hcount]
      · rintro rows log t a ⟨hover, hcount⟩ hn
        refine ⟨hover.append t, ?_⟩
        cases hn
        simp [started, taskScheduledRow, plannerAudit, hcount]
    refine ⟨hboth.1.move ?_, hboth.2⟩
    rcases after with rfl | ⟨_, rfl⟩ <;> simp [Session.retries]

/-- A statement leaves a task over and publishes no claim of it. -/
theorem step_over (s : State) (st : Statement) (h : Sound s.db s.sessions) {k : Nat}
    (ho : Over s.db.rows s.sessions k) :
    Over (step s st).db.rows (step s st).sessions k ∧
      (step s st).db.log.countP (started k) = s.db.log.countP (started k) := by
  have hstep := step_spec s st
  generalize step s st = s' at hstep
  cases hstep with
  | idle => exact ⟨ho, rfl⟩
  | started _ opening =>
    refine ⟨ho.move ?_, rfl⟩
    cases opening <;> simp [Session.retries]
  | dropped clean =>
    refine ⟨ho.move ?_, rfl⟩
    rcases clean with rfl | ⟨_, _, rfl⟩ <;> simp [Session.retries]
  | called session => exact ⟨ho.move (by simp [Session.retries, session]), rfl⟩
  | raised session =>
    refine ⟨ho.move ?_, rfl⟩
    rcases session with session | session <;> simp [Session.retries, session]
  | @settling _ _ _ _ _ _ outcome session =>
    refine ⟨ho.move ?_, rfl⟩
    cases outcome <;> simp [Session.retries, session]
  | committed session => exact ho.commit h session
  | _ => exact ⟨ho.move (by simp [Session.retries]), rfl⟩

/-- A task that is over is never claimed again. -/
theorem run_over (s : State) (h : Sound s.db s.sessions) {k : Nat}
    (ho : Over s.db.rows s.sessions k) (sts : List Statement) :
    (run step s sts).db.log.countP (started k) = s.db.log.countP (started k) := by
  induction sts generalizing s with
  | nil => rfl
  | cons st sts ih =>
    obtain ⟨hover, hcount⟩ := step_over s st h ho
    rw [run_cons, ih (step s st) (step_sound s st h) hover, hcount]

/-- Delivered and manually decided tasks are over. -/
structure Marked (s : State) : Prop where
  delivered : ∀ k n, (k, n) ∈ s.deliveries → Over s.db.rows s.sessions k
  manual : ∀ a ∈ s.db.log, a.eventType = .deliveryResultRecorded →
    Over s.db.rows s.sessions a.entityId

/-- A delivery leaves its task over: the worker that received it owns the attempt. -/
private theorem over_of_delivery {s : State} (h : Sound s.db s.sessions) {w k : Nat}
    {copy : OutreachTask} {p : Session} (ha : (s.sessions w).attempt = some (k, copy))
    (hp : p.retries k = false) : Over s.db.rows (Function.update s.sessions w p) k := by
  obtain ⟨-, t, ht, hs, -⟩ := h.attempts w k copy ha
  refine ⟨t, ht, hs, fun _ => ?_⟩
  apply (Function.forall_update_iff _ fun _ (q : Session) => q.retries k = false).mpr
  refine ⟨hp, fun v hv => ?_⟩
  by_contra hretries
  rw [Bool.not_eq_false] at hretries
  obtain ⟨copy', hcopy⟩ := attempt_of_retries hretries
  exact hv (h.unique v w k copy' copy hcopy ha)

private theorem commit_marked {s : State} {w : Nat} {p : Session} (h : Sound s.db s.sessions)
    (hm : Marked s) (hp : (s.sessions w).committed = some p) {a : AuditEvent}
    (ha : a ∈ (s.db.commit w).log) (hmanual : a.eventType = .deliveryResultRecorded) :
    Over (s.db.commit w).rows (Function.update s.sessions w p) a.entityId := by
  have hold : a ∈ s.db.log →
      Over (s.db.commit w).rows (Function.update s.sessions w p) a.entityId :=
    fun hmem => ((hm.manual a hmem hmanual).commit h hp).1
  cases h.publishes hp with
  | claim _ _ _ _ _ log =>
    rw [log, List.mem_append, List.mem_singleton] at ha
    rcases ha with ha | rfl
    · exact hold ha
    · cases hmanual
  | @settle _ _ _ _ _ _ _ outcome _ _ _ _ _ _ log =>
    rw [log, List.mem_append, List.mem_singleton] at ha
    rcases ha with ha | rfl
    · exact hold ha
    · cases outcome <;> cases hmanual
  | close before after grounded =>
    have hover : ∀ b ∈ (s.db.commit w).log, b.eventType = .deliveryResultRecorded →
        Over (s.db.commit w).rows s.sessions b.entityId := by
      refine grounded.commit_induction (P := fun rows log => ∀ b ∈ log,
        b.eventType = .deliveryResultRecorded → Over rows s.sessions b.entityId) ?_ ?_
        (fun _ _ hr => hr) hm.manual
      · intro rows log i t t' b hb row hw x hx hxm
        rcases List.mem_append.mp hx with hx | hx
        · exact (hb x hx hxm).close row hw
        · obtain rfl := List.mem_singleton.mp hx
          obtain ⟨hs, hd, -⟩ := hw.closes
          rw [(TaskWrite.close hw).entity.2]
          exact ⟨t', List.getElem?_set_self (List.getElem?_eq_some_iff.mp row).1, hs,
            fun h' => absurd h' hd⟩
      · intro rows log t b hb hn x hx hxm
        rcases List.mem_append.mp hx with hx | hx
        · exact (hb x hx hxm).append t
        · obtain rfl := List.mem_singleton.mp hx
          cases hn
          cases hxm
    apply (hover a ha hmanual).move
    rcases after with rfl | ⟨_, rfl⟩ <;> simp [Session.retries]

/-- Every statement keeps delivered and manually decided tasks over. -/
theorem step_marked (s : State) (st : Statement) (h : Sound s.db s.sessions) (hm : Marked s) :
    Marked (step s st) := by
  have hover : ∀ {k : Nat}, Over s.db.rows s.sessions k →
      Over (step s st).db.rows (step s st).sessions k := fun ho => (step_over s st h ho).1
  have hstep := step_spec s st
  generalize step s st = s' at hstep hover
  cases hstep with
  | @delivered w taskId config queue task result session =>
    refine ⟨fun k n hx => ?_, fun a ha hmanual => hover (hm.manual a ha hmanual)⟩
    rcases List.mem_append.mp hx with hx | hx
    · exact hover (hm.delivered k n hx)
    · cases List.mem_singleton.mp hx
      exact over_of_delivery h (by rw [session]; rfl) rfl
  | committed session =>
    exact ⟨fun k n hx => hover (hm.delivered k n hx), fun a ha => commit_marked h hm session ha⟩
  | _ =>
    exact ⟨fun k n hx => hover (hm.delivered k n hx), fun a ha hmanual =>
      hover (hm.manual a ha hmanual)⟩

/-- Reachable states make single calls and mark the tasks that are over. -/
theorem run_called_marked (planned : PlannedTasks) (sts : List Statement) :
    Called (run step (start planned) sts) ∧ Marked (run step (start planned) sts) := by
  have hrun := @run_invariant _ _ step (fun s => Sound s.db s.sessions ∧ Called s ∧ Marked s) ?_
    (start planned) ⟨start_sound planned,
      ⟨List.nodup_nil, by simp [start], by simp [start, Session.uncalled]⟩,
      by simp [start], by simp [start, Db.ofRows]⟩ sts
  · exact hrun.2
  · rintro s st ⟨h, hc, hm⟩
    exact ⟨step_sound s st h, step_called s st h hc, step_marked s st h hm⟩

/-- A decided task is over. -/
theorem Decided.over {s : State} {k : Nat} (h : Decided s k) (hm : Marked s) :
    Over s.db.rows s.sessions k := by
  rcases h with ⟨n, hn⟩ | ⟨a, ha, -, rfl, hmanual⟩ | ⟨t, ht, hs⟩
  · exact hm.delivered k n hn
  · exact hm.manual a ha hmanual
  · exact ⟨t, ht, by simp [hs], by simp [hs]⟩

/-! ### One worker at a time -/

/-- The task that a session has claimed, from its claiming update to the end of its result
step. -/
def Session.working : Session → Option Nat
  | .pass _ _ (.claiming taskId _) | .pass _ _ (.claimed taskId _) | .pass _ _ (.sending taskId _)
  | .pass _ _ (.sent taskId _ _) | .pass _ _ (.settling taskId _ _) => some taskId
  | _ => none

private theorem working_cases {p : Session} {k : Nat} (h : p.working = some k) :
    (∃ copy, p.attempt = some (k, copy)) ∨
      ∃ config queue task, p = .pass config queue (.claiming k task) := by
  unfold Session.working at h
  split at h
  · cases h
    exact Or.inr ⟨_, _, _, rfl⟩
  all_goals first
    | cases h
      exact Or.inl ⟨_, rfl⟩
    | cases h

/-- A claiming session holds the lock of a row that is still scheduled. -/
private theorem Sound.claiming {db : Db OutreachTask AuditEvent} {sessions : Nat → Session}
    (h : Sound db sessions) {w k : Nat} {config : PassConfig} {queue : List Nat}
    {task : OutreachTask} (hw : sessions w = .pass config queue (.claiming k task)) :
    db.owner k = some w ∧ ∃ t, db.rows[k]? = some t ∧ t.status = .scheduled := by
  have hfits := h.fits w
  have hg := h.grounded w
  have hheld := db.held w
  rw [hw] at hfits
  generalize db.txns w = cs at hfits hg hheld
  cases hfits with
  | quiet hq => cases hq
  | claiming =>
    obtain ⟨t, ht, hwrite⟩ := hg.head
    refine ⟨hheld _ List.mem_cons_self k rfl, t, ht, ?_⟩
    rcases hwrite.counters.2 with ⟨hs, -⟩ | ⟨-, hstarted, -⟩
    · exact hs
    · simp [started, dispatchStarted] at hstarted

/-- At most one worker is between its claim and the end of its result step. -/
theorem Sound.working_unique {db : Db OutreachTask AuditEvent} {sessions : Nat → Session}
    (h : Sound db sessions) {v w k : Nat} (hv : (sessions v).working = some k)
    (hw : (sessions w).working = some k) : v = w := by
  have hmixed : ∀ {v w : Nat} {copy : OutreachTask} {config : PassConfig} {queue : List Nat}
      {task : OutreachTask}, (sessions v).attempt = some (k, copy) →
      sessions w = .pass config queue (.claiming k task) → False := by
    intro v w copy config queue task hattempt hclaiming
    obtain ⟨-, t, ht, hs, -⟩ := h.attempts v k copy hattempt
    obtain ⟨-, u, hu, hus⟩ := h.claiming hclaiming
    obtain rfl : t = u := Option.some.inj (ht.symm.trans hu)
    exact hs hus
  rcases working_cases hv with ⟨copy, hv⟩ | ⟨config, queue, task, hv⟩
  · rcases working_cases hw with ⟨copy', hw⟩ | ⟨config', queue', task', hw⟩
    · exact h.unique v w k copy copy' hv hw
    · exact (hmixed hv hw).elim
  · rcases working_cases hw with ⟨copy', hw⟩ | ⟨config', queue', task', hw⟩
    · exact (hmixed hw hv).elim
    · have howner := (h.claiming hv).1
      rw [(h.claiming hw).1] at howner
      exact (Option.some.inj howner).symm

/-! ### The contract -/

/-- `dispatch_started` rows of one attempt of a task. -/
def startedAttempt (k n : Nat) (a : AuditEvent) : Bool :=
  started k a && a.payload.attemptCount = some n

/-- The `dispatch_started` rows count the attempts. -/
theorem Counted.countP_started {rows : List OutreachTask} {log : List AuditEvent}
    (h : Counted rows log) (k : Nat) : log.countP (started k) = attemptCount rows k := by
  have hlength := congrArg List.length (h.numbers k)
  simpa [attemptNumbers, List.countP_eq_length_filter] using hlength

/-- Every attempt number up to the stored one is on exactly one `dispatch_started` row. -/
theorem Counted.countP_startedAttempt {rows : List OutreachTask} {log : List AuditEvent}
    (h : Counted rows log) (k n : Nat) : log.countP (startedAttempt k n) =
      if 1 ≤ n ∧ n ≤ attemptCount rows k then 1 else 0 := by
  have hcount : log.countP (startedAttempt k n) = (attemptNumbers log k).count (some n) := by
    rw [attemptNumbers, List.count, List.countP_map, List.countP_filter]
    apply List.countP_congr
    intro a _
    simp [startedAttempt, and_comm]
  rw [hcount, h.numbers, List.count_map_of_injective _ _ (Option.some_injective _),
    List.Nodup.count List.nodup_range']
  simp only [List.mem_range'_1]
  congr 1
  apply propext
  omega

/-- Attempts are the committed claims and stay below their bound. -/
def AttemptsBounded (s : State) : Prop :=
  ∀ (k : Nat) (t : OutreachTask), s.db.rows[k]? = some t →
    t.attemptCount = s.db.log.countP (started k) ∧ t.attemptCount ≤ t.maxAttempts ∧
      (t.status = .scheduled → t.attemptCount < t.maxAttempts)

/-- Attempt `n` of a task is one committed claim, and the provider is called for it at
most once. -/
def CalledOncePerClaim (s : State) : Prop :=
  ∀ k n, s.calls.count (k, n) ≤ s.db.log.countP (startedAttempt k n) ∧
    s.db.log.countP (startedAttempt k n) ≤ 1

/-- No two workers are between a claim of a task and the end of its result step. -/
def OneWorker (s : State) : Prop :=
  ∀ v w k, (s.sessions v).working = some k → (s.sessions w).working = some k → v = w

/-- In every interleaving attempts are bounded by and equal to the committed claims, the
provider is called at most once per claim, one worker at a time works on a task, and a
decided task is never claimed again. -/
theorem no_double_contact (planned : PlannedTasks) (sts : List Statement) :
    let s := run step (start planned) sts
    AttemptsBounded s ∧ CalledOncePerClaim s ∧ OneWorker s ∧
      ∀ k, Decided s k → ∀ later : List Statement,
        (run step s later).db.log.countP (started k) = s.db.log.countP (started k) := by
  intro s
  have h : Sound s.db s.sessions := run_sound planned sts
  obtain ⟨hc, hm⟩ : Called s ∧ Marked s := run_called_marked planned sts
  refine ⟨fun k t ht => ?_, fun k n => ?_, fun v w k => h.working_unique, fun k hk later => ?_⟩
  · rw [h.counted.countP_started, attemptCount_of_row ht]
    exact ⟨rfl, h.counted.bounded k t ht, h.counted.retryable k t ht⟩
  · rw [h.counted.countP_startedAttempt, hc.nodup.count]
    constructor
    · split
      · next hx => rw [ite_cond_eq_true _ _ (eq_true (hc.claimed k n hx))]
      · exact Nat.zero_le _
    · split <;> omega
  · exact run_over s h (hk.over hm) later

end Orchestrator.Concurrency
