import Orchestrator.Base.Serial
import Orchestrator.Concurrency.Atomic
import Orchestrator.Concurrency.Invariants

/-!
# Open transactions

What the open transaction of every session has executed since it began, and what its
session had read by then. Statements of other sessions do not change it: their commits
leave the rows that it has locked.
-/

namespace Orchestrator.Concurrency

open Base Domain Orchestration Workers

/-- The claiming update. -/
def claimOperation (config : PassConfig) (taskId : Nat) : Operation OutreachTask AuditEvent :=
  .update taskId (due config.now) claimWrite fun t =>
    dispatchStarted config.workerId taskId (claimWrite t)

/-- The settling update. -/
def settleOperation (config : PassConfig) (taskId : Nat) (task : OutreachTask)
    (outcome : SendOutcome) : Operation OutreachTask AuditEvent :=
  .update taskId dispatching (settleWrite config task outcome) fun _ =>
    settleRow config taskId task outcome

/-- The compare-and-set of a manual result. -/
def recordOperation (taskId : Nat) (task : OutreachTask) (body : DeliveryResultRequest) :
    Operation OutreachTask AuditEvent :=
  .update taskId (fun t => t.status = task.status) (manualWrite body) fun _ =>
    deliveryResultRecorded taskId task task.status body

/-- The insert of a planned task. -/
def planOperation (inserted : OutreachTask × AuditEvent) : Operation OutreachTask AuditEvent :=
  .insert inserted.1 inserted.2

/-- The update by primary key of an event's cancellation. -/
def cancelOperation (ctx : EventContext) (task : OutreachTask × Nat) :
    Operation OutreachTask AuditEvent :=
  .update task.2 (fun _ => true) OutreachTask.cancel fun _ => cancelledRow ctx task

/-- The conditional update of an operator's cancellation. -/
def operatorOperation (account : Account) (reason : String) (correlationId : Nat)
    (task : OutreachTask × Nat) : Operation OutreachTask AuditEvent :=
  .update task.2 scheduled OutreachTask.cancel fun _ =>
    operatorCancelledRow account reason correlationId task

/-- What a session has executed since its operation began: its memory then and now, and the
updates and inserts that took effect. -/
inductive Progress (past : List Store) :
    Session → Session → List (Operation OutreachTask AuditEvent) → Prop where
  | quiet {p : Session} (h : p.quiet = true) : Progress past p p []
  | claiming (config : PassConfig) (taskId : Nat) (queue : List Nat) (task : OutreachTask) :
      Progress past (.pass config (taskId :: queue) .ready)
        (.pass config queue (.claiming taskId task)) [claimOperation config taskId]
  | settling (config : PassConfig) (queue : List Nat) (taskId : Nat) (task : OutreachTask)
      {outcome : SendOutcome} (fits : outcomeFits outcome = true) :
      Progress past (.pass config queue (.sent taskId task outcome))
        (.pass config queue (.settling taskId task outcome))
        [settleOperation config taskId task outcome]
  | recorded (taskId : Nat) {task : OutreachTask} {body : DeliveryResultRequest}
      (allowed : allowedManualDeliverySourceStatus task.status = true)
      (fits : lastErrorRefused (manualLastError body) = none) :
      Progress past (.manual taskId task body) (.recorded taskId) [recordOperation taskId task body]
  | planning {ctx : EventContext} {inserted : List (OutreachTask × AuditEvent)}
      (h : ∀ x ∈ inserted, Planned ctx x) :
      Progress past (.planning ctx) (.planning ctx) (inserted.map planOperation)
  | cancelling (ctx : EventContext) (done tasks : List (OutreachTask × Nat)) :
      Progress past (.cancelling ctx (done ++ tasks) (done ++ tasks).length)
        (.cancelling ctx tasks (done ++ tasks).length) (done.map (cancelOperation ctx))
  | operator (account : Account) (reason : String) (correlationId : Nat)
      {reached visited : List (OutreachTask × Nat)} (tasks : List (OutreachTask × Nat))
      (swept : Swept past (visited ++ tasks) visited reached) :
      Progress past (.operator account reason correlationId (visited ++ tasks) 0)
        (.operator account reason correlationId tasks reached.length)
        (reached.map (operatorOperation account reason correlationId))

/-- A quiet session has not begun. -/
theorem Progress.of_quiet {past : List Store} {b p : Session}
    {os : List (Operation OutreachTask AuditEvent)} (h : Progress past b p os)
    (hp : p.quiet = true) : b = p ∧ os = [] := by
  cases h with
  | quiet => exact ⟨rfl, rfl⟩
  | _ => cases hp

/-! ### Loops of operators -/

namespace Swept

variable {past past' : List Store} {s : Store}
  {selection visited reached : List (OutreachTask × Nat)} {task : OutreachTask × Nat}

/-- A selection that has just been made. -/
theorem start (past : List Store) (s : Store) (accountId : Nat) :
    Swept (s :: past) (Table.select (operatorCancellable accountId) s.outreachTasks) [] [] :=
  ⟨[], past, s, rfl, ⟨accountId, rfl⟩, .refl [], by simp⟩

/-- What is reached has been visited. -/
theorem sublist (h : Swept past selection visited reached) : reached.Sublist visited := by
  obtain ⟨_, _, _, _, _, hsub, _⟩ := h
  exact hsub

/-- More tables are committed. -/
theorem mono (h : Swept past selection visited reached) (hpast : past <:+ past') :
    Swept past' selection visited reached := by
  obtain ⟨since, before, x, rfl, hselection, hsub, hpassed⟩ := h
  obtain ⟨latest, rfl⟩ := hpast
  refine ⟨latest ++ since, before, x, by rw [List.append_assoc], hselection, hsub, ?_⟩
  intro task hv hr
  obtain ⟨y, hy, hrow⟩ := hpassed task hv hr
  exact ⟨y, List.mem_append_right latest hy, hrow⟩

/-- The next task is cancelled. -/
theorem reach (h : Swept past selection visited reached) (task : OutreachTask × Nat) :
    Swept past selection (visited ++ [task]) (reached ++ [task]) := by
  obtain ⟨since, before, x, hpast, hselection, hsub, hpassed⟩ := h
  refine ⟨since, before, x, hpast, hselection, hsub.append (.refl [task]), ?_⟩
  intro t hv hr
  rw [List.mem_append, not_or] at hr
  rcases List.mem_append.mp hv with hv | hv
  · exact hpassed t hv hr.1
  · exact absurd hv hr.2

/-- Two selected tasks with one key are the same. -/
theorem eq_of_key (h : Swept past selection visited reached) {t t' : OutreachTask × Nat}
    (ht : t ∈ selection) (ht' : t' ∈ selection) (hkey : t.2 = t'.2) : t = t' := by
  obtain ⟨_, _, x, _, ⟨accountId, rfl⟩, _⟩ := h
  obtain ⟨hrow, -⟩ := Table.mem_select.mp ht
  obtain ⟨hrow', -⟩ := Table.mem_select.mp ht'
  rw [hkey] at hrow
  exact Prod.ext (Option.some.inj (hrow.symm.trans hrow')) hkey

/-- The next task is not scheduled any more: the tables were committed after its selection. -/
theorem pass (h : Swept (s :: past) selection visited reached) (ht : task ∈ selection)
    (hrow : task ∉ reached → (s.outreachTasks[task.2]?).any scheduled = false) :
    Swept (s :: past) selection (visited ++ [task]) reached := by
  obtain ⟨since, before, x, hpast, ⟨accountId, rfl⟩, hsub, hpassed⟩ := h
  refine ⟨since, before, x, hpast, ⟨accountId, rfl⟩,
    hsub.trans (List.sublist_append_left visited [task]), ?_⟩
  intro t hv hr
  rcases List.mem_append.mp hv with hv | hv
  · exact hpassed t hv hr
  · obtain rfl := List.mem_singleton.mp hv
    have hmissed := hrow hr
    cases since with
    | nil =>
      -- the selection itself found the task scheduled
      obtain ⟨rfl, -⟩ := List.cons.inj hpast
      obtain ⟨hget, hselected⟩ := Table.mem_select.mp ht
      have hscheduled : scheduled t.1 = true := by
        simp only [operatorCancellable, Bool.and_eq_true] at hselected
        exact hselected.2
      rw [hget, Option.any_some, hscheduled] at hmissed
      cases hmissed
    | cons y since =>
      obtain ⟨rfl, -⟩ := List.cons.inj hpast
      exact ⟨s, List.mem_cons_self, hmissed⟩

end Swept

/-- What has been executed stays so when more tables are committed. -/
theorem Progress.mono {past past' : List Store} {b p : Session}
    {os : List (Operation OutreachTask AuditEvent)} (h : Progress past b p os)
    (hpast : past <:+ past') : Progress past' b p os := by
  cases h with
  | quiet hq => exact .quiet hq
  | claiming => exact .claiming ..
  | settling _ _ _ _ fits => exact .settling _ _ _ _ fits
  | recorded taskId allowed fits => exact .recorded taskId allowed fits
  | planning hall => exact .planning hall
  | cancelling => exact .cancelling ..
  | operator account reason correlationId tasks swept =>
    exact .operator account reason correlationId tasks (swept.mono hpast)

/-! ### Stages -/

/-- The session of an open transaction: its operation began at `memory`, which had read from
`past`, and has executed what led to `p`. -/
structure Stage (past : List Store) (db : Db OutreachTask AuditEvent) (w : Nat)
    (memory p : Session) : Prop where
  fresh : db.txns w = [] → (memory.operates && p.operates) = false → memory = p
  reads : memory.ReadFrom past
  executed : ∃ os, Progress past memory p os ∧ db.Executed w os

/-- The sessions of a state. -/
def Staged (past : List Store) (memory : Nat → Session) (s : State) : Prop :=
  ∀ w, Stage past s.db w (memory w) (s.sessions w)

/-- More tables to read from. -/
theorem Session.ReadFrom.mono {p : Session} {past past' : List Store} (h : p.ReadFrom past)
    (hsub : past ⊆ past') : p.ReadFrom past' := by
  cases p with
  | pass config queue phase =>
    obtain ⟨⟨x, hx, hqueue⟩, hcopy⟩ := h
    refine ⟨⟨x, hsub hx, hqueue⟩, fun taskId task ha => ?_⟩
    obtain ⟨y, hy, hrow⟩ := hcopy taskId task ha
    exact ⟨y, hsub hy, hrow⟩
  | cancelling =>
    obtain ⟨x, hx, htasks⟩ := h
    exact ⟨x, hsub hx, htasks⟩
  | operator =>
    obtain ⟨x, hx, htasks⟩ := h
    exact ⟨x, hsub hx, htasks⟩
  | manual =>
    obtain ⟨x, hx, hrow⟩ := h
    exact ⟨x, hsub hx, hrow⟩
  | _ => trivial

namespace Stage

variable {past : List Store} {db db' : Db OutreachTask AuditEvent} {v w : Nat}
  {memory p : Session}

/-- A session between two operations. -/
theorem begin (htxns : db.txns w = []) (reads : p.ReadFrom past) (h : Progress past p p []) :
    Stage past db w p p :=
  ⟨fun _ _ => rfl, reads, [], h, .nil htxns⟩

/-- A quiet session is at the beginning of its transaction. -/
theorem of_quiet (h : Stage past db w memory p) (hp : p.quiet = true) :
    memory = p ∧ db.txns w = [] := by
  obtain ⟨os, hprogress, hexecuted⟩ := h.executed
  obtain ⟨rfl, rfl⟩ := hprogress.of_quiet hp
  exact ⟨rfl, hexecuted.txns_eq_nil⟩

/-- More tables to read from. -/
theorem mono (h : Stage past db w memory p) {past' : List Store} (hpast : past <:+ past') :
    Stage past' db w memory p := by
  obtain ⟨os, hprogress, hexecuted⟩ := h.executed
  exact ⟨h.fresh, h.reads.mono hpast.subset, os, hprogress.mono hpast, hexecuted⟩

/-- A statement of another session that publishes nothing. -/
theorem of_eq (h : Stage past db w memory p) (hrows : db'.rows = db.rows)
    (htxns : db'.txns w = db.txns w) : Stage past db' w memory p := by
  obtain ⟨os, hprogress, hexecuted⟩ := h.executed
  exact ⟨htxns ▸ h.fresh, h.reads, os, hprogress, hexecuted.of_eq hrows htxns⟩

/-- A commit of another session. -/
theorem commit (h : Stage past db v memory p) (hv : v ≠ w) :
    Stage past (db.commit w) v memory p := by
  obtain ⟨os, hprogress, hexecuted⟩ := h.executed
  refine ⟨?_, h.reads, os, hprogress, hexecuted.commit hv⟩
  rw [Db.txns_commit, Function.update_of_ne hv]
  exact h.fresh

end Stage

/-- A free session is in no operator's loop. -/
private theorem operates_of_free {p : Session} (h : p.free = true) : p.operates = false := by
  unfold Session.operates
  split
  · cases h
  · rfl

/-- A session goes on with its operation, or has no changes and begins one. -/
def Begins (memory : Nat → Session) (s : State) (w : Nat) (b : Session) : Prop :=
  b = memory w ∨ b = s.sessions w ∧ s.db.txns w = [] ∧
    ((memory w).operates && (s.sessions w).operates) = false

/-- Where a session without changes is said to have begun does not matter. -/
theorem Stage.reopen {past : List Store} {memory : Nat → Session} {s : State} {w : Nat}
    {b : Session} (h : Stage past s.db w b (s.sessions w)) (hb : Begins memory s w b) :
    Stage past s.db w (opened memory s w) (s.sessions w) := by
  unfold opened
  rcases hb with rfl | ⟨rfl, hnil, hoperates⟩
  · split
    · next hbegin =>
      rw [Bool.and_eq_true, List.isEmpty_iff, Bool.not_eq_true'] at hbegin
      rwa [h.fresh hbegin.1 hbegin.2] at h
    · exact h
  · rwa [if_pos (by rw [hnil, hoperates]; rfl)]

namespace Staged

variable {past : List Store} {memory : Nat → Session} {s : State} {w : Nat} {p : Session}

/-- A statement that does nothing. -/
theorem idle (h : Staged past memory s) : Staged past (opened memory s) s :=
  fun v => (h v).reopen (Or.inl rfl)

/-- One session has moved on to a new stage. -/
theorem move (h : Staged past memory s) (s' : State) (w : Nat) (hrows : s'.db.rows = s.db.rows)
    (htxns : ∀ v, v ≠ w → s'.db.txns v = s.db.txns v)
    (hsessions : ∀ v, v ≠ w → s'.sessions v = s.sessions v) {b : Session}
    (hown : Stage past s'.db w b (s'.sessions w)) (hb : Begins memory s' w b) :
    Staged past (opened memory s') s' := by
  intro v
  by_cases hv : v = w
  · subst hv
    exact hown.reopen hb
  · have hother : Stage past s'.db v (memory v) (s'.sessions v) := by
      rw [hsessions v hv]
      exact (h v).of_eq hrows (htxns v hv)
    exact hother.reopen (Or.inl rfl)

/-- A session without changes moves on. -/
theorem become (h : Staged past memory s) (htxns : s.db.txns w = [])
    (hoperates : (memory w).operates = false) (reads : p.ReadFrom past)
    (hp : Progress past p p []) : Staged past (opened memory (s.become w p)) (s.become w p) := by
  apply h.move (s.become w p) w rfl (fun _ _ => rfl) (fun v hv => Function.update_of_ne hv ..) _ _
  · exact p
  · rw [State.sessions_become]
    exact .begin htxns reads hp
  · right
    rw [State.sessions_become, hoperates]
    exact ⟨rfl, htxns, rfl⟩

/-- A session rolls back. -/
theorem rollback (h : Staged past memory s) (w : Nat) (hoperates : p.operates = false)
    (reads : p.ReadFrom past) (hp : Progress past p p []) :
    Staged past (opened memory (s.execute w (s.db.rollback w) p))
      (s.execute w (s.db.rollback w) p) := by
  have hnil : (s.db.rollback w).txns w = [] := Function.update_self ..
  apply h.move (s.execute w (s.db.rollback w) p) w rfl (fun v hv => Function.update_of_ne hv ..)
    (fun v hv => Function.update_of_ne hv ..) _ _
  · exact p
  · rw [State.sessions_execute]
    exact .begin hnil reads hp
  · right
    rw [State.sessions_execute, hoperates, Bool.and_false]
    exact ⟨rfl, hnil, rfl⟩

/-- A session's update hits. -/
theorem hits (h : Staged past memory s) {k : Nat} {c : OutreachTask → Bool}
    {f : OutreachTask → OutreachTask} {e : OutreachTask → AuditEvent} {r : OutreachTask}
    {db : Db OutreachTask AuditEvent} (hit : s.db.update w k c f e = .hits r db)
    {os : List (Operation OutreachTask AuditEvent)} (hexecuted : s.db.Executed w os)
    (hp : Progress past (memory w) p (os ++ [.update k c f e])) :
    Staged past (opened memory (s.execute w db p)) (s.execute w db p) := by
  have hexecuted' := hexecuted.update hit
  obtain ⟨-, -, hfree, rfl⟩ := Db.update_eq_hits hit
  apply h.move (s.execute w (s.db.write w k (f r) (e r) hfree) p) w rfl
    (fun v hv => Function.update_of_ne hv ..) (fun v hv => Function.update_of_ne hv ..) _
    (Or.inl rfl)
  rw [State.sessions_execute]
  refine ⟨fun hnil => ?_, (h w).reads, _, hp, hexecuted'⟩
  have hlength := hexecuted'.length_eq
  change (s.db.write w k (f r) (e r) hfree).txns w = [] at hnil
  rw [hnil] at hlength
  simp at hlength

/-- A planning session inserts a row. -/
theorem insert (h : Staged past memory s) {ctx : EventContext} {row : OutreachTask}
    {audit : AuditEvent} (hrow : Planned ctx (row, audit)) (hs : s.sessions w = .planning ctx) :
    Staged past (opened memory (s.execute w (s.db.insert w row audit) (.planning ctx)))
      (s.execute w (s.db.insert w row audit) (.planning ctx)) := by
  have hstage := h w
  rw [hs] at hstage
  obtain ⟨os, hprogress, hexecuted⟩ := hstage.executed
  generalize hb : memory w = b at hprogress
  apply h.move (s.execute w (s.db.insert w row audit) (.planning ctx)) w rfl
    (fun v hv => Function.update_of_ne hv ..) (fun v hv => Function.update_of_ne hv ..) _
    (Or.inl rfl)
  rw [State.sessions_execute, hb]
  cases hprogress with
  | quiet hq => cases hq
  | @planning _ inserted hall =>
    have hnext : ∀ x ∈ inserted ++ [(row, audit)], Planned ctx x := by
      intro x hx
      rcases List.mem_append.mp hx with hx | hx
      · exact hall x hx
      · exact List.mem_singleton.mp hx ▸ hrow
    refine ⟨fun _ _ => rfl, trivial, _, .planning hnext, ?_⟩
    rw [List.map_append]
    exact hexecuted.insert row audit

/-- A free session starts a call with what it reads. -/
theorem startCall (h : Staged past memory s) (w : Nat) (reads : p.ReadFrom past)
    (hp : Progress past p p []) :
    Staged past (opened memory (startCall s w p)) (startCall s w p) := by
  unfold Concurrency.startCall
  split
  · next hfree =>
    obtain ⟨hbegin, htxns⟩ := (h w).of_quiet (quiet_of_free hfree)
    exact h.become htxns (hbegin ▸ operates_of_free hfree) reads hp
  · exact h.idle

/-- A claim. -/
theorem claim (h : Staged past memory s) (w : Nat) :
    Staged past (opened memory (claim s w)) (claim s w) := by
  unfold Concurrency.claim
  split
  · next config taskId queue hs =>
    have hstage := h w
    rw [hs] at hstage
    obtain ⟨hbegin, htxns⟩ := hstage.of_quiet rfl
    obtain ⟨⟨x, hx, hqueue⟩, hcopy⟩ := hbegin ▸ hstage.reads
    split
    · exact h.idle
    · apply h.rollback w rfl _ (.quiet rfl)
      exact ⟨⟨x, hx, (List.suffix_cons taskId queue).trans hqueue⟩, hcopy⟩
    · next t db hit =>
      apply h.hits hit (.nil htxns)
      rw [hbegin]
      exact .claiming config taskId queue (claimWrite t)
  · exact h.idle

/-- The provider's answer, or the failure of a channel without adapter. -/
theorem phase (h : Staged past memory s) {config : PassConfig} {queue : List Nat}
    {phase phase' : WorkerPhase} (hs : s.sessions w = .pass config queue phase)
    (hq : Session.quiet (.pass config queue phase) = true)
    (hq' : Session.quiet (.pass config queue phase') = true)
    (hphase : phase'.attempt = phase.attempt) :
    Staged past (opened memory (s.become w (.pass config queue phase')))
      (s.become w (.pass config queue phase')) := by
  have hstage := h w
  rw [hs] at hstage
  obtain ⟨hbegin, htxns⟩ := hstage.of_quiet hq
  obtain ⟨hqueue, hcopy⟩ := hbegin ▸ hstage.reads
  apply h.become htxns _ _ (.quiet hq')
  · rw [hbegin]
    rfl
  · exact ⟨hqueue, hphase ▸ hcopy⟩

/-- A settlement. -/
theorem settle (h : Staged past memory s) (w : Nat) :
    Staged past (opened memory (settle s w)) (settle s w) := by
  unfold Concurrency.settle
  split
  · next config queue taskId task outcome hs =>
    have hstage := h w
    rw [hs] at hstage
    obtain ⟨hbegin, htxns⟩ := hstage.of_quiet rfl
    obtain ⟨hqueue, -⟩ := hbegin ▸ hstage.reads
    split
    · exact h.idle
    · apply h.rollback w rfl _ (.quiet rfl)
      exact ⟨hqueue, by simp [WorkerPhase.attempt]⟩
    · next t db hit =>
      split
      · next hfits =>
        apply h.hits hit (.nil htxns)
        rw [hbegin]
        exact .settling config queue taskId task hfits
      · exact h.rollback w rfl trivial (.quiet rfl)
  · exact h.idle

/-- A manual result. -/
theorem writeResult (h : Staged past memory s) (hfits : ∀ w, Fits (s.sessions w) (s.db.txns w))
    (w : Nat) : Staged past (opened memory (writeResult s w)) (writeResult s w) := by
  unfold Concurrency.writeResult
  split
  · next taskId task body hs =>
    have hmanual := hfits w
    rw [hs] at hmanual
    obtain ⟨htxns, hallowed⟩ := hmanual.manual
    have hstage := h w
    rw [hs] at hstage
    obtain ⟨hbegin, -⟩ := hstage.of_quiet hallowed
    split
    · exact h.idle
    · exact h.rollback w rfl trivial (.quiet rfl)
    · next t db hit =>
      split
      · next hlast =>
        apply h.hits hit (.nil htxns)
        rw [hbegin]
        exact .recorded taskId hallowed (Option.isNone_iff_eq_none.mp hlast)
      · exact h.rollback w rfl trivial (.quiet rfl)
  · exact h.idle

/-- An operator's cancellation passes over a task. -/
theorem skip (h : Staged (s.store :: past) memory s) {account : Account} {reason : String}
    {correlationId count : Nat} {task : OutreachTask × Nat} {tasks : List (OutreachTask × Nat)}
    (hs : s.sessions w = .operator account reason correlationId (task :: tasks) count)
    (hmiss : (s.db.view w task.2).any scheduled = false) :
    Staged (s.store :: past)
      (opened memory (s.become w (.operator account reason correlationId tasks count)))
      (s.become w (.operator account reason correlationId tasks count)) := by
  have hstage := h w
  rw [hs] at hstage
  obtain ⟨os, hprogress, hexecuted⟩ := hstage.executed
  apply h.move (s.become w (.operator account reason correlationId tasks count)) w rfl
    (fun _ _ => rfl) (fun v hv => Function.update_of_ne hv ..) _ (Or.inl rfl)
  rw [State.sessions_become]
  have hreads := hstage.reads
  generalize memory w = b at hprogress hreads
  cases hprogress with
  | quiet hq => cases hq
  | @operator _ _ _ reached visited _ swept =>
    have hselected : task ∈ visited ++ task :: tasks :=
      List.mem_append_right visited List.mem_cons_self
    have hnext := swept.pass hselected fun hnot => ?_
    · refine ⟨fun _ hoperates => ?_, hreads, _, ?_, hexecuted⟩
      · cases hoperates
      · rw [List.append_cons] at hnext ⊢
        exact .operator account reason correlationId tasks hnext
    · -- the session has not written the row itself
      rw [← hmiss, hexecuted.view_eq]
      · rfl
      · intro o ho hkey
        obtain ⟨t, ht, rfl⟩ := List.mem_map.mp ho
        have hvisited := List.mem_append_left (task :: tasks) (swept.sublist.subset ht)
        exact hnot (swept.eq_of_key hvisited hselected (Option.some.inj hkey) ▸ ht)

/-- The next update of a cancellation. -/
theorem cancelNext (h : Staged (s.store :: past) memory s) (w : Nat) :
    Staged (s.store :: past) (opened memory (cancelNext s w)) (cancelNext s w) := by
  have hstage := h w
  unfold Concurrency.cancelNext
  split
  · next ctx task tasks count hs =>
    rw [hs] at hstage
    obtain ⟨os, hprogress, hexecuted⟩ := hstage.executed
    split
    · exact h.idle
    · exact h.rollback w rfl trivial (.quiet rfl)
    · next t db hit =>
      apply h.hits hit hexecuted
      generalize memory w = b at hprogress
      cases hprogress with
      | quiet hq => cases hq
      | cancelling _ done =>
        have hnext : Progress (s.store :: past) _ _ _ := .cancelling ctx (done ++ [task]) tasks
        rw [List.map_append, List.append_assoc] at hnext
        exact hnext
  · next account reason correlationId task tasks count hs =>
    rw [hs] at hstage
    obtain ⟨os, hprogress, hexecuted⟩ := hstage.executed
    split
    · exact h.idle
    · next hmiss => exact h.skip hs (Db.update_eq_misses hmiss)
    · next t db hit =>
      apply h.hits hit hexecuted
      generalize memory w = b at hprogress
      cases hprogress with
      | quiet hq => cases hq
      | @operator _ _ _ reached visited _ swept =>
        have hreached := swept.reach task
        rw [List.append_cons] at hreached
        have hnext := Progress.operator account reason correlationId tasks hreached
        rw [List.map_append, List.append_assoc, List.length_append] at hnext
        exact hnext
  · exact h.idle

/-- Every statement that commits nothing keeps the stages. -/
theorem uncommitted (h : Staged (s.store :: past) memory s)
    (hfits : ∀ w, Fits (s.sessions w) (s.db.txns w)) (st : Statement)
    (hst : ∀ w, st = .commit w → (s.sessions w).committed = none) :
    Staged (s.store :: past) (opened memory (step s st)) (step s st) := by
  have hs : s.store ∈ s.store :: past := List.mem_cons_self
  cases st with
  | startPass w config =>
    apply h.startCall w _ (.quiet rfl)
    exact ⟨⟨s.store, hs, List.suffix_refl _⟩, by simp [WorkerPhase.attempt]⟩
  | claim w => exact h.claim w
  | callProvider w =>
    simp only [step, callProvider]
    split
    · next hsession => exact h.phase hsession rfl rfl rfl
    · exact h.idle
  | providerReturns w outcome =>
    simp only [step, providerReturns]
    split
    · next hsession => exact h.phase hsession rfl rfl rfl
    · next hsession => exact h.phase hsession rfl rfl rfl
    · exact h.idle
  | noAdapter w =>
    simp only [step, noAdapter]
    split
    · next hsession => exact h.phase hsession rfl rfl rfl
    · exact h.idle
  | settle w => exact h.settle w
  | startPlanning w ctx =>
    exact h.startCall w trivial (@Progress.planning _ ctx [] (by simp))
  | insertTask w channel policyDecisionId scheduledAt clock =>
    simp only [step, insertTask]
    split
    · next hsession hinstant =>
      exact h.insert (.intro channel policyDecisionId clock hinstant) hsession
    · exact h.idle
  | startCancelling w ctx =>
    exact h.startCall w ⟨s.store, hs, rfl⟩ (.cancelling ctx [] _)
  | startOperator w accountId account reason correlationId =>
    exact h.startCall w ⟨s.store, hs, accountId, rfl⟩
      (@Progress.operator _ account reason correlationId [] [] _
        (Swept.start past s.store accountId))
  | cancelNext w => exact h.cancelNext w
  | loadTask w taskId body =>
    simp only [step, loadTask]
    split
    · next task htask =>
      split
      · next hallowed => exact h.startCall w ⟨s.store, hs, htask⟩ (.quiet hallowed)
      · exact h.idle
    · exact h.idle
  | writeResult w => exact h.writeResult hfits w
  | commit w =>
    rw [commit_of_not_committed (hst w rfl)]
    exact h.idle
  | crash w => exact h.rollback w rfl trivial (.quiet rfl)

end Staged

end Orchestrator.Concurrency
