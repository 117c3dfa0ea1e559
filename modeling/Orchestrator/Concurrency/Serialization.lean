import Orchestrator.Concurrency.StatusMachine
import Orchestrator.Concurrency.Transactions

/-!
# Serializability

Under any interleaving of the statements, the committed tables and every answer that a
session gets are those of operations in one step, one after the other. What such an
operation was given (a pass's queue, a claimed row, a selection, a loaded task) has been
read from tables that were committed earlier in the same order.
-/

namespace Orchestrator.Concurrency

open Base Domain Orchestration Workers

/-! ### Commits -/

/-- The tables with the given tasks and audit rows. -/
private def tables (rows : List OutreachTask) (log : List AuditEvent) : Store :=
  { Store.empty with outreachTasks := rows, auditEvents := log }

/-- A published update is a write of the tables. -/
private theorem store_of_update {s : State} {w k : Nat} {c : OutreachTask → Bool}
    {f : OutreachTask → OutreachTask} {e : OutreachTask → AuditEvent}
    (h : s.db.Executed w [.update k c f e]) (p : Session) :
    ∃ t, s.store.outreachTasks[k]? = some t ∧ c t = true ∧
      (s.execute w (s.db.commit w) p).store = writeTask s.store k f (e t) := by
  have hrun := h.commit_runs
  show ∃ t, s.db.rows[k]? = some t ∧ c t = true ∧
    tables (s.db.commit w).rows (s.db.commit w).log = _
  generalize (s.db.commit w).rows = rows, (s.db.commit w).log = log at hrun
  cases hrun with
  | @update _ _ _ _ t row hc =>
    refine ⟨t, row, hc, ?_⟩
    rw [writeTask, State.store, Table.modify_eq_set row]
    rfl

/-- A published loop is the loop on the tables. -/
private theorem store_of_loop {α : Type} {s : State} {w : Nat}
    {op : α → Operation OutreachTask AuditEvent} {G : Store → α → Store}
    (hG : ∀ rows log x rows' log', (op x).Runs rows log rows' log' →
      G (tables rows log) x = tables rows' log') {as : List α}
    (h : s.db.Executed w (as.map op)) (p : Session) :
    (s.execute w (s.db.commit w) p).store = as.foldl G s.store := by
  have hloop := h.commit_foldl (G := G) (R := fun x rows log => x = tables rows log)
    (s := s.store) ?_ rfl
  · exact hloop.symm
  · rintro _ rows log x rows' log' rfl hrun
    exact hG rows log x rows' log' hrun

private theorem insertPlanned_runs (rows : List OutreachTask) (log : List AuditEvent)
    (inserted : OutreachTask × AuditEvent) (rows' : List OutreachTask) (log' : List AuditEvent)
    (h : (planOperation inserted).Runs rows log rows' log') :
    insertPlanned (tables rows log) inserted = tables rows' log' := by
  cases h
  rfl

private theorem cancelTask_runs (ctx : EventContext) (rows : List OutreachTask)
    (log : List AuditEvent) (task : OutreachTask × Nat) (rows' : List OutreachTask)
    (log' : List AuditEvent) (h : (cancelOperation ctx task).Runs rows log rows' log') :
    cancelTask ctx (tables rows log) task = tables rows' log' := by
  cases h with
  | update row _ =>
    simp only [cancelTask, tables, Table.modify_eq_set row]
    rfl

private theorem store_of_operatorCancels {s : State} {w : Nat} {account : Account}
    {reason : String} {correlationId : Nat} {tasks : List (OutreachTask × Nat)}
    (h : s.db.Executed w (tasks.map (operatorOperation account reason correlationId)))
    (p : Session) :
    tasks.foldl (operatorCancelTask (operatorCancelledRow account reason correlationId))
      (s.store, 0) = ((s.execute w (s.db.commit w) p).store, tasks.length) := by
  -- the loop counts the audit rows that it appends
  have hloop := h.commit_foldl
    (G := operatorCancelTask (operatorCancelledRow account reason correlationId))
    (R := fun acc rows log => acc.1 = tables rows log ∧ s.db.log.length + acc.2 = log.length)
    (s := (s.store, 0)) ?_ ⟨rfl, rfl⟩
  · obtain ⟨hstore, hcount⟩ := hloop
    rw [Db.log_commit, List.length_append, List.length_map, ← h.length_eq, List.length_map]
      at hcount
    apply Prod.ext hstore
    show _ = tasks.length
    omega
  · rintro ⟨_, count⟩ rows log task rows' log' ⟨rfl, hcount⟩ hrun
    cases hrun with
    | update row hs =>
      have hget : (tables rows log).outreachTasks[task.2]? = some _ := row
      constructor
      · simp only [operatorCancelTask, Table.updateWhere, hget, Option.any_some, hs, if_true]
        rw [tables, Table.modify_eq_set row]
        rfl
      · simp only [operatorCancelTask, Table.updateWhere, hget, Option.any_some, hs, if_true]
        rw [List.length_append, List.length_singleton]
        omega

/-- Every task that was read is still stored, with the correlation id that it had. -/
def Kept (x s : Store) : Prop :=
  ∀ (k : Nat) (t : OutreachTask), x.outreachTasks[k]? = some t →
    ∃ t', s.outreachTasks[k]? = some t' ∧ t'.correlationId = t.correlationId

private theorem TaskWrite.correlationId {k : Nat} {t t' : OutreachTask} {a : AuditEvent}
    (h : TaskWrite k t t' a) : t'.correlationId = t.correlationId := by
  cases h with
  | claim => rfl
  | settle config copy outcome => cases outcome <;> rfl
  | close h => cases h <;> rfl

private theorem Kept.refl (s : Store) : Kept s s := fun _ t ht => ⟨t, ht, rfl⟩

/-- A commit keeps what was read. -/
theorem Kept.commit {x : Store} {s : State} (h : Kept x s.store) (hsound : Sound s.db s.sessions)
    (w : Nat) (p : Session) : Kept x (s.execute w (s.db.commit w) p).store := by
  have hkept := hsound.grounded.commit_induction w
    (P := fun rows _ => Kept x (tables rows [])) ?_ ?_ h
  · exact hkept
  · intro rows log k t t' a hrows row hw i u hu
    obtain ⟨u', hu', hcorrelation⟩ := hrows i u hu
    by_cases hi : i = k
    · subst hi
      obtain rfl : t = u' := Option.some.inj (row.symm.trans hu')
      have hlt := (List.getElem?_eq_some_iff.mp row).1
      exact ⟨t', List.getElem?_set_self hlt, hw.correlationId.trans hcorrelation⟩
    · refine ⟨u', ?_, hcorrelation⟩
      show (rows.set k t')[i]? = some u'
      rw [List.getElem?_set_ne (Ne.symm hi)]
      exact hu'
  · intro rows log t a hrows _ i u hu
    obtain ⟨u', hu', hcorrelation⟩ := hrows i u hu
    have hi : rows[i]? = some u' := hu'
    refine ⟨u', ?_, hcorrelation⟩
    show (rows ++ [t])[i]? = some u'
    rw [List.getElem?_append_left (List.getElem?_eq_some_iff.mp hi).1]
    exact hi

/-- The copy that a claim refreshed is the row that it commits. -/
private theorem claimed_row {db : Db OutreachTask AuditEvent} {w : Nat} {config : PassConfig}
    {queue : List Nat} {taskId : Nat} {task : OutreachTask}
    (h : db.Executed w [claimOperation config taskId])
    (hfits : Fits (.pass config queue (.claiming taskId task)) (db.txns w)) :
    ∃ t, db.rows[taskId]? = some t ∧ due config.now t = true ∧ task = claimWrite t := by
  unfold Db.Executed at h
  generalize db.txns w = cs at h hfits
  cases hfits with
  | quiet hq => cases hq
  | claiming =>
    cases h with
    | update row hdue _ => exact ⟨_, row, hdue, rfl⟩

private theorem committed_of_quiet {p : Session} (h : p.quiet = true) : p.committed = none := by
  unfold Session.quiet at h
  split at h <;> first | rfl | cases h

/-- What a commit publishes is what its operation computes in one step. -/
theorem Staged.commit_atomic {past : List Store} {memory : Nat → Session} {s : State} {w : Nat}
    {p : Session} (h : Staged past memory s) (hsound : Sound s.db s.sessions)
    (hkept : ∀ x ∈ past, Kept x s.store) (hp : (s.sessions w).committed = some p) :
    Atomic past s.store (memory w) (s.execute w (s.db.commit w) p).store p := by
  obtain ⟨-, reads, os, hprogress, hexecuted⟩ := h w
  have hfits := hsound.fits w
  generalize memory w = b at reads hprogress
  generalize s.sessions w = q at hprogress hfits hp
  cases hprogress with
  | quiet hq =>
    rw [committed_of_quiet hq] at hp
    cases hp
  | claiming config taskId queue task =>
    cases hp
    obtain ⟨t, ht, hdue, rfl⟩ := claimed_row hexecuted hfits
    obtain ⟨t', ht', -, hstore⟩ := store_of_update hexecuted
      (.pass config queue (.claimed taskId (claimWrite t)))
    obtain rfl : t = t' := Option.some.inj (ht.symm.trans ht')
    rw [hstore]
    exact .claim queue (claimTask_hit ht' hdue config.workerId)
  | settling config queue taskId task fits =>
    cases hp
    obtain ⟨t, ht, hd, hstore⟩ := store_of_update hexecuted (.pass config queue .ready)
    apply Atomic.settle queue
    rw [settleAttempt_hit ht hd, if_pos fits, hstore]
  | @recorded taskId task body allowed fits =>
    cases hp
    obtain ⟨t, ht, hs, hstore⟩ := store_of_update hexecuted .idle
    obtain ⟨x, hx, hloaded⟩ := reads
    obtain ⟨t', ht', hcorrelation⟩ := hkept x hx taskId task hloaded
    obtain rfl : t = t' := Option.some.inj (ht.symm.trans ht')
    have hrecord : Atomic past s.store (.manual taskId task body)
        (committedOr s.store (recordManualDeliveryResult s.store taskId task.status body)) .idle :=
      .record taskId task body
    rw [recordManualDeliveryResult_hit ht (of_decide_eq_true hs) hcorrelation allowed fits]
      at hrecord
    rw [hstore]
    exact hrecord
  | planning hall =>
    cases hp
    rw [store_of_loop insertPlanned_runs hexecuted]
    exact .plan hall
  | cancelling ctx done tasks =>
    cases tasks with
    | nil =>
      cases hp
      rw [store_of_loop (cancelTask_runs ctx) hexecuted, List.append_nil]
      exact .cancel ctx done
    | cons => cases hp
  | @operator account reason correlationId reached visited tasks swept =>
    cases tasks with
    | nil =>
      cases hp
      rw [List.append_nil] at swept ⊢
      exact .operator swept (store_of_operatorCancels hexecuted _)
    | cons => cases hp

/-- A session begins again after its commit, with a claimed row as it has committed it. -/
private theorem Stage.restart {past : List Store} {s : State} {w : Nat} {b p : Session}
    (h : Stage past s.db w b (s.sessions w)) (hfits : Fits (s.sessions w) (s.db.txns w))
    (hp : (s.sessions w).committed = some p) :
    Stage ((s.execute w (s.db.commit w) p).store :: past) (s.db.commit w) w p p := by
  have htxns : (s.db.commit w).txns w = [] := Function.update_self ..
  obtain ⟨-, reads, os, hprogress, hexecuted⟩ := h
  generalize s.sessions w = q at hprogress hfits hp
  cases hprogress with
  | quiet hq =>
    rw [committed_of_quiet hq] at hp
    cases hp
  | claiming config taskId queue task =>
    cases hp
    obtain ⟨t, ht, -, rfl⟩ := claimed_row hexecuted hfits
    obtain ⟨t', ht', -, hstore⟩ := store_of_update hexecuted
      (.pass config queue (.claimed taskId (claimWrite t)))
    obtain ⟨⟨x, hx, hqueue⟩, -⟩ := reads
    apply Stage.begin htxns _ (.quiet rfl)
    refine ⟨⟨x, List.mem_cons_of_mem _ hx, (List.suffix_cons taskId queue).trans hqueue⟩, ?_⟩
    rintro _ _ ⟨⟩
    refine ⟨_, List.mem_cons_self, ?_⟩
    rw [hstore]
    show (s.store.outreachTasks.modify taskId claimWrite)[taskId]? = _
    rw [List.getElem?_modify_eq, show s.store.outreachTasks[taskId]? = some t from ht]
    rfl
  | settling config queue taskId task fits =>
    cases hp
    obtain ⟨⟨x, hx, hqueue⟩, -⟩ := reads
    apply Stage.begin htxns _ (.quiet rfl)
    exact ⟨⟨x, List.mem_cons_of_mem _ hx, hqueue⟩, by simp [WorkerPhase.attempt]⟩
  | recorded | planning =>
    cases hp
    exact .begin htxns trivial (.quiet rfl)
  | cancelling ctx done tasks =>
    cases tasks <;> cases hp
    exact .begin htxns trivial (.quiet rfl)
  | @operator _ _ _ _ _ tasks =>
    cases tasks <;> cases hp
    exact .begin htxns trivial (.quiet rfl)

private theorem operates_of_committed {p q : Session} (h : q.committed = some p) :
    p.operates = false := by
  unfold Session.committed at h
  split at h <;> cases h <;> rfl

/-- A due commit starts a new transaction. -/
theorem Staged.commit {past : List Store} {memory : Nat → Session} {s : State} {w : Nat}
    {p : Session} (h : Staged past memory s) (hsound : Sound s.db s.sessions)
    (hp : (s.sessions w).committed = some p) :
    let s' := s.execute w (s.db.commit w) p
    Staged (s'.store :: past) (opened memory s') s' := by
  intro s' v
  by_cases hv : v = w
  · subst hv
    have htxns : s'.db.txns v = [] := Function.update_self ..
    have hsession : s'.sessions v = p := State.sessions_execute ..
    have hown : Stage (s'.store :: past) s'.db v p (s'.sessions v) := by
      rw [hsession]
      exact (h v).restart (hsound.fits v) hp
    apply hown.reopen
    right
    rw [hsession, operates_of_committed hp, Bool.and_false]
    exact ⟨rfl, htxns, rfl⟩
  · have hother : Stage (s'.store :: past) s'.db v (memory v) (s'.sessions v) := by
      rw [show s'.sessions v = s.sessions v from Function.update_of_ne hv ..]
      exact ((h v).commit hv).mono (List.suffix_cons _ past)
    exact hother.reopen (Or.inl rfl)

/-! ### Updates that do not hit -/

variable {past : List Store} {s s' : State} {w : Nat} {b : Session}

private theorem txns_of_hits {db : Db OutreachTask AuditEvent} {k : Nat}
    {c : OutreachTask → Bool} {f : OutreachTask → OutreachTask} {e : OutreachTask → AuditEvent}
    {r : OutreachTask} (hit : s.db.update w k c f e = .hits r db) : db.txns w ≠ [] := by
  obtain ⟨-, -, hfree, rfl⟩ := Db.update_eq_hits hit
  simp

private theorem row_of_misses {k : Nat} {c : OutreachTask → Bool}
    {f : OutreachTask → OutreachTask} {e : OutreachTask → AuditEvent} (hnil : s.db.txns w = [])
    (hmiss : s.db.update w k c f e = .misses) : (s.store.outreachTasks[k]?).any c = false := by
  have hrow := Db.update_eq_misses hmiss
  rw [Db.view_of_txns_eq_nil hnil] at hrow
  exact hrow

private theorem claim_misses (h : Stage past s.db w b (s.sessions w)) (hs' : claim s w = s')
    (hmoved : s'.sessions w ≠ s.sessions w) (htxns : s'.db.txns w = []) :
    Atomic past s.store b s'.store (s'.sessions w) := by
  unfold claim at hs'
  split at hs'
  · next config taskId queue hs =>
    split at hs'
    · exact absurd (hs' ▸ rfl) hmoved
    · next hmiss =>
      obtain ⟨rfl, hnil⟩ := h.of_quiet (by rw [hs]; rfl)
      have hrow := row_of_misses hnil hmiss
      subst hs'
      rw [State.sessions_execute, hs]
      exact .claim queue (claimTask_miss hrow config.workerId)
    · next hit =>
      subst hs'
      exact absurd htxns (txns_of_hits hit)
  · exact absurd (hs' ▸ rfl) hmoved

private theorem settle_misses (h : Stage past s.db w b (s.sessions w)) (hs' : settle s w = s')
    (hmoved : s'.sessions w ≠ s.sessions w) (htxns : s'.db.txns w = []) :
    Atomic past s.store b s'.store (s'.sessions w) := by
  unfold settle at hs'
  split at hs'
  · next config queue taskId task outcome hs =>
    obtain ⟨rfl, hnil⟩ := h.of_quiet (by rw [hs]; rfl)
    split at hs'
    · exact absurd (hs' ▸ rfl) hmoved
    · next hmiss =>
      have hrow := row_of_misses hnil hmiss
      subst hs'
      rw [State.sessions_execute, hs]
      exact .settle queue (settleAttempt_miss task config hrow outcome)
    · next t db hit =>
      split at hs'
      · subst hs'
        exact absurd htxns (txns_of_hits hit)
      · next hfits =>
        obtain ⟨row, hd, -, -⟩ := Db.update_eq_hits hit
        rw [Db.view_of_txns_eq_nil hnil] at row
        have hsettle : settleAttempt s.store taskId task outcome config = _ :=
          settleAttempt_hit row hd outcome
        rw [if_neg hfits] at hsettle
        subst hs'
        rw [State.sessions_execute, hs]
        exact .refuse queue hsettle
  · exact absurd (hs' ▸ rfl) hmoved

private theorem writeResult_misses (h : Stage past s.db w b (s.sessions w))
    (hfits : Fits (s.sessions w) (s.db.txns w)) (hs' : writeResult s w = s')
    (hmoved : s'.sessions w ≠ s.sessions w) (htxns : s'.db.txns w = []) :
    Atomic past s.store b s'.store (s'.sessions w) := by
  unfold writeResult at hs'
  split at hs'
  · next taskId task body hs =>
    rw [hs] at hfits
    obtain ⟨hnil, hallowed⟩ := hfits.manual
    obtain ⟨rfl, -⟩ := h.of_quiet (by rw [hs]; exact hallowed)
    have hrecord : Atomic past s.store (.manual taskId task body)
        (committedOr s.store (recordManualDeliveryResult s.store taskId task.status body)) .idle :=
      .record taskId task body
    split at hs'
    · exact absurd (hs' ▸ rfl) hmoved
    · next hmiss =>
      have hrow := row_of_misses hnil hmiss
      rw [recordManualDeliveryResult_miss (Or.inl hrow)] at hrecord
      subst hs'
      rw [State.sessions_execute, hs]
      exact hrecord
    · next t db hit =>
      split at hs'
      · subst hs'
        exact absurd htxns (txns_of_hits hit)
      · next hlast =>
        have hrefused := mt Option.isNone_iff_eq_none.mpr hlast
        rw [recordManualDeliveryResult_miss (Or.inr hrefused)] at hrecord
        subst hs'
        rw [State.sessions_execute, hs]
        exact hrecord
  · exact absurd (hs' ▸ rfl) hmoved

/-! ### Interleavings -/

private theorem concluding_eq_some {st : Statement} (h : concluding s st = some w) :
    st.caller = some w ∧ (step s st).sessions w ≠ s.sessions w ∧
      (step s st).db.txns w = [] := by
  obtain ⟨hcaller, hmoved⟩ := Option.filter_eq_some_iff.mp h
  rw [Bool.and_eq_true, decide_eq_true_eq, List.isEmpty_iff] at hmoved
  exact ⟨hcaller, hmoved.1, hmoved.2⟩

private theorem committed_ne {p q : Session} (h : q.committed = some p) : p ≠ q := by
  rintro rfl
  unfold Session.committed at h
  split at h <;> cases h

private theorem concluding_commit {p : Session} (hp : (s.sessions w).committed = some p) :
    concluding s (.commit w) = some w := by
  have htxns : (s.execute w (s.db.commit w) p).db.txns w = [] := Function.update_self ..
  apply Option.filter_eq_some_iff.mpr
  refine ⟨rfl, ?_⟩
  rw [step_commit hp, State.sessions_execute, htxns]
  simpa using committed_ne hp

/-- A statement that is no due commit leaves the committed tables as they are. -/
private theorem store_of_not_due {st : Statement}
    (hst : ∀ w, st = .commit w → (s.sessions w).committed = none) :
    (step s st).store = s.store := by
  have hstep := step_spec s st
  generalize step s st = s' at hstep
  cases hstep with
  | committed session =>
    rw [hst _ rfl] at session
    cases session
  | _ => rfl

/-- An operation that ends without a commit. -/
private theorem Staged.miss_atomic {memory : Nat → Session} (h : Staged past memory s)
    (hfits : ∀ w, Fits (s.sessions w) (s.db.txns w)) {st : Statement}
    (hst : ∀ w, st = .commit w → (s.sessions w).committed = none)
    (hc : concluding s st = some w) :
    Atomic past s.store (memory w) (step s st).store ((step s st).sessions w) := by
  obtain ⟨hcaller, hmoved, htxns⟩ := concluding_eq_some hc
  cases st with
  | claim v =>
    cases hcaller
    exact claim_misses (h w) rfl hmoved htxns
  | settle v =>
    cases hcaller
    exact settle_misses (h w) rfl hmoved htxns
  | writeResult v =>
    cases hcaller
    exact writeResult_misses (h w) (hfits w) rfl hmoved htxns
  | commit v =>
    cases hcaller
    rw [commit_of_not_committed (hst w rfl)] at hmoved
    exact absurd rfl hmoved
  | _ => cases hcaller

private theorem serial_of_staged (sts : List Statement) {memory : Nat → Session} {s : State}
    {past : List Store} (h : Staged (s.store :: past) memory s) (hsound : Sound s.db s.sessions)
    (hkept : ∀ x ∈ s.store :: past, Kept x s.store) :
    Serial (s.store :: past) (conclusions memory s sts) (run step s sts).store := by
  induction sts generalizing memory s past with
  | nil => exact .nil
  | cons st sts ih =>
    rw [conclusions, run_cons]
    have hsound' := step_sound s st hsound
    by_cases hdue : ∃ w p, st = .commit w ∧ (s.sessions w).committed = some p
    · obtain ⟨w, p, rfl, hp⟩ := hdue
      rw [step_commit hp] at hsound'
      rw [concluding_commit hp, step_commit hp]
      have hatomic := h.commit_atomic hsound hkept hp
      rw [← State.sessions_execute (s := s) (w := w) (s.db.commit w) p] at hatomic
      apply Serial.cons (h w).reads hatomic
      apply ih (h.commit hsound hp) hsound'
      intro x hx
      rcases List.mem_cons.mp hx with rfl | hx
      · exact .refl _
      · exact (hkept x hx).commit hsound w p
    · have hst : ∀ w, st = .commit w → (s.sessions w).committed = none := by
        intro w hw
        exact Option.eq_none_iff_forall_ne_some.mpr fun p hp => hdue ⟨w, p, hw, hp⟩
      have hstore := store_of_not_due hst
      have hnext := h.uncommitted hsound.fits st hst
      cases hc : concluding s st with
      | none =>
        rw [← hstore] at hnext hkept ⊢
        exact ih hnext hsound' hkept
      | some w =>
        apply Serial.cons (h w).reads (h.miss_atomic hsound.fits hst hc)
        apply ih _ hsound'
        · rw [hstore]
          intro x hx
          rcases List.mem_cons.mp hx with rfl | hx
          · exact .refl _
          · exact hkept x hx
        · intro v
          exact (hnext v).mono (List.suffix_cons _ _)

/-- Every interleaving is serial: its operations, run one after the other in the order in
which they end and on what their sessions have read before, give the same answers and
leave the same tables. Only the loop of an operator passes over tasks that it was given: those
that other sessions had claimed or closed in the meantime. -/
theorem interleaving_serial (planned : PlannedTasks) (sts : List Statement) :
    Serial [(start planned).store] (conclusions (fun _ => .idle) (start planned) sts)
      (run step (start planned) sts).store := by
  apply serial_of_staged sts _ (start_sound planned)
  · intro x hx
    obtain rfl := List.mem_singleton.mp hx
    exact .refl _
  · intro w
    exact .begin rfl trivial (.quiet rfl)

-- the cancellation ends last, although it selected the email before the claim
example : (conclusions (fun _ => .idle) (start .none) (demoStaleSelect ++ [.commit 1])).map
    Conclusion.session = [0, 2, 1] := by decide +kernel

-- the operator passes over the email: its update finds it claimed, and the retry comes later
example :
    let sts := demoPlanned ++
      [.startOperator 1 0 (newAccount (System.demoAccount "acct-1") 0) "paused" 7,
        .startPass 2 demoPass, .claim 2, .commit 2, .cancelNext 1, .callProvider 2,
        .providerReturns 2 (.raised "bounced"), .settle 2, .commit 2, .commit 1]
    (run step (start .none) sts).db.rows.map OutreachTask.status = [.scheduled] ∧
      (conclusions (fun _ => .idle) (start .none) sts).getLast?.map Conclusion.after =
        some (.returned 0) := by
  decide +kernel

end Orchestrator.Concurrency
