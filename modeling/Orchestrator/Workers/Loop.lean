import Orchestrator.Base.Ranking
import Orchestrator.Workers.Pass

/-!
# The polling worker

`_run_loop` of `src/orchestrator/workers/dispatch.py`: one pass after another, by the only
worker. No due task starves behind others, whatever the providers answer, and the retries
come to an end.
-/

namespace Orchestrator.Workers

open Base

/-- One call of `dispatch_due_tasks` by the loop. -/
structure Poll where
  adapters : Adapters
  args : PassArgs

/-- A poll that returns `n` and leaves the store `s'`. -/
def Poll.Returns (p : Poll) (s : Store) (n : Nat) (s' : Store) : Prop :=
  ∃ ids, DueAnswer s p.args.now.instant p.args.limit.toNat ids ∧
    dispatchDueTasks p.adapters p.args s ids = (s', .ok n)

/-- `_run_loop`, `src/orchestrator/workers/dispatch.py:220–226`, with what each poll returned.
An exception of a poll ends the process. -/
abbrev RunLoop : Store → List (Poll × Nat) → Store → Prop :=
  Steps fun s x s' => x.1.Returns s x.2 s'

section

variable {p : Poll} {s s' : Store} {n : Nat}

/-- A returning poll by its answer and its effect. -/
theorem Poll.Returns.effect (h : p.Returns s n s') :
    ∃ ids, DueAnswer s p.args.now.instant p.args.limit.toNat ids ∧ n = ids.length ∧
      Recordable p.adapters p.args 0 s ids ∧ PassEffect p.adapters p.args 0 s ids s' := by
  obtain ⟨ids, hids, hrun⟩ := h
  obtain ⟨hn, hfit, heffect⟩ := dispatchDueTasks_returned hids hrun
  exact ⟨ids, hids, hn, hfit, heffect⟩

/-- An attempt counts. -/
theorem attemptedRow_attemptCount (retryAt : Option Int) (t : OutreachTask)
    (outcome : SendOutcome) :
    (attemptedRow retryAt t outcome).attemptCount = t.attemptCount + 1 := by
  cases outcome with
  | delivered result => rfl
  | raised error =>
    by_cases hretry : t.attemptCount + 1 < t.maxAttempts <;> simp [attemptedRow, hretry]

/-- A poll attempts a task or leaves its row. -/
theorem Poll.Returns.row (h : p.Returns s n s') {k : Nat} {t : OutreachTask}
    (hrow : s.outreachTasks[k]? = some t) :
    s'.outreachTasks[k]? = some t ∨ due p.args.now.instant t = true ∧
      ∃ i, s'.outreachTasks[k]? =
        some (attemptedRow p.args.retryAt t (sendOutcome p.adapters i k (claimWrite t))) := by
  obtain ⟨ids, hids, -, -, heffect⟩ := h.effect
  by_cases hk : k ∈ ids
  · right
    obtain ⟨i, hi⟩ := List.getElem?_of_mem hk
    obtain ⟨t₀, hrow₀, hrow'⟩ := heffect.rows i k hi
    obtain ⟨t₁, hrow₁, hdue⟩ := hids.dueIds.row k hk
    obtain rfl : t₀ = t := Option.some.inj (hrow₀.symm.trans hrow)
    obtain rfl : t₁ = t₀ := Option.some.inj (hrow₁.symm.trans hrow)
    exact ⟨hdue, _, hrow'⟩
  · left
    rw [heffect.otherRows k hk]
    exact hrow

end

/-- A poll whose arguments are accepted and whose results can all be written. -/
def Poll.Sound (p : Poll) : Prop :=
  p.args.Accepted ∧
    ∀ i k t, Storable p.args (claimWrite t) (sendOutcome p.adapters i k (claimWrite t))

/-- Sound polls run one after another without an exception. -/
theorem runLoop_of_sound {ps : List Poll} (h : ∀ p ∈ ps, p.Sound) (s : Store) :
    ∃ polls s', polls.map Prod.fst = ps ∧ RunLoop s polls s' := by
  induction ps generalizing s with
  | nil => exact ⟨[], s, rfl, .nil s⟩
  | cons p ps ih =>
    obtain ⟨hargs, hresults⟩ := h p List.mem_cons_self
    have hids := dueAnswer_dueTaskIds s p.args.now.instant p.args.limit.toNat
    have hfit : Recordable p.adapters p.args 0 s
        (dueTaskIds s p.args.now.instant p.args.limit.toNat) := fun i k t _ _ => hresults _ k t
    obtain ⟨s₁, hrun⟩ := dispatchDueTasks_returns hargs hids hfit
    obtain ⟨polls, s', hpolls, hrest⟩ := ih (fun q hq => h q (List.mem_cons_of_mem p hq)) s₁
    refine ⟨(p, _) :: polls, s', ?_, .cons ⟨_, hids, hrun⟩ hrest⟩
    rw [List.map_cons, hpolls]

/-- So do the polls of a worker at given readings, one for each. -/
private theorem runLoop_at {poll : { u : Int // InRange u } → Poll}
    {times : List { u : Int // InRange u }} (h : ∀ now ∈ times, (poll now).Sound) (s : Store) :
    ∃ polls s', polls.map Prod.fst = times.map poll ∧ RunLoop s polls s' ∧
      polls.length = times.length ∧ ∀ x ∈ polls, ∃ now ∈ times, poll now = x.1 := by
  have hsound : ∀ p ∈ times.map poll, p.Sound := by
    intro p hp
    obtain ⟨now, hnow, rfl⟩ := List.mem_map.mp hp
    exact h now hnow
  obtain ⟨polls, s', hpolls, hrun⟩ := runLoop_of_sound hsound s
  refine ⟨polls, s', hpolls, hrun, ?_, fun x hx => ?_⟩
  · simpa using congrArg List.length hpolls
  · exact List.mem_map.mp (hpolls ▸ List.mem_map_of_mem hx)

/-- The time of a pass at a UTC reading. -/
theorem passAt_instant {u : Int} (h : InRange u) : (passAt u h).now.instant = u := Int.sub_zero u

/-- A pass at a UTC reading retries five minutes later. -/
theorem passAt_retryAt {u at' : Int} {h : InRange u} (hat : (passAt u h).retryAt = some at') :
    at' = u + 5 * minute := by
  obtain ⟨d, hd, hat⟩ := Option.bind_eq_some_iff.mp hat
  obtain ⟨hwall, -, htz⟩ := Datetime.ofWall_eq_some hd
  have hinstant := Datetime.timestamptz_eq_some hat
  have hoffset : d.utcoffset = 0 := by
    rw [Datetime.utcoffset, htz]
    rfl
  rw [hinstant, Datetime.instant, hoffset, hwall, Int.sub_zero]
  rfl

/-- A pass at a UTC reading is accepted. -/
theorem passAt_accepted {u : Int} (h : InRange u) : (passAt u h).Accepted := by
  constructor
  · rw [passAt_instant]
    exact h
  · exact Int.natCast_nonneg 10

/-! ### Waiting -/

/-- The scheduled tasks that a pass takes no later than `t`, `t` among them. -/
def waiting (s : Store) (t : OutreachTask) : Nat :=
  s.outreachTasks.countP fun u => u.status = .scheduled && dispatchOrder (u, 0) (t, 0)

section

variable {p : Poll} {s s' : Store} {n k : Nat} {t : OutreachTask}

/-- A task waits for itself at least. -/
theorem waiting_pos (hrow : s.outreachTasks[k]? = some t) (hscheduled : t.status = .scheduled) :
    0 < waiting s t := by
  apply List.countP_pos_iff.mpr
  refine ⟨t, List.mem_of_getElem? hrow, ?_⟩
  simp [hscheduled, dispatchOrder]

/-- An answer without a due task is full, and with tasks that go before it. -/
private theorem DueAnswer.overtaken {now : Int} {limit : Nat} {ids : List Nat}
    (h : DueAnswer s now limit ids) (hrow : s.outreachTasks[k]? = some t)
    (hdue : due now t = true) (hk : k ∉ ids) :
    ids.length = limit ∧ ∀ j ∈ ids, ∃ u, s.outreachTasks[j]? = some u ∧
      u.status = .scheduled ∧ dispatchOrder (u, 0) (t, 0) = true := by
  obtain ⟨rows, hperm, hsorted, rfl⟩ := h
  have hmem : (t, k) ∈ rows := hperm.mem_iff.mpr (Table.mem_select.mpr ⟨hrow, hdue⟩)
  rw [← List.take_append_drop limit rows] at hmem hsorted
  have hlate : (t, k) ∈ rows.drop limit := by
    rcases List.mem_append.mp hmem with hearly | hlate
    · exact absurd (List.mem_map.mpr ⟨_, hearly, rfl⟩) hk
    · exact hlate
  constructor
  · have hlength := List.length_pos_of_mem hlate
    rw [List.length_drop] at hlength
    rw [List.length_map, List.length_take]
    omega
  · intro j hj
    obtain ⟨⟨u, j⟩, hearly, rfl⟩ := List.mem_map.mp hj
    obtain ⟨hu, hdue'⟩ := Table.mem_select.mp (hperm.mem_iff.mp (List.mem_of_mem_take hearly))
    refine ⟨u, hu, scheduled_of_due hdue', ?_⟩
    show dispatchOrder (u, j) (t, k) = true
    exact (List.pairwise_append.mp hsorted).2.2 _ hearly _ hlate

/-- Counted rows as a sum. -/
private theorem countP_eq_sum {ρ : Type} (q : ρ → Bool) (l : List ρ) :
    l.countP q = (l.map fun r => (q r).toNat).sum := by
  induction l with
  | nil => rfl
  | cons r l ih =>
    rw [List.countP_cons, List.map_cons, List.sum_cons, ih, Nat.add_comm]
    cases q r <;> rfl

/-- A task that was attempted goes behind every task that was due with it. -/
private theorem attemptedRow_behind {u : OutreachTask} {outcome : SendOutcome} {args : PassArgs}
    (hstorable : Storable args (claimWrite u) outcome)
    (hretry : ∀ at', args.retryAt = some at' → args.now.instant < at')
    (hdue : t.scheduledAt ≤ args.now.instant) :
    ((attemptedRow args.retryAt u outcome).status = .scheduled &&
      dispatchOrder (attemptedRow args.retryAt u outcome, 0) (t, 0)) = false := by
  cases outcome with
  | delivered result => rfl
  | raised error =>
    by_cases hwill : u.attemptCount + 1 < u.maxAttempts
    · obtain ⟨at', hat⟩ := Option.isSome_iff_exists.mp (hstorable.2 (decide_eq_true hwill))
      have hlate := hretry at' hat
      simp only [attemptedRow, hwill, hat, if_true, Option.getD_some, dispatchOrder]
      simp
      omega
    · simp [attemptedRow, hwill]

/-- A poll attempts a due task or at least `limit` of the tasks that go before it. -/
private theorem Poll.Returns.waits {limit : Nat} (h : p.Returns s n s')
    (hlimit : (limit : Int) ≤ p.args.limit) (hdue : t.scheduledAt ≤ p.args.now.instant)
    (hretry : ∀ at', p.args.retryAt = some at' → p.args.now.instant < at')
    (hrow : s.outreachTasks[k]? = some t) (hscheduled : t.status = .scheduled) :
    (∃ t', s'.outreachTasks[k]? = some t' ∧ t.attemptCount < t'.attemptCount) ∨
      s'.outreachTasks[k]? = some t ∧ waiting s' t + limit ≤ waiting s t := by
  obtain ⟨ids, hids, -, hfit, heffect⟩ := h.effect
  by_cases hk : k ∈ ids
  · left
    obtain ⟨i, hi⟩ := List.getElem?_of_mem hk
    obtain ⟨t₀, hrow₀, hrow'⟩ := heffect.rows i k hi
    obtain rfl : t₀ = t := Option.some.inj (hrow₀.symm.trans hrow)
    refine ⟨_, hrow', ?_⟩
    rw [attemptedRow_attemptCount]
    exact Nat.lt_succ_self _
  · right
    obtain ⟨hlength, hbefore⟩ := hids.overtaken hrow (due_iff.mpr ⟨hscheduled, hdue⟩) hk
    refine ⟨(heffect.otherRows k hk).trans hrow, ?_⟩
    have hdrop : waiting s' t + ids.length ≤ waiting s t := by
      rw [waiting, waiting, countP_eq_sum, countP_eq_sum]
      refine sum_drop hids.dueIds.nodup (fun j hj => ?_) heffect.otherRows
      obtain ⟨i, hi⟩ := List.getElem?_of_mem hj
      obtain ⟨u, hu, hu'⟩ := heffect.rows i j hi
      obtain ⟨u₀, hu₀, hstatus, horder⟩ := hbefore j hj
      obtain rfl : u₀ = u := Option.some.inj (hu₀.symm.trans hu)
      refine ⟨u₀, _, hu, hu', ?_⟩
      rw [attemptedRow_behind (hfit i j u₀ hi hu) hretry hdue, hstatus, horder]
      rfl
    omega

/-- No due task starves: whatever the providers answer, it is attempted within as many polls
as the tasks before it need, since a task that fails goes behind it. -/
theorem attempted_within {limit : Nat} {polls : List (Poll × Nat)} (h : RunLoop s polls s')
    (hrow : s.outreachTasks[k]? = some t) (hscheduled : t.status = .scheduled)
    (hlimit : ∀ x ∈ polls, (limit : Int) ≤ x.1.args.limit)
    (hdue : ∀ x ∈ polls, t.scheduledAt ≤ x.1.args.now.instant)
    (hretry : ∀ x ∈ polls, ∀ at', x.1.args.retryAt = some at' → x.1.args.now.instant < at')
    (hlength : waiting s t ≤ limit * polls.length) :
    ∃ t', s'.outreachTasks[k]? = some t' ∧ t.attemptCount < t'.attemptCount := by
  have hkeep : ∀ (s : Store) (x : Poll × Nat) (s' : Store), x.1.Returns s x.2 s' →
      (∃ t', s.outreachTasks[k]? = some t' ∧ t.attemptCount < t'.attemptCount) →
      ∃ t', s'.outreachTasks[k]? = some t' ∧ t.attemptCount < t'.attemptCount := by
    intro s x s' hx hdone
    obtain ⟨t', hrow', hlt⟩ := hdone
    rcases hx.row hrow' with hsame | ⟨-, i, hnew⟩
    · exact ⟨t', hsame, hlt⟩
    · refine ⟨_, hnew, ?_⟩
      rw [attemptedRow_attemptCount]
      omega
  refine h.reaches (I := fun s : Store => s.outreachTasks[k]? = some t)
    (G := fun x : Poll × Nat => (limit : Int) ≤ x.1.args.limit ∧
      t.scheduledAt ≤ x.1.args.now.instant ∧
      ∀ at', x.1.args.retryAt = some at' → x.1.args.now.instant < at')
    (μ := fun s : Store => waiting s t) (c := limit) hkeep (fun s x s' hx hg hI => ?_)
    (fun s hI => waiting_pos hI hscheduled) (fun x hx => ⟨hlimit x hx, hdue x hx, hretry x hx⟩)
    hrow hlength
  exact hx.waits hg.1 hg.2.1 hg.2.2 hI hscheduled

end

/-- The polls of a worker whose email provider always fails. -/
def failingPoll (limit : Nat) (now : { u : Int // InRange u }) : Poll where
  adapters := failingEmail "bounced"
  args := { passAt now.1 now.2 with limit := limit }

private theorem failingPoll_sound {limit : Nat} {now : { u : Int // InRange u }}
    (h : (passAt now.1 now.2).retryAt.isSome = true) : (failingPoll limit now).Sound := by
  refine ⟨⟨(passAt_accepted now.2).1, Int.natCast_nonneg limit⟩, fun i k t => ?_⟩
  cases hc : t.channel with
  | email =>
    simp only [sendOutcome, failingPoll, failingEmail, claimWrite, hc]
    exact ⟨by decide, fun _ => h⟩
  | sms | call =>
    simp only [sendOutcome, failingPoll, failingEmail, claimWrite, hc]
    exact ⟨by decide, fun _ => h⟩

/-- Two times at which a worker polls. -/
def pollPair : List { u : Int // InRange u } :=
  [⟨day, by decide⟩, ⟨day + minute, by decide⟩]

/-- With room for one task in a poll, the second of three due tasks is attempted by the second
poll: the first one fails and goes behind it. -/
theorem attempted_within_demo :
    ∃ polls s', polls.map Prod.fst = pollPair.map (failingPoll 1) ∧
      RunLoop (queueStore day) polls s' ∧
      ∃ t', s'.outreachTasks[1]? = some t' ∧ 0 < t'.attemptCount := by
  have hexists : ∀ now ∈ pollPair, (passAt now.1 now.2).retryAt.isSome = true ∧ day ≤ now.1 := by
    decide
  have hsound : ∀ now ∈ pollPair, (failingPoll 1 now).Sound := fun now hnow =>
    failingPoll_sound (hexists now hnow).1
  obtain ⟨polls, s', hpolls, hrun, hlength, hpoll⟩ := runLoop_at hsound (queueStore day)
  refine ⟨polls, s', hpolls, hrun, ?_⟩
  have hlimit : ∀ x ∈ polls, ((1 : Nat) : Int) ≤ x.1.args.limit := by
    intro x hx
    obtain ⟨now, -, he⟩ := hpoll x hx
    rw [← he]
    exact Int.le_refl _
  refine attempted_within hrun (k := 1) rfl rfl hlimit (fun x hx => ?_) (fun x hx at' hat => ?_) ?_
  · obtain ⟨now, hnow, he⟩ := hpoll x hx
    rw [← he]
    show day - minute ≤ now.1 - 0
    have hlate := (hexists now hnow).2
    simp only [minute, second]
    omega
  · obtain ⟨now, -, he⟩ := hpoll x hx
    rw [← he] at hat ⊢
    show now.1 - 0 < at'
    rw [passAt_retryAt hat]
    simp only [minute, second]
    omega
  · rw [hlength]
    decide

/-! ### Draining -/

/-- The attempts that a task may still get. -/
def attemptsLeft (t : OutreachTask) : Nat :=
  if t.status = .scheduled then max 1 (t.maxAttempts - t.attemptCount) else 0

/-- The attempts that all tasks may still get. -/
def attemptBudget (s : Store) : Nat := (s.outreachTasks.map attemptsLeft).sum

section

variable {p : Poll} {s s' : Store} {n : Nat} {polls : List (Poll × Nat)}

/-- Every attempt spends one of the task's. -/
private theorem attemptedRow_attemptsLeft {t : OutreachTask} (h : t.status = .scheduled)
    (retryAt : Option Int) (outcome : SendOutcome) :
    attemptsLeft (attemptedRow retryAt t outcome) + 1 ≤ attemptsLeft t := by
  have hpos : 1 ≤ attemptsLeft t := by
    rw [attemptsLeft, if_pos h]
    exact Nat.le_max_left _ _
  cases outcome with
  | delivered result => exact hpos
  | raised error =>
    by_cases hwill : t.attemptCount + 1 < t.maxAttempts
    · simp only [attemptsLeft, attemptedRow, hwill, if_true, h]
      omega
    · simp only [attemptedRow, hwill, if_false]
      exact hpos

/-- A poll spends an attempt for every call of a provider. -/
theorem Poll.Returns.budget (h : p.Returns s n s') : attemptBudget s' + n ≤ attemptBudget s := by
  obtain ⟨ids, hids, rfl, -, heffect⟩ := h.effect
  refine sum_drop hids.dueIds.nodup (fun k hk => ?_) heffect.otherRows
  obtain ⟨i, hi⟩ := List.getElem?_of_mem hk
  obtain ⟨t, hrow, hrow'⟩ := heffect.rows i k hi
  obtain ⟨t₀, hrow₀, hdue⟩ := hids.dueIds.row k hk
  obtain rfl : t₀ = t := Option.some.inj (hrow₀.symm.trans hrow)
  exact ⟨t₀, _, hrow, hrow', attemptedRow_attemptsLeft (scheduled_of_due hdue) _ _⟩

/-- A loop calls providers no more often than the budget allows. -/
theorem RunLoop.budget (h : RunLoop s polls s') :
    (polls.map Prod.snd).sum + attemptBudget s' ≤ attemptBudget s := by
  induction h with
  | nil => simp
  | cons head tail ih =>
    have hhead := head.budget
    rw [List.map_cons, List.sum_cons]
    omega

/-- A poll that attempts nothing found nothing due. -/
private theorem Poll.Returns.idle (h : p.Returns s 0 s') (hlimit : 1 ≤ p.args.limit) :
    s' = s ∧ ∀ t ∈ s.outreachTasks, due p.args.now.instant t = false := by
  obtain ⟨ids, hids, hzero, -, heffect⟩ := h.effect
  have hnil : ids = [] := List.eq_nil_of_length_eq_zero hzero.symm
  subst hnil
  constructor
  · obtain ⟨ids', hids', hrun⟩ := h
    have hlength := (dispatchDueTasks_returned hids' hrun).1
    rw [List.eq_nil_of_length_eq_zero hlength.symm] at hrun
    unfold dispatchDueTasks at hrun
    split at hrun
    · simp at hrun
    · split at hrun
      · simp at hrun
      · exact (congrArg Prod.fst hrun).symm
  · have hcount := hids.length
    rw [List.length_nil] at hcount
    have hnone : s.outreachTasks.countP (due p.args.now.instant) = 0 := by omega
    intro t ht
    exact Bool.eq_false_iff.mpr (List.countP_eq_zero.mp hnone t ht)

/-- Every scheduled task is scheduled for `deadline` at the latest. -/
def ScheduledBy (deadline : Int) (s : Store) : Prop :=
  ∀ t ∈ s.outreachTasks, t.status = .scheduled → t.scheduledAt ≤ deadline

/-- A poll schedules retries for its own time plus the delay. -/
private theorem Poll.Returns.scheduledBy {deadline delay : Int} (h : p.Returns s n s')
    (hs : ScheduledBy deadline s) (hdeadline : p.args.now.instant + delay ≤ deadline)
    (hretry : ∀ at', p.args.retryAt = some at' → at' ≤ p.args.now.instant + delay) :
    ScheduledBy deadline s' := by
  obtain ⟨ids, hids, -, hfit, heffect⟩ := h.effect
  intro t' ht' hscheduled
  obtain ⟨k, hrow'⟩ := List.mem_iff_getElem?.mp ht'
  by_cases hk : k ∈ ids
  · obtain ⟨i, hi⟩ := List.getElem?_of_mem hk
    obtain ⟨t, hrow, hnew⟩ := heffect.rows i k hi
    obtain rfl := Option.some.inj (hrow'.symm.trans hnew)
    have hstorable := hfit i k t hi hrow
    revert hscheduled hstorable
    cases sendOutcome p.adapters (0 + i) k (claimWrite t) with
    | delivered result => exact fun hsent => by cases hsent
    | raised error =>
      intro hscheduled hstorable
      by_cases hwill : t.attemptCount + 1 < t.maxAttempts
      · obtain ⟨at', hat⟩ := Option.isSome_iff_exists.mp (hstorable.2 (decide_eq_true hwill))
        have hle := hretry at' hat
        simp only [attemptedRow, hwill, hat, if_true, Option.getD_some]
        omega
      · simp [attemptedRow, hwill] at hscheduled
  · rw [heffect.otherRows k hk] at hrow'
    exact hs t' (List.mem_of_getElem? hrow') hscheduled

/-- Nothing is scheduled when the budget is spent. -/
theorem attemptBudget_eq_zero :
    attemptBudget s = 0 ↔ ∀ t ∈ s.outreachTasks, t.status ≠ .scheduled := by
  rw [attemptBudget, List.sum_eq_zero_iff_forall_eq_nat, List.forall_mem_map]
  constructor
  · intro h t ht hscheduled
    have hzero := h t ht
    rw [attemptsLeft, if_pos hscheduled] at hzero
    omega
  · intro h t ht
    rw [attemptsLeft, if_neg (h t ht)]

/-- The times of polls. -/
def pollTimes (polls : List (Poll × Nat)) : List Int :=
  polls.map fun x => x.1.args.now.instant

/-- Times at least `gap` apart, the first as long after `last`. -/
def Spaced (gap : Int) : Int → List Int → Prop
  | _, [] => True
  | last, u :: times => last + gap ≤ u ∧ Spaced gap u times

section

variable {gap delay last deadline : Int} {polls' : List (Poll × Nat)}

/-- Spaced times split at every point. -/
private theorem spaced_append {times times' : List Int} :
    Spaced gap last (times ++ times') ↔
      Spaced gap last times ∧ Spaced gap (times.getLastD last) times' := by
  induction times generalizing last with
  | nil => simp [Spaced]
  | cons u times ih => rw [List.cons_append, Spaced, Spaced, ih, List.getLastD_cons, and_assoc]

/-- Every time takes the gap. -/
private theorem Spaced.getLastD_ge {times : List Int} (h : Spaced gap last times) :
    last + times.length * gap ≤ times.getLastD last := by
  induction times generalizing last with
  | nil => simp
  | cons u times ih =>
    have hrest := ih h.2
    have hfirst := h.1
    rw [List.getLastD_cons, List.length_cons, Int.natCast_succ, Int.add_mul, Int.one_mul]
    omega

/-- Retries of spaced polls are scheduled from the last poll on. -/
private theorem RunLoop.scheduledBy (hgap : 0 ≤ gap) (h : RunLoop s polls s')
    (hspaced : Spaced gap last (pollTimes polls)) (hs : ScheduledBy (last + delay) s)
    (hretry : ∀ x ∈ polls, ∀ at', x.1.args.retryAt = some at' →
      at' ≤ x.1.args.now.instant + delay) :
    ScheduledBy ((pollTimes polls).getLastD last + delay) s' := by
  induction h generalizing last with
  | nil => exact hs
  | @cons s m s' x polls head tail ih =>
    rw [pollTimes, List.map_cons, List.getLastD_cons]
    refine ih hspaced.2 (head.scheduledBy ?_ (Int.le_refl _) ?_) ?_
    · intro t ht hscheduled
      have hle := hs t ht hscheduled
      have hfirst : last + gap ≤ x.1.args.now.instant := hspaced.1
      omega
    · exact hretry x List.mem_cons_self
    · exact fun y hy => hretry y (List.mem_cons_of_mem x hy)

/-- Polls that attempt nothing until the last deadline leave nothing scheduled. -/
private theorem RunLoop.idle (h : RunLoop s polls s') (hs : ScheduledBy deadline s)
    (hlimit : ∀ x ∈ polls, 1 ≤ x.1.args.limit) (hnone : (polls.map Prod.snd).sum = 0)
    (hpolls : polls ≠ []) (htime : deadline ≤ (pollTimes polls).getLastD last) :
    attemptBudget s' = 0 := by
  induction h generalizing last with
  | nil => exact absurd rfl hpolls
  | @cons s m s' x polls head tail ih =>
    obtain ⟨p, n⟩ := x
    rw [List.map_cons, List.sum_cons] at hnone
    obtain rfl : n = 0 := by omega
    obtain ⟨rfl, hdue⟩ := head.idle (hlimit _ List.mem_cons_self)
    cases polls with
    | nil =>
      cases tail
      refine attemptBudget_eq_zero.mpr fun t ht hscheduled => ?_
      have hlate := hs t ht hscheduled
      have hnow : due p.args.now.instant t = true :=
        due_iff.mpr ⟨hscheduled, Int.le_trans hlate htime⟩
      rw [hdue t ht] at hnow
      cases hnow
    | cons y polls =>
      rw [pollTimes, List.map_cons, List.getLastD_cons] at htime
      exact ih hs (fun z hz => hlimit z (List.mem_cons_of_mem _ hz)) (by omega)
        (List.cons_ne_nil y polls) htime

/-- The budget falls by one at least while the time of a retry passes. -/
private theorem RunLoop.spent {m b : Nat} (hm : 0 < m) (hgap : 0 ≤ gap)
    (hdelay : delay ≤ m * gap) (h : RunLoop s polls s')
    (hspaced : Spaced gap last (pollTimes polls))
    (hs : ScheduledBy (last + delay) s) (hlimit : ∀ x ∈ polls, 1 ≤ x.1.args.limit)
    (hretry : ∀ x ∈ polls, ∀ at', x.1.args.retryAt = some at' →
      at' ≤ x.1.args.now.instant + delay)
    (hbudget : attemptBudget s ≤ b) (hlength : m * b ≤ polls.length) : attemptBudget s' = 0 := by
  induction b generalizing s last polls with
  | zero =>
    have hspent := RunLoop.budget h
    omega
  | succ b ih =>
    rw [Nat.mul_succ] at hlength
    rw [← List.take_append_drop m polls] at h hspaced
    rw [pollTimes, List.map_append] at hspaced
    obtain ⟨s₁, hfirst, hrest⟩ := Steps.split h
    obtain ⟨hspaced₁, hspaced₂⟩ := spaced_append.mp hspaced
    have htake : (polls.take m).length = m := by
      rw [List.length_take]
      omega
    have hretry₁ : ∀ x ∈ polls.take m, _ := fun x hx => hretry x (List.mem_of_mem_take hx)
    have hspent := RunLoop.budget hfirst
    have hbudget₁ : attemptBudget s₁ ≤ b := by
      by_cases hnone : ((polls.take m).map Prod.snd).sum = 0
      · have htime := hspaced₁.getLastD_ge
        rw [List.length_map, htake] at htime
        have hdone := RunLoop.idle hfirst hs (fun x hx => hlimit x (List.mem_of_mem_take hx))
          hnone (List.ne_nil_of_length_pos (by omega))
          (Int.le_trans (Int.add_le_add_left hdelay last) htime)
        omega
      · omega
    refine ih hrest hspaced₂ (RunLoop.scheduledBy hgap hfirst hspaced₁ hs hretry₁)
      (fun x hx => hlimit x (List.mem_of_mem_drop hx))
      (fun x hx => hretry x (List.mem_of_mem_drop hx)) hbudget₁ ?_
    rw [List.length_drop]
    omega

end

/-- A task that started as `t` and is still scheduled, or was sent, or has failed as often as
it may. -/
private def Awaits (t t' : OutreachTask) : Prop :=
  t'.maxAttempts = t.maxAttempts ∧
    (t'.status = .scheduled ∨ t'.status = .sent ∨
      t'.status = .failed ∧ t.maxAttempts ≤ t'.attemptCount)

private theorem Awaits.attempted {t t' : OutreachTask} (h : Awaits t t') (retryAt : Option Int)
    (outcome : SendOutcome) : Awaits t (attemptedRow retryAt t' outcome) := by
  cases outcome with
  | delivered result => exact ⟨h.1, Or.inr (Or.inl rfl)⟩
  | raised error =>
    by_cases hwill : t'.attemptCount + 1 < t'.maxAttempts
    · simp only [attemptedRow, hwill, if_true]
      exact ⟨h.1, Or.inl rfl⟩
    · simp only [attemptedRow, hwill, if_false]
      refine ⟨h.1, Or.inr (Or.inr ⟨rfl, ?_⟩)⟩
      have hmax := h.1
      show t.maxAttempts ≤ t'.attemptCount + 1
      omega

/-- The loop drains: once polls have gone on, `m` to a retry delay, for as long as the budget
of attempts requires, every scheduled task was sent or has failed as often as it may, and
the providers were called no more often than the budget. -/
theorem loop_drains {m : Nat} {gap delay last : Int} (hm : 0 < m) (hgap : 0 ≤ gap)
    (hdelay : delay ≤ m * gap) (h : RunLoop s polls s')
    (hspaced : Spaced gap last (pollTimes polls))
    (hs : ScheduledBy (last + delay) s) (hlimit : ∀ x ∈ polls, 1 ≤ x.1.args.limit)
    (hretry : ∀ x ∈ polls, ∀ at', x.1.args.retryAt = some at' →
      at' ≤ x.1.args.now.instant + delay)
    (hlength : m * attemptBudget s ≤ polls.length) :
    (∀ t ∈ s'.outreachTasks, t.status ≠ .scheduled) ∧
      (polls.map Prod.snd).sum ≤ attemptBudget s ∧
      ∀ (k : Nat) (t : OutreachTask), s.outreachTasks[k]? = some t → t.status = .scheduled →
        ∃ t', s'.outreachTasks[k]? = some t' ∧
          (t'.status = .sent ∨ t'.status = .failed ∧ t.maxAttempts ≤ t'.attemptCount) := by
  have hspent := RunLoop.spent hm hgap hdelay h hspaced hs hlimit hretry (Nat.le_refl _) hlength
  have hdone := attemptBudget_eq_zero.mp hspent
  refine ⟨hdone, ?_, fun k t hrow hscheduled => ?_⟩
  · have hbudget := RunLoop.budget h
    omega
  · have hrow' := Steps.invariant (I := fun s : Store => ∃ t', s.outreachTasks[k]? = some t' ∧
      Awaits t t') h (fun x _ s s' hx hI => ?_) ⟨t, hrow, rfl, Or.inl hscheduled⟩
    · obtain ⟨t', hrow', -, hstatus⟩ := hrow'
      refine ⟨t', hrow', ?_⟩
      rcases hstatus with hstatus | hstatus
      · exact absurd hstatus (hdone t' (List.mem_of_getElem? hrow'))
      · exact hstatus
    · obtain ⟨t', hrow', hawaits⟩ := hI
      rcases hx.row hrow' with hsame | ⟨-, i, hnew⟩
      · exact ⟨t', hsame, hawaits⟩
      · exact ⟨_, hnew, hawaits.attempted _ _⟩

end

/-- The three times at which a worker tries the only task. -/
def retryTimes : List { u : Int // InRange u } :=
  [⟨day, by decide⟩, ⟨day + 5 * minute, by decide⟩, ⟨day + 10 * minute, by decide⟩]

/-- Three polls, a retry delay apart, drain the store of one task with three attempts. -/
theorem loop_drains_demo :
    ∃ polls s', polls.map Prod.fst = retryTimes.map (failingPoll 10) ∧
      RunLoop (dueStore day) polls s' ∧ (∀ t ∈ s'.outreachTasks, t.status ≠ .scheduled) ∧
      (polls.map Prod.snd).sum ≤ 3 ∧
      ∀ (k : Nat) (t : OutreachTask), (dueStore day).outreachTasks[k]? = some t →
        t.status = .scheduled → ∃ t', s'.outreachTasks[k]? = some t' ∧
          (t'.status = .sent ∨ t'.status = .failed ∧ t.maxAttempts ≤ t'.attemptCount) := by
  have hexists : ∀ now ∈ retryTimes, (passAt now.1 now.2).retryAt.isSome = true := by decide
  have hsound : ∀ now ∈ retryTimes, (failingPoll 10 now).Sound := fun now hnow =>
    failingPoll_sound (hexists now hnow)
  obtain ⟨polls, s', hpolls, hrun, hlength, hpoll⟩ := runLoop_at hsound (dueStore day)
  refine ⟨polls, s', hpolls, hrun, ?_⟩
  have htimes : pollTimes polls = retryTimes.map Subtype.val := by
    have hmap : pollTimes polls = (polls.map Prod.fst).map fun p => p.args.now.instant := by
      rw [pollTimes, List.map_map]
      rfl
    rw [hmap, hpolls, List.map_map]
    exact List.map_congr_left fun now _ => passAt_instant now.2
  have hspaced : Spaced (5 * minute) (day - 5 * minute) (pollTimes polls) := by
    rw [htimes]
    simp only [retryTimes, List.map_cons, List.map_nil, Spaced]
    decide
  have hscheduled : ScheduledBy (day - 5 * minute + 5 * minute) (dueStore day) := by
    simp only [ScheduledBy, dueStore, List.mem_singleton, forall_eq]
    decide
  refine loop_drains (m := 1) Nat.one_pos (by decide) (by decide) hrun hspaced hscheduled
    (fun x hx => ?_) (fun x hx at' hat => ?_) ?_
  · obtain ⟨now, -, he⟩ := hpoll x hx
    rw [← he]
    simp [failingPoll, passAt]
  · obtain ⟨now, -, he⟩ := hpoll x hx
    rw [← he, failingPoll] at hat ⊢
    rw [passAt_instant, passAt_retryAt hat]
  · rw [hlength]
    decide

/-! ### The default adapters -/

end Orchestrator.Workers
