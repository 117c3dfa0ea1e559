import Orchestrator.System.Transactions

/-!
# Tasks and decisions

Tasks and the decisions that get one correspond one to one. Task idempotency keys repeat
the event and the channel of the decision, so they are distinct and the planner never
meets its own unique index.
-/

namespace Orchestrator.System

open Base Domain Orchestration

/-- Canonical texts of row ids, `str(uuid)`: distinct, and made of hexadecimal digits and
hyphens. -/
structure IdText where
  text : Nat → String
  injective : Function.Injective text
  noColon : ∀ id, ':' ∉ (text id).toList

/-- Ids written in unary are such texts. -/
instance : Inhabited IdText where
  default :=
    { text := fun id => String.ofList (List.replicate id '1')
      injective := by
        intro i j h
        simpa using congrArg (fun s => s.toList.length) h
      noColon := by
        intro id h
        rw [String.toList_ofList] at h
        cases List.eq_of_mem_replicate h }

/-- The stored text of a task key, `src/orchestrator/orchestration/planner.py:304–306`. -/
def keyText (ids : IdText) (key : TaskIdempotencyKey) : String :=
  "outreach_task:" ++ ids.text key.inboundEventId ++ ":" ++ key.channel.value

/-- A colon separates texts whose parts have none. -/
theorem colon_inj {p x y x' y' : String} (hx : ':' ∉ x.toList) (hy : ':' ∉ y.toList)
    (h : p ++ x ++ ":" ++ y = p ++ x' ++ ":" ++ y') : x = x' ∧ y = y' := by
  have hchars := congrArg String.toList h
  have hcolon : ":".toList = [':'] := rfl
  simp only [String.toList_append, hcolon, List.append_assoc, List.append_cancel_left_eq,
    List.singleton_append] at hchars
  obtain ⟨hx, -, hy⟩ := (List.append_cons_inj_of_notMem hx hy).mp hchars
  exact ⟨String.toList_inj.mp hx, String.toList_inj.mp hy⟩

/-- Key texts are distinct: neither an id nor a channel contains the separator. -/
theorem keyText_injective (ids : IdText) : Function.Injective (keyText ids) := by
  intro x y h
  have hchannel : ':' ∉ x.channel.value.toList := by
    cases x.channel <;> decide
  obtain ⟨hid, hc⟩ := colon_inj (ids.noColon _) hchannel h
  have hsame : x.channel = y.channel := by
    revert hc
    cases x.channel <;> cases y.channel <;> decide
  exact congrArg₂ TaskIdempotencyKey.mk (ids.injective hid) hsame

/-- Every task points at the decision of its event and channel, every decision that gets a
task has one, and neither a decision nor a key is used twice. -/
structure Corresponds (decisions : List PolicyDecision) (tasks : List OutreachTask) : Prop where
  task : ∀ t ∈ tasks, ∃ d row, t.policyDecisionId = some d ∧ decisions[d]? = some row ∧
    row.channel = some t.channel ∧ TakesTask row.decision row.reasons ∧
    row.inboundEventId = some t.idempotencyKey.inboundEventId ∧
    t.idempotencyKey.channel = t.channel
  decision : ∀ d row, decisions[d]? = some row → TakesTask row.decision row.reasons →
    ∃ t ∈ tasks, t.policyDecisionId = some d
  decisionIds : (tasks.map OutreachTask.policyDecisionId).Nodup
  keys : (tasks.map OutreachTask.idempotencyKey).Nodup

/-- The correspondence is one of planned columns. -/
theorem Corresponds.of_planned {decisions : List PolicyDecision} {tasks tasks' : List OutreachTask}
    (h : Corresponds decisions tasks)
    (hp : tasks'.map OutreachTask.planned = tasks.map OutreachTask.planned) :
    Corresponds decisions tasks' := by
  have hcolumn {β : Type} {f : OutreachTask → β} (hf : ∀ t, f t.planned = f t) :
      tasks'.map f = tasks.map f := by
    have hmap (l : List OutreachTask) : l.map f = (l.map OutreachTask.planned).map f := by
      rw [List.map_map]
      exact List.map_congr_left fun t _ => (hf t).symm
    rw [hmap tasks', hp, ← hmap]
  have hmem {l l' : List OutreachTask} (he : l.map OutreachTask.planned =
      l'.map OutreachTask.planned) {t : OutreachTask} (ht : t ∈ l) :
      ∃ u ∈ l', u.planned = t.planned := by
    have hin : t.planned ∈ l'.map OutreachTask.planned := he ▸ List.mem_map_of_mem ht
    exact List.mem_map.mp hin
  refine ⟨?_, ?_, ?_, ?_⟩
  · intro t ht
    obtain ⟨u, hu, he⟩ := hmem hp ht
    obtain ⟨d, row, hd, hrow, hchannel, htakes, hevent, hkey⟩ := h.task u hu
    have hdecision : u.policyDecisionId = t.policyDecisionId :=
      congrArg (fun x => x.policyDecisionId) he
    have hch : u.channel = t.channel := congrArg (fun x => x.channel) he
    have hk : u.idempotencyKey = t.idempotencyKey := congrArg (fun x => x.idempotencyKey) he
    rw [hdecision] at hd
    rw [hch] at hchannel
    rw [hk] at hevent
    rw [hk, hch] at hkey
    exact ⟨d, row, hd, hrow, hchannel, htakes, hevent, hkey⟩
  · intro d row hrow htakes
    obtain ⟨t, ht, hd⟩ := h.decision d row hrow htakes
    obtain ⟨u, hu, he⟩ := hmem hp.symm ht
    exact ⟨u, hu, (congrArg (fun x => x.policyDecisionId) he).trans hd⟩
  · rw [hcolumn fun _ => rfl]
    exact h.decisionIds
  · rw [hcolumn fun _ => rfl]
    exact h.keys

/-- The store before the first request has neither decisions nor tasks. -/
theorem corresponds_empty : Corresponds [] [] := by
  constructor <;> simp

section

variable {rt : Runtime} {s s' : Store} {sub : EventSubmission} {effect : Effect}

/-- A planning pass of a fresh event extends the correspondence. -/
theorem Corresponds.plan (hs : Sourced s) (h : Corresponds s.policyDecisions s.outreachTasks)
    {ctx : EventContext} (hctx : ctx.inboundEventId = s.inboundEvents.length) (clock : Int)
    {os : List Outcome} (hchannels : (os.map fun o => o.result.channel).Nodup)
    (hos : ∀ o ∈ os, o.scheduledAt.isSome ↔ TakesTask o.result.decision o.result.reasons) :
    Corresponds (s.policyDecisions ++ plannedDecisions ctx os)
      (s.outreachTasks ++ plannedTasks ctx clock s.policyDecisions.length os) := by
  have hdecided {j : Nat} {o : Outcome} (ho : os[j]? = some o) :
      (s.policyDecisions ++ plannedDecisions ctx os)[s.policyDecisions.length + j]? =
        some (decisionRow ctx o.result) := by
    rw [List.getElem?_append_right (Nat.le_add_right _ _), Nat.add_sub_cancel_left,
      plannedDecisions, List.getElem?_map, ho]
    rfl
  have hids := plannedTasks_decisions ctx clock s.policyDecisions.length os
  have hkeys := plannedTasks_keys ctx clock s.policyDecisions.length os
  refine ⟨?_, ?_, ?_, ?_⟩
  · intro t ht
    rcases List.mem_append.mp ht with ht | ht
    · obtain ⟨d, row, hd, hrow, hrest⟩ := h.task t ht
      refine ⟨d, row, hd, ?_, hrest⟩
      rw [List.getElem?_append_left (List.getElem?_eq_some_iff.mp hrow).1, hrow]
    · obtain ⟨j, o, time, ho, htime, rfl⟩ := mem_plannedTasks.mp ht
      have htakes := (hos o (List.mem_of_getElem? ho)).mp (by rw [htime]; rfl)
      exact ⟨_, _, rfl, hdecided ho, rfl, htakes, rfl, rfl⟩
  · intro d row hrow htakes
    by_cases hd : d < s.policyDecisions.length
    · rw [List.getElem?_append_left hd] at hrow
      obtain ⟨t, ht, he⟩ := h.decision d row hrow htakes
      exact ⟨t, List.mem_append_left _ ht, he⟩
    · obtain ⟨j, rfl⟩ := Nat.exists_eq_add_of_le (Nat.le_of_not_lt hd)
      rw [List.getElem?_append_right (Nat.le_add_right _ _), Nat.add_sub_cancel_left,
        plannedDecisions, List.getElem?_map, Option.map_eq_some_iff] at hrow
      obtain ⟨o, ho, rfl⟩ := hrow
      obtain ⟨time, htime⟩ := Option.isSome_iff_exists.mp
        ((hos o (List.mem_of_getElem? ho)).mpr htakes)
      exact ⟨_, List.mem_append_right _ (mem_plannedTasks.mpr ⟨j, o, time, ho, htime, rfl⟩), rfl⟩
  · rw [List.map_append]
    refine List.nodup_append.mpr ⟨h.decisionIds, ?_, ?_⟩
    · exact hids.nodup (List.Nodup.map (fun _ _ => Option.some.inj) List.nodup_range')
    · intro x hx y hy hxy
      obtain ⟨t, ht, rfl⟩ := List.mem_map.mp hx
      obtain ⟨d, hd, hlt⟩ := hs.taskDecision t ht
      obtain ⟨k, hk, rfl⟩ := List.mem_map.mp (hids.mem hy)
      rw [hd, Option.some.injEq] at hxy
      have hle := (List.mem_range'_1.mp hk).1
      omega
  · rw [List.map_append]
    refine List.nodup_append.mpr ⟨h.keys, ?_, ?_⟩
    · exact hkeys.nodup (hchannels.map fun _ _ he => (TaskIdempotencyKey.mk.inj he).2)
    · intro x hx y hy hxy
      obtain ⟨t, ht, rfl⟩ := List.mem_map.mp hx
      obtain ⟨channel, -, rfl⟩ := List.mem_map.mp (hkeys.mem hy)
      have hlt := (hs.tasks t ht).event
      rw [hxy, hctx] at hlt
      exact Nat.lt_irrefl _ hlt

/-- Every transaction keeps the correspondence. -/
theorem Transaction.corresponds (hs : Sourced s)
    (hc : Corresponds s.policyDecisions s.outreachTasks) (h : Transaction rt s s') :
    Corresponds s'.policyDecisions s'.outreachTasks := by
  cases h with
  | @ingested sub effect clock h =>
    cases h.decision with
    | @planned ps os policyEvent window proposed decided =>
      refine hc.plan hs rfl clock ?_ ?_
      · rw [decideAll_channels (fun _ _ => rfl) decided, proposals_channels proposed]
        exact nodup_proposedChannels _
      · intro o ho
        obtain ⟨m, p, -, hd⟩ := mem_decideAll decided o ho
        exact scheduled_iff_takesTask hd
    | cancelled hmarker => exact hc.of_planned (map_planned_cancelWhere _ _)
  | wrote row h payload => exact hc.of_planned (map_planned_writeRow row h)
  | operatorCancelled row =>
    rw [cancelScheduledAccountOutreach_eq]
    exact hc.of_planned (map_planned_cancelWhere _ _)

end

/-- In every reachable store tasks correspond to the decisions that get one. -/
theorem run_corresponds (rt : Runtime) (clock : Int) (ops : List Op) :
    let s := (run (step rt) (start clock) ops).store
    Corresponds s.policyDecisions s.outreachTasks :=
  run_transaction_invariant (I := fun s => Corresponds s.policyDecisions s.outreachTasks)
    corresponds_empty (fun _ _ hs hc h => h.corresponds hs hc) clock ops

/-- The only unique index that an ingestion run alone can violate is the replay key's. -/
theorem ingestEventSnapshot_integrity {rt : Runtime} {s : Store} (hs : Sourced s)
    {sub : EventSubmission} {clock : Int} {index : UniqueIndex}
    (h : ingestEventSnapshot rt s sub clock = .error (.integrity index)) :
    index = .inboundEventsIdempotencyKey := by
  cases hnew : s.findExistingEvent sub.source sub.externalId with
  | some id =>
    rw [ingestEventSnapshot_seen hnew, resultFromExistingEvent] at h
    split at h <;> cases h
  | none =>
    rw [ingestEventSnapshot_eq hs clock hnew] at h
    exact (decideIngestion_raises rt sub _).map _ h

/-- In every reachable store every task has exactly one decision, of its own channel, a
decision has a task exactly when it permits or defers without the frequency cap, never
two, and never when it blocks; and the texts of task keys are distinct, so that no
ingestion violates their unique index. -/
theorem tasks_correspond_to_decisions (rt : Runtime) (clock : Int) (ops : List Op) :
    let s := (run (step rt) (start clock) ops).store
    (∀ (k : Nat) (t : OutreachTask), s.outreachTasks[k]? = some t → ∃ d row,
      t.policyDecisionId = some d ∧ s.policyDecisions[d]? = some row ∧
        row.channel = some t.channel ∧
        row.inboundEventId = some t.idempotencyKey.inboundEventId ∧
        t.idempotencyKey.channel = t.channel) ∧
    (∀ (k k' : Nat) (t t' : OutreachTask), s.outreachTasks[k]? = some t →
      s.outreachTasks[k']? = some t' → t.policyDecisionId = t'.policyDecisionId → k = k') ∧
    (∀ (d : Nat) (row : PolicyDecision), s.policyDecisions[d]? = some row →
      ((∃ t ∈ s.outreachTasks, t.policyDecisionId = some d) ↔ row.decision = .allow ∨
        row.decision = .defer ∧ .frequencyCapExceeded ∉ row.reasons) ∧
      (row.decision = .block → ∀ t ∈ s.outreachTasks, t.policyDecisionId ≠ some d)) ∧
    (∀ ids : IdText, (s.outreachTasks.map fun t => keyText ids t.idempotencyKey).Nodup) ∧
    ∀ (sub : EventSubmission) (now : Int), ingestEventSnapshot rt s sub now ≠
      .error (.integrity .outreachTasksIdempotencyKey) := by
  intro s
  have hc : Corresponds s.policyDecisions s.outreachTasks := run_corresponds rt clock ops
  have htakes {d : Nat} {row : PolicyDecision} (hrow : s.policyDecisions[d]? = some row)
      {t : OutreachTask} (ht : t ∈ s.outreachTasks) (hd : t.policyDecisionId = some d) :
      TakesTask row.decision row.reasons := by
    obtain ⟨d', row', hd', hrow', -, htakes, -⟩ := hc.task t ht
    obtain rfl : d' = d := Option.some.inj (hd'.symm.trans hd)
    obtain rfl : row' = row := Option.some.inj (hrow'.symm.trans hrow)
    exact htakes
  refine ⟨?_, ?_, ?_, ?_, ?_⟩
  · intro k t ht
    obtain ⟨d, row, hd, hrow, hchannel, -, hevent, hkey⟩ := hc.task t (List.mem_of_getElem? ht)
    exact ⟨d, row, hd, hrow, hchannel, hevent, hkey⟩
  · intro k k' t t' ht ht' hd
    exact Table.key_unique hc.decisionIds ht ht' hd
  · intro d row hrow
    refine ⟨⟨?_, hc.decision d row hrow⟩, ?_⟩
    · rintro ⟨t, ht, hd⟩
      exact htakes hrow ht hd
    · intro hblock t ht hd
      rcases htakes hrow ht hd with h | ⟨h, -⟩ <;> rw [hblock] at h <;> cases h
  · intro ids
    have hkeys := hc.keys.map (keyText_injective ids)
    rwa [List.map_map] at hkeys
  · intro sub now h
    cases ingestEventSnapshot_integrity (run_sourced rt clock ops) h

end Orchestrator.System
