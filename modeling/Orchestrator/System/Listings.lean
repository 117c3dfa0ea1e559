import Orchestrator.Api.Routes
import Orchestrator.System.Transactions

/-!
# What the read routes show

In every reachable store each task has its response, and the answer of `GET /v1/tasks` to
parameters that are accepted is a cut of one list: every task once, by creation time and id,
filtered by what the responses themselves say. The statement filters by the relations of the
rows instead.
-/

namespace Orchestrator.System

open Api Base Domain

/-- What a task's response says of its relations, when they exist. -/
def describe (gen : Generated) (s : Store) (task : OutreachTask × Nat) : OutreachTaskResponse where
  id := task.2
  accountExternalId := (s.accounts[task.1.accountId]?).elim "" Account.externalId
  customerExternalId := (s.customers[task.1.customerId]?).elim "" Customer.externalId
  channel := task.1.channel
  status := task.1.status
  correlationId := task.1.correlationId
  scheduledAt := task.1.scheduledAt
  attemptCount := task.1.attemptCount
  maxAttempts := task.1.maxAttempts
  lastError := task.1.lastError
  createdAt := task.1.createdAt
  updatedAt := gen.taskUpdatedAt task.2
  policyDecision := task.1.policyDecisionId.bind (policyDecisionContext s)

/-- The filters of a query as conditions on a response. -/
def selects (query : TaskQuery) (r : OutreachTaskResponse) : Bool :=
  query.status.all (fun status => r.status = status) &&
    (query.channel.all (fun channel => r.channel = channel) &&
      (query.customerExternalId.all (fun x => r.customerExternalId = x) &&
        query.accountExternalId.all fun x => r.accountExternalId = x))

/-- Every task's response in the order of creation times and ids. -/
def everyTask (gen : Generated) (s : Store) : List OutreachTaskResponse :=
  (Table.ordered (fun _ => true) gen.taskOrder s.outreachTasks).map (describe gen s)

section

variable {s : Store} (gen : Generated)

/-- A task whose relations exist has its response. -/
theorem taskResponse_eq (hs : Sourced s) {task : OutreachTask × Nat}
    (ht : task.1 ∈ s.outreachTasks) : taskResponse gen s task = some (describe gen s task) := by
  have hrefs := hs.tasks _ ht
  simp only [taskResponse, describe, List.getElem?_eq_getElem hrefs.account,
    List.getElem?_eq_getElem hrefs.customer, bind, Option.bind_some, Option.elim_some]

/-- The statement's filters are conditions on the response. -/
theorem selects_describe (hs : Sourced s) {task : OutreachTask × Nat}
    (ht : task.1 ∈ s.outreachTasks) (query : TaskQuery) :
    selects query (describe gen s task) = applyTaskFilters s query task.1 := by
  have hrefs := hs.tasks _ ht
  simp only [selects, applyTaskFilters, describe, List.getElem?_eq_getElem hrefs.account,
    List.getElem?_eq_getElem hrefs.customer, Option.elim_some, Option.any_some]

private theorem mapM_eq_map {α β : Type} {f : α → Option β} {g : α → β} {l : List α}
    (h : ∀ x ∈ l, f x = some (g x)) : l.mapM f = some (l.map g) := by
  induction l with
  | nil => rfl
  | cons x l ih =>
    rw [List.mapM_cons, h x List.mem_cons_self, ih fun y hy => h y (List.mem_cons_of_mem x hy)]
    rfl

/-- The answer to a query that can be bound is cut from the filtered list of all responses. -/
theorem listTasks_eq (hs : Sourced s) (query : TaskQuery) : listTasks gen s query =
    if query.bindable then
      some (((everyTask gen s).filter (selects query)).take query.limit.toNat)
    else none := by
  have hrow : ∀ q : OutreachTask → Bool,
      ∀ x ∈ Table.ordered q gen.taskOrder s.outreachTasks, x.1 ∈ s.outreachTasks :=
    fun q x hx => List.mem_of_getElem? (Table.mem_ordered.mp hx).1
  have hfilter : (Table.ordered (fun _ => true) gen.taskOrder s.outreachTasks).filter
      (selects query ∘ describe gen s) =
        Table.ordered (applyTaskFilters s query) gen.taskOrder s.outreachTasks := by
    have hsql := Table.filter_ordered gen.taskOrder_rowOrder (fun _ => true)
      (applyTaskFilters s query) s.outreachTasks
    simp only [Bool.true_and] at hsql
    rw [← hsql]
    exact List.filter_congr fun x hx => selects_describe gen hs (hrow _ x hx) query
  have hmap : (Table.page (applyTaskFilters s query) gen.taskOrder query.limit.toNat
      s.outreachTasks).mapM (taskResponse gen s) = some ((Table.page (applyTaskFilters s query)
        gen.taskOrder query.limit.toNat s.outreachTasks).map (describe gen s)) :=
    mapM_eq_map fun x hx => taskResponse_eq gen hs (hrow _ x (List.mem_of_mem_take hx))
  rw [listTasks, hmap, Table.page, everyTask, List.filter_map, hfilter, List.map_take]

/-- Every task is listed under its own id, once. -/
theorem everyTask_ids (s : Store) :
    ((everyTask gen s).map OutreachTaskResponse.id).Perm (List.range s.outreachTasks.length) := by
  have hids : (everyTask gen s).map OutreachTaskResponse.id =
      (Table.ordered (fun _ => true) gen.taskOrder s.outreachTasks).map Prod.snd := by
    rw [everyTask, List.map_map]
    rfl
  have hall : (Table.select (fun _ => true) s.outreachTasks).map Prod.snd =
      List.range s.outreachTasks.length := by
    simp [Table.select, List.zipIdx_map_snd, List.range_eq_range']
  rw [hids, ← hall]
  exact (Table.ordered_perm _ _ _).map Prod.snd

/-- The listed responses are sorted. -/
theorem everyTask_sorted (s : Store) :
    (everyTask gen s).Pairwise fun r r' => r.createdAt < r'.createdAt ∨
      r.createdAt = r'.createdAt ∧ gen.taskId r.id ≤ gen.taskId r'.id := by
  rw [everyTask, List.pairwise_map]
  refine (Table.ordered_pairwise gen.taskOrder_rowOrder _ _).imp fun h => ?_
  simp only [Generated.taskOrder, Bool.or_eq_true, Bool.and_eq_true, decide_eq_true_eq] at h
  exact h

end

/-- A stored task is loaded with its relations. -/
theorem getOutreachTask_stored (gen : Generated) {s : Store} (hs : Sourced s) {k : Nat}
    {t : OutreachTask} (hrow : s.outreachTasks[k]? = some t) :
    (getOutreachTask s k).bind (taskResponse gen s) = some (describe gen s (t, k)) := by
  rw [getOutreachTask, hrow]
  exact taskResponse_eq gen hs (List.mem_of_getElem? hrow)

/-- A stored task is shown by its own route. -/
theorem getTaskRoute_stored (gen : Generated) {s : Store} (hs : Sourced s) {k : Nat}
    {t : OutreachTask} (hrow : s.outreachTasks[k]? = some t) :
    getTaskRoute gen s k = ⟨200, .task (describe gen s (t, k))⟩ := by
  have hshown : taskResponse gen s (t, k) = some (describe gen s (t, k)) :=
    taskResponse_eq gen hs (List.mem_of_getElem? hrow)
  simp only [getTaskRoute, getOutreachTask, hrow, Option.map_some, hshown, Option.elim_some]

/-- What the routes that read tasks answer on a store: a list that holds every task once and in
order, its tasks one by one, and cuts of what fits the filters. A limit out of bounds is refused,
and a filter that PostgreSQL refuses is an internal error. -/
structure ShowsTasks (gen : Generated) (s : Store) : Prop where
  ids : ((everyTask gen s).map OutreachTaskResponse.id).Perm (List.range s.outreachTasks.length)
  sorted : (everyTask gen s).Pairwise fun r r' => r.createdAt < r'.createdAt ∨
    r.createdAt = r'.createdAt ∧ gen.taskId r.id ≤ gen.taskId r'.id
  get : ∀ r ∈ everyTask gen s, getTaskRoute gen s r.id = ⟨200, .task r⟩
  missing : ∀ k, s.outreachTasks.length ≤ k →
    getTaskRoute gen s k = ⟨404, .detail "Task not found"⟩
  list : ∀ query : TaskQuery, (1 ≤ query.limit ∧ query.limit ≤ 100) → query.bindable = true →
    listTasksRoute gen s query =
      ⟨200, .tasks (((everyTask gen s).filter (selects query)).take query.limit.toNat)⟩
  refused : ∀ query : TaskQuery, ¬(1 ≤ query.limit ∧ query.limit ≤ 100) →
    listTasksRoute gen s query = ⟨422, .parameterErrors query.errors⟩
  raised : ∀ query : TaskQuery, (1 ≤ query.limit ∧ query.limit ≤ 100) → query.bindable = false →
    listTasksRoute gen s query = internalServerError

/-- In every reachable store the answers of the task routes are consistent views of one list. -/
theorem task_routes_agree (rt : Runtime) (gen : Generated) (clock : Int) (ops : List Op) :
    ShowsTasks gen (run (step rt) (start clock) ops).store := by
  have hs := run_sourced rt clock ops
  refine ⟨everyTask_ids gen _, everyTask_sorted gen _, ?_, ?_, ?_, ?_, ?_⟩
  · intro r hr
    obtain ⟨⟨t, k⟩, ht, rfl⟩ := List.mem_map.mp hr
    exact getTaskRoute_stored gen hs (Table.mem_ordered.mp ht).1
  · intro k hk
    simp only [getTaskRoute, getOutreachTask, List.getElem?_eq_none hk, Option.map_none]
  · intro query hlimit hbindable
    have herrors := TaskQuery.errors_eq_nil.mpr hlimit
    simp only [listTasksRoute, herrors, ne_eq, not_true_eq_false, if_false, listTasks_eq gen hs,
      hbindable, if_true, Option.elim_some]
  · intro query hlimit
    exact if_pos (mt TaskQuery.errors_eq_nil.mp hlimit)
  · intro query hlimit hbindable
    have herrors := TaskQuery.errors_eq_nil.mpr hlimit
    simp only [listTasksRoute, herrors, ne_eq, not_true_eq_false, if_false, listTasks_eq gen hs,
      hbindable, Bool.false_eq_true, Option.elim_none]

end Orchestrator.System
