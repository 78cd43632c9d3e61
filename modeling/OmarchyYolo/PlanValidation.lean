import OmarchyYolo.Lib.DepthFirst
import OmarchyYolo.PlanGraph

/-!
# OmarchyYolo.PlanValidation — the task lists that the planner accepts

`validate` searches the task graph depth first, with the sets of the nodes on its path and
of the nodes it has finished; the dependencies of a task are a set too, which is gone
through in any order.

* `validateIn` — the validation, for an order of each task's dependencies;
* `WellFormedPlan` — what a plan should be;
* `validateIn_iff` — the validation accepts just that;
* `validate_iff` — so does the validation in the order of the lists.
-/

namespace OmarchyYolo

open Py Dependency

/-! ## The validation -/

def cycleError : Exn := .yoloError (lit "planner task graph contains a dependency cycle") []

/-- `Planner.validate`, where each set of dependencies is gone through in an order. -/
def validateIn (order : Str → List Str) (maxTasks : Nat) (tasks : List PlannedTask) :
    Except Exn Unit := do
  rejectIf (tasks = []) (lit "planner returned zero tasks")
  rejectIf (maxTasks < tasks.length)
    (lit "planner returned " ++ decimal tasks.length ++ lit " tasks; configured maximum is " ++
      decimal maxTasks)
  let ids := tasks.map (·.logicalId)
  rejectIf (∃ id ∈ ids, matchesIdRe id = false)
    (lit "planner task IDs must be short identifiers such as T1 or parser_fix")
  rejectIf (¬ ids.Nodup) (lit "planner returned duplicate task IDs")
  tasks.forM (validateTask ids)
  let _ ← ids.foldlM (search order cycleError (ids.length + 1)) ⟨[], []⟩
  return ()

/-- An order in which the sets of dependencies can be gone through. -/
def IterationOrder (tasks : List PlannedTask) (order : Str → List Str) : Prop :=
  ∀ id, (order id).Perm (dependencyGraph tasks id).dedup

/-! ## What a plan should be -/

structure WellFormedTask (known : List Str) (task : PlannedTask) : Prop where
  title : task.title ≠ [] ∧ task.title.length ≤ maxTitleChars
  description : task.description ≠ [] ∧ task.description.length ≤ maxDescriptionChars
  acceptance : task.acceptance.length ≤ maxAcceptanceItems ∧
    ∀ item ∈ task.acceptance, item.length ≤ maxAcceptanceChars
  dependsOn_nodup : task.dependsOn.Nodup
  dependsOn_known : ∀ d ∈ task.dependsOn, d ∈ known
  dependsOn_other : task.logicalId ∉ task.dependsOn
  risk : task.risk ∈ [lit "low", lit "medium", lit "high"]

structure WellFormedPlan (tasks : List PlannedTask) : Prop where
  nonempty : tasks ≠ []
  ids_match : ∀ task ∈ tasks, matchesIdRe task.logicalId = true
  ids_nodup : (tasks.map (·.logicalId)).Nodup
  tasks_wellFormed : ∀ task ∈ tasks, WellFormedTask (tasks.map (·.logicalId)) task
  acyclic : Acyclic (dependencyGraph tasks)

theorem validateTask_iff {known : List Str} {task : PlannedTask} :
    validateTask known task = .ok () ↔ WellFormedTask known task := by
  simp only [validateTask, bind_ok_iff, rejectIf_eq_ok, exists_const, not_or, not_lt, not_exists,
    not_and, Decidable.not_not, List.filter_eq_nil_iff, decide_eq_true_eq]
  constructor
  · rintro ⟨hpresent, htitle, hdescription, hacceptance, hitems, hnodup, hknown, hother, hrisk⟩
    exact ⟨⟨hpresent.1, htitle⟩, ⟨hpresent.2, hdescription⟩, ⟨hacceptance, hitems⟩, hnodup,
      hknown, hother, hrisk⟩
  · intro h
    exact ⟨⟨h.title.1, h.description.1⟩, h.title.2, h.description.2, h.acceptance.1,
      h.acceptance.2, h.dependsOn_nodup, h.dependsOn_known, h.dependsOn_other, h.risk⟩

/-! ## The task graph -/

section Graph

variable {tasks : List PlannedTask}

theorem dependencyGraph_of_notMem {id : Str} (h : id ∉ tasks.map (·.logicalId)) :
    dependencyGraph tasks id = [] := by
  have hnone : tasks.find? (·.logicalId = id) = none := by
    rw [List.find?_eq_none]
    intro task htask heq
    exact h (of_decide_eq_true heq ▸ List.mem_map_of_mem htask)
  rw [dependencyGraph, hnone]
  rfl

/-- The tasks of a plan depend on each other only. -/
theorem dependencyGraph_known
    (h : ∀ task ∈ tasks, WellFormedTask (tasks.map (·.logicalId)) task) {id d : Str}
    (hd : d ∈ dependencyGraph tasks id) : d ∈ tasks.map (·.logicalId) := by
  rw [dependencyGraph] at hd
  cases hfind : tasks.find? (·.logicalId = id) with
  | none =>
    rw [hfind] at hd
    cases hd
  | some task =>
    rw [hfind] at hd
    exact (h task (List.mem_of_find?_eq_some hfind)).dependsOn_known d hd

variable {order : Str → List Str}

/-- Two graphs with the same dependencies. -/
def SameMembers (order graph : Str → List Str) : Prop := ∀ id d, d ∈ order id ↔ d ∈ graph id

theorem IterationOrder.sameMembers (h : IterationOrder tasks order) :
    SameMembers order (dependencyGraph tasks) :=
  fun id _ => (h id).mem_iff.trans List.mem_dedup

theorem SameMembers.acyclic_iff {graph : Str → List Str} (h : SameMembers order graph) :
    Acyclic order ↔ Acyclic graph := by
  have hsame : DependsOn order = DependsOn graph := by
    funext n d
    exact propext (h n d)
  rw [Acyclic, Acyclic, hsame]

/-- The searches of the validation accept the graphs without a cycle. -/
theorem SameMembers.searches_iff (h : SameMembers order (dependencyGraph tasks))
    (htasks : ∀ task ∈ tasks, WellFormedTask (tasks.map (·.logicalId)) task) :
    (∃ c, (tasks.map (·.logicalId)).foldlM
        (search order cycleError ((tasks.map (·.logicalId)).length + 1)) ⟨[], []⟩ = .ok c) ↔
      Acyclic (dependencyGraph tasks) := by
  rw [← h.acyclic_iff]
  apply Dependency.searches_iff
  · intro n _ d hd
    exact dependencyGraph_known htasks ((h n d).mp hd)
  · intro n hn
    rw [List.eq_nil_iff_forall_not_mem]
    intro d hd
    have hmem := (h n d).mp hd
    rw [dependencyGraph_of_notMem hn] at hmem
    exact List.not_mem_nil hmem

end Graph

/-! ## What is accepted -/

section Accepted

variable {order : Str → List Str} {maxTasks : Nat} {tasks : List PlannedTask}

theorem validateIn_ok_iff (horder : SameMembers order (dependencyGraph tasks)) :
    validateIn order maxTasks tasks = .ok () ↔
      tasks.length ≤ maxTasks ∧ WellFormedPlan tasks := by
  simp only [validateIn, bind_ok_iff, rejectIf_eq_ok, exists_const, not_lt, not_exists, not_and,
    Bool.not_eq_false, Decidable.not_not, List.mem_map, forall_exists_index, and_imp,
    forall_apply_eq_imp_iff₂]
  constructor
  · rintro ⟨hnonempty, hlength, hmatch, hnodup, ⟨⟩, htasks, c, hc, -⟩
    have hwell : ∀ task ∈ tasks, WellFormedTask (tasks.map (·.logicalId)) task :=
      fun task htask => validateTask_iff.mp (forM_eq_ok.mp htasks task htask)
    exact ⟨hlength, hnonempty, hmatch, hnodup, hwell, (horder.searches_iff hwell).mp ⟨c, hc⟩⟩
  · rintro ⟨hlength, h⟩
    obtain ⟨c, hc⟩ := (horder.searches_iff h.tasks_wellFormed).mpr h.acyclic
    exact ⟨h.nonempty, hlength, h.ids_match, h.ids_nodup, (), forM_eq_ok.mpr fun task htask =>
      validateTask_iff.mpr (h.tasks_wellFormed task htask), c, hc, rfl⟩

/-- Of the task lists of the configured size, the validation accepts the well-formed plans,
whatever the order of the sets; and a plan without a cycle is one whose tasks have a
dependency order. -/
theorem validateIn_iff (order : Str → List Str) (maxTasks : Nat) (tasks : List PlannedTask)
    (horder : IterationOrder tasks order) :
    (validateIn order maxTasks tasks = .ok () ↔
      tasks.length ≤ maxTasks ∧ WellFormedPlan tasks) ∧
    ((tasks.map (·.logicalId)).Nodup →
      (∀ task ∈ tasks, WellFormedTask (tasks.map (·.logicalId)) task) →
      (Acyclic (dependencyGraph tasks) ↔
        ∃ ids, ids.Perm (tasks.map (·.logicalId)) ∧ PostOrder (dependencyGraph tasks) ids)) := by
  refine ⟨validateIn_ok_iff horder.sameMembers, fun hnodup htasks => ?_⟩
  exact acyclic_iff_postOrder hnodup (fun _ _ _ => dependencyGraph_known htasks)
    fun _ => dependencyGraph_of_notMem

end Accepted

/-! ## The order of the lists -/

section Lists

variable {graph : Str → List Str} {fuel : Nat}

/-- A loop of `visit`, and that of the searches. -/
theorem foldlM_visit_eq {visiting : List Str} {nodes : List Str}
    (hvisit : ∀ visited node, visit graph fuel visiting visited node =
      (search graph cycleError fuel ⟨visiting, visited⟩ node).map Colours.visited)
    (visited : List Str) :
    nodes.foldlM (visit graph fuel visiting) visited =
      (nodes.foldlM (search graph cycleError fuel) ⟨visiting, visited⟩).map Colours.visited := by
  induction nodes generalizing visited with
  | nil => rfl
  | cons node nodes ih =>
    rw [List.foldlM_cons, List.foldlM_cons, hvisit]
    cases hsearch : search graph cycleError fuel ⟨visiting, visited⟩ node with
    | error e => rfl
    | ok c =>
      have hrestored : c.visiting = visiting := (search_finishes hsearch).1.visiting
      have hcolours : c = ⟨visiting, c.visited⟩ := by rw [← hrestored]
      rw [hcolours]
      exact ih c.visited

/-- `visit` is the search, whose path is as before when it has ended. -/
theorem visit_eq_search (visiting visited : List Str) (node : Str) :
    visit graph fuel visiting visited node =
      (search graph cycleError fuel ⟨visiting, visited⟩ node).map Colours.visited := by
  induction fuel generalizing visiting visited node with
  | zero => rfl
  | succ fuel ih =>
    rw [visit, search]
    split_ifs with hdone hpath
    · rfl
    · rfl
    · rw [foldlM_visit_eq (ih (node :: visiting))]
      cases (graph node).foldlM (search graph cycleError fuel) ⟨node :: visiting, visited⟩ with
      | error e => rfl
      | ok c => rfl

/-- The validation in the order of the lists accepts them too. -/
theorem validate_iff {maxTasks : Nat} {tasks : List PlannedTask} :
    validate maxTasks tasks = .ok () ↔ tasks.length ≤ maxTasks ∧ WellFormedPlan tasks := by
  have hvalid := @validateIn_ok_iff (dependencyGraph tasks) maxTasks tasks fun _ _ => Iff.rfl
  rw [← hvalid]
  have hvisited : ∀ x : Except Exn (Colours Str),
      (∃ visited, x.map Colours.visited = .ok visited ∧ True) ↔ ∃ c, x = .ok c ∧ True := by
    intro x
    cases x with
    | error e => exact ⟨nofun, nofun⟩
    | ok c => exact ⟨fun _ => ⟨c, rfl, trivial⟩, fun _ => ⟨c.visited, rfl, trivial⟩⟩
  simp only [validate, validateIn, bind_ok_iff, foldlM_visit_eq (visit_eq_search []), pure,
    Except.pure, hvisited]

end Lists

/-! ## A plan -/

/-- Two tasks, one after the other. -/
def twoTaskPlan : List PlannedTask :=
  [{ logicalId := lit "T1", title := lit "First", description := lit "Do first" },
    { logicalId := lit "T2", title := lit "Second", description := lit "Do second"
      dependsOn := [lit "T1"] }]

theorem two_task_plan_wellFormed : WellFormedPlan twoTaskPlan :=
  ((validateIn_iff (fun id => (dependencyGraph twoTaskPlan id).dedup) 8 twoTaskPlan
    fun _ => .refl _).1.mp (by decide +kernel)).2

end OmarchyYolo
