import Mathlib.Data.List.Nodup
import OmarchyYolo.Lib.PostOrder
import OmarchyYolo.Planner

/-!
# OmarchyYolo.PlanGraph — the task graph of an accepted plan

`visit` appends a node when it has finished its dependencies, so the nodes it
returns are in post-order: an accepted plan has no cycle to wait on.

* `visit_postOrder` — one depth-first search;
* `Validated.postOrder` — the searches of `validate`;
* `Validated.exists_ready`: of the tasks that are not done, one can start.
-/

namespace OmarchyYolo

open Py Dependency

/-! ## The search -/

/-- What a search has done to the nodes visited before it. -/
structure Extends (graph : Str → List Str) (visited result : List Str) : Prop where
  ordered : PostOrder graph result
  keeps : ∀ n ∈ visited, n ∈ result

/-- A loop of searches, when each search extends the visited nodes and reaches its own. -/
theorem foldlM_extends {graph : Str → List Str} {search : List Str → Str → Except Exn (List Str)}
    (hsearch : ∀ {visited result : List Str} {node : Str}, PostOrder graph visited →
      search visited node = .ok result → Extends graph visited result ∧ node ∈ result)
    {nodes visited result : List Str} (hv : PostOrder graph visited)
    (h : nodes.foldlM search visited = .ok result) :
    Extends graph visited result ∧ ∀ n ∈ nodes, n ∈ result := by
  induction nodes generalizing visited with
  | nil =>
    cases h
    exact ⟨⟨hv, fun n hn => hn⟩, fun n hn => absurd hn List.not_mem_nil⟩
  | cons node nodes ih =>
    rw [List.foldlM_cons] at h
    obtain ⟨between, hnode, hrest⟩ := bind_ok_iff.mp h
    have hfirst := hsearch hv hnode
    have hlast := ih hfirst.1.ordered hrest
    constructor
    · exact ⟨hlast.1.ordered, fun n hn => hlast.1.keeps n (hfirst.1.keeps n hn)⟩
    · intro n hn
      rcases List.mem_cons.mp hn with rfl | hn
      · exact hlast.1.keeps n hfirst.2
      · exact hlast.2 n hn

/-- A search that ends leaves the visited nodes in post-order, its own among them. -/
theorem visit_postOrder {graph : Str → List Str} {fuel : Nat} {visiting visited result : List Str}
    {node : Str} (hv : PostOrder graph visited)
    (h : visit graph fuel visiting visited node = .ok result) :
    Extends graph visited result ∧ node ∈ result := by
  induction fuel generalizing visiting visited result node with
  | zero => cases h
  | succ fuel ih =>
    rw [visit] at h
    split_ifs at h with hdone hcycle
    -- the node was visited before
    · cases h
      exact ⟨⟨hv, fun n hn => hn⟩, hdone⟩
    -- it is being visited: a cycle
    · cases h
    -- it is put in front of its dependencies
    · obtain ⟨between, hdeps, hret⟩ := bind_ok_iff.mp h
      cases hret
      have hloop := foldlM_extends (fun hv h => ih hv h) hv hdeps
      refine ⟨⟨⟨hloop.2, hloop.1.ordered⟩, ?_⟩, List.mem_cons_self⟩
      intro n hn
      exact List.mem_cons_of_mem node (hloop.1.keeps n hn)

/-! ## Accepted plans -/

section Accepted

variable {maxTasks : Nat} {tasks : List PlannedTask}

/-- In an accepted plan an ID names one task. -/
theorem Validated.dependencyGraph_eq (h : Validated maxTasks tasks) {task : PlannedTask}
    (htask : task ∈ tasks) : dependencyGraph tasks task.logicalId = task.dependsOn := by
  have hfind : tasks.find? (fun t => t.logicalId = task.logicalId) = some task := by
    cases hfound : tasks.find? (fun t => t.logicalId = task.logicalId) with
    | none =>
      have hnone := List.find?_eq_none.mp hfound task htask
      exact absurd (decide_eq_true rfl) hnone
    | some found =>
      have hsame : found.logicalId = task.logicalId := by simpa using List.find?_some hfound
      have hmem := List.mem_of_find?_eq_some hfound
      rw [List.inj_on_of_nodup_map h.ids_nodup hmem htask hsame]
  rw [dependencyGraph, hfind]
  rfl

/-- The searches of `validate` have visited every task. -/
theorem Validated.postOrder (h : Validated maxTasks tasks) :
    ∃ order, PostOrder (dependencyGraph tasks) order ∧ ∀ task ∈ tasks, task.logicalId ∈ order := by
  obtain ⟨order, hvisit⟩ := h.visited
  have hempty : PostOrder (dependencyGraph tasks) [] := trivial
  have hloop := foldlM_extends (fun hv h => visit_postOrder hv h) hempty hvisit
  refine ⟨order, hloop.1.ordered, ?_⟩
  intro task htask
  exact hloop.2 _ (List.mem_map_of_mem htask)

/-- Everything an accepted task depends on is a task. -/
theorem Validated.dependsOn_known (h : Validated maxTasks tasks) {task : PlannedTask}
    (htask : task ∈ tasks) : ∀ d ∈ task.dependsOn, ∃ t ∈ tasks, t.logicalId = d := by
  have hvalid := h.tasks_valid task htask
  simp only [validateTask, bind_ok_iff, rejectIf_eq_ok, Decidable.not_not] at hvalid
  obtain ⟨-, -, -, -, -, -, -, -, -, -, -, -, -, hmissing, -⟩ := hvalid
  intro d hd
  have hknown := List.filter_eq_nil_iff.mp hmissing d hd
  simpa using hknown

/-- Of the tasks of an accepted plan that are not done, one has only dependencies
that are. -/
theorem Validated.exists_ready (h : Validated maxTasks tasks) {done : Str → Prop}
    (hleft : ∃ task ∈ tasks, ¬ done task.logicalId) :
    ∃ task ∈ tasks, ¬ done task.logicalId ∧ ∀ d ∈ task.dependsOn, done d := by
  obtain ⟨order, horder, hall⟩ := h.postOrder
  -- nodes of the search that are no tasks have no dependencies; they count as done
  let settled : Str → Prop := fun id => (∃ t ∈ tasks, t.logicalId = id) → done id
  rcases hleft with ⟨task, htask, hnot⟩
  have hunsettled : ¬ settled task.logicalId := fun himp => hnot (himp ⟨task, htask, rfl⟩)
  rcases horder.exists_ready (hall task htask) hunsettled with ⟨id, -, hid, hdeps⟩
  obtain ⟨⟨t, ht, rfl⟩, hwaiting⟩ := Classical.not_imp.mp hid
  refine ⟨t, ht, hwaiting, ?_⟩
  rw [h.dependencyGraph_eq ht] at hdeps
  intro d hd
  exact hdeps d hd (h.dependsOn_known ht d hd)

end Accepted

end OmarchyYolo
