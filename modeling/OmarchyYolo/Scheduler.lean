import OmarchyYolo.Database
import OmarchyYolo.Lib.Transition
import OmarchyYolo.PlanGraph
import OmarchyYolo.TaskBranch

/-!
# OmarchyYolo.Scheduler — the task graph of a job

`_execute_dag` starts a coroutine for every task whose dependencies are
completed, as far as `max_parallel` allows, and waits for one of them to end.
Between two waits nothing else runs, so an iteration of its loop is one step;
while it waits, the coroutines take steps in any order.

* `dagTurn` — one iteration, up to the wait;
* `executeDag` — the loop beside its coroutines and the rest of the daemon.
-/

namespace OmarchyYolo

open Py Sql Txn

/-! ## Handles -/

/-- What has become of a coroutine. -/
inductive HandleState where
  | live
  | returned (ok : Bool)
  | cancelled
  | raised (message : Str)
deriving DecidableEq, Repr

/-- The `asyncio.Task` of a task's coroutine; `name` is the id of the task. -/
structure Handle where
  name : Text
  state : HandleState
deriving DecidableEq, Repr

/-- `not handle.done()`. -/
def Handle.isLive (handle : Handle) : Bool := handle.state == .live

/-- The handle of a coroutine that ends with a result; other handles are unchanged. -/
def Handle.finish (name : Text) (result : HandleState) (handle : Handle) : Handle :=
  if handle = ⟨name, .live⟩ then ⟨name, result⟩ else handle

/-- What `_execute_dag` raises. -/
inductive DagError where
  | cancelledError
  /-- `task(s) failed: ...`, with the IDs and the last errors. -/
  | tasksFailed (failures : List (Str × Str))
  /-- `task graph stalled with blocked tasks`. -/
  | stalled
  /-- The message of what a coroutine raised. -/
  | coroutineRaised (message : Str)
  /-- `... failed: ...`, for the task of a coroutine that returned false. -/
  | coroutineFailed (logicalId lastError : Str)
  /-- What an operation of the database raised. -/
  | exn (e : Exn)
deriving DecidableEq, Repr

/-! ## One iteration -/

/-- What an iteration of the loop comes to. -/
inductive Turn where
  | raises (e : DagError)
  | returns
  /-- The branch that marks the remaining tasks as blocked. -/
  | stalls (remaining : List TaskRow)
  /-- `asyncio.wait(running)`. -/
  | waits (running : List Handle)
deriving DecidableEq, Repr

/-- The tasks that can be started. -/
def readyTasks (tasks : List TaskRow) (active : List Handle) : List TaskRow :=
  let completed := (tasks.filter fun t => t.state = .completed).map TaskRow.logicalId
  let activeIds := ((active.filter Handle.isLive).map Handle.name).filter (·.val ≠ [])
  tasks.filter fun t =>
    t.state = .pending ∧ (∀ d ∈ t.dependencies, d ∈ completed) ∧ t.id ∉ activeIds

/-- The handles of the started tasks. -/
def startedHandles (maxParallel : Int) (tasks : List TaskRow) (active : List Handle) :
    List Handle :=
  let capacity := maxParallel - (active.filter Handle.isLive).length
  ((readyTasks tasks active).take (max 0 capacity).toNat).map fun t => ⟨t.id, .live⟩

/-- The handles that are not done after the start. -/
def runningHandles (maxParallel : Int) (tasks : List TaskRow) (active : List Handle) :
    List Handle :=
  active.filter Handle.isLive ++ startedHandles maxParallel tasks active

def failedTasks (tasks : List TaskRow) : List TaskRow := tasks.filter fun t => t.state = .failed

def remainingTasks (tasks : List TaskRow) : List TaskRow :=
  tasks.filter fun t => t.state ≠ .completed

/-- What follows the query of the tasks. -/
def scheduleTasks (maxParallel : Int) (tasks : List TaskRow) (active : List Handle) : Turn :=
  if failedTasks tasks ≠ [] then
    .raises (.tasksFailed ((failedTasks tasks).map fun t => (t.logicalId.val, t.lastError.val)))
  else if tasks ≠ [] ∧ ∀ t ∈ tasks, t.state = .completed then .returns
  else if runningHandles maxParallel tasks active ≠ [] then
    .waits (runningHandles maxParallel tasks active)
  else if remainingTasks tasks ≠ [] then .stalls (remainingTasks tasks)
  else .returns

/-- An iteration of the loop of `_execute_dag`. -/
def dagTurn (jobId : Text) (maxParallel : Int) (active : List Handle) : StoreDb Turn := do
  let job ← getJob jobId.val
  if job.stopRequested then return .raises .cancelledError
  let tasks ← listTasks jobId.val
  return scheduleTasks maxParallel tasks active

/-- The loop over the remaining tasks of a graph that has stalled. -/
def blockTasks (now : Timestamp) : List TaskRow → StoreDb Unit
  | [] => pure ()
  | t :: remaining => do
    updateTask t.id.val
      { state := some (lit TaskState.blocked.value)
        lastError := some (lit "dependency graph made no schedulable progress") } now
    blockTasks now remaining

/-! ## The loop and its coroutines -/

/-- Where `_execute_dag` stands. -/
inductive Control where
  | scheduling
  | waiting
  | stalling (remaining : List TaskRow)
  | returned
  | raised (e : DagError)
deriving DecidableEq, Repr

/-- The database, the handles that have not been looked at since they were done,
and the loop. -/
structure Dag where
  store : Store
  active : List Handle
  control : Control

/-- The loop after an iteration. -/
def Dag.after (active : List Handle) : EStateM.Result Exn Store Turn → Dag
  | .error e s => ⟨s, active, .raised (.exn e)⟩
  | .ok (.raises e) s => ⟨s, active, .raised e⟩
  | .ok .returns s => ⟨s, active, .returned⟩
  | .ok (.stalls remaining) s => ⟨s, active, .stalling remaining⟩
  | .ok (.waits running) s => ⟨s, running, .waiting⟩

/-- The loop after it has blocked the remaining tasks. -/
def Dag.afterBlocking (active : List Handle) : EStateM.Result Exn Store Unit → Dag
  | .error e s => ⟨s, active, .raised (.exn e)⟩
  | .ok () s => ⟨s, active, .raised .stalled⟩

/-- What `handle.result()` of a failed handle makes the loop raise. -/
def Dag.handleError (s : Store) (handle : Handle) : DagError :=
  match handle.state with
  | .raised message => .coroutineRaised message
  | .returned _ =>
    match s.task? handle.name with
    | some t => .coroutineFailed t.logicalId.val t.lastError.val
    | none => .exn (.keyError handle.name.val)
  | _ => .cancelledError

inductive DagStep where
  /-- The first iteration. -/
  | turn
  /-- The wait ends, every handle that is done has returned true, and the loop goes on. -/
  | wake
  /-- The wait ends, and a handle that is done has failed. -/
  | wakeFailed (handle : Handle)
  | block (now : Timestamp)
  /-- The loop is cancelled while it waits. -/
  | cancel
  /-- A live coroutine updates its task. -/
  | work (name : Text) (fields : TaskFields) (now : Timestamp)
  /-- A coroutine is done. -/
  | finish (name : Text) (result : HandleState)
  /-- A step that leaves the rows of the job's tasks alone: of a coroutine, of a
  client's request, or of another job. -/
  | elsewhere

/-- The state of a task whose coroutine is done: one that returned true has
completed its task, and one that returned false has failed it. -/
def FinishedTask (s : Store) (name : Text) : HandleState → Prop
  | .live => False
  | .returned ok => ∃ t ∈ s.tasks, t.id = name ∧ t.state = if ok then .completed else .failed
  | _ => True

def SameJobTasks (jobId : Text) (s s' : Store) : Prop :=
  ∀ t : TaskRow, t.jobId = jobId → (t ∈ s'.tasks ↔ t ∈ s.tasks)

/-- `_execute_dag`, started on a store. -/
def executeDag (jobId : Text) (maxParallel : Int) (start : Store) : Lts.System Dag DagStep where
  init d := d = ⟨start, [], .scheduling⟩
  step d l d' :=
    match l with
    | .turn => d.control = .scheduling ∧
        d' = Dag.after d.active (dagTurn jobId maxParallel d.active d.store)
    | .wake => d.control = .waiting ∧ (∃ h ∈ d.active, h.isLive = false) ∧
        (∀ h ∈ d.active, h.isLive = false → h.state = .returned true) ∧
        d' = Dag.after (d.active.filter Handle.isLive)
          (dagTurn jobId maxParallel (d.active.filter Handle.isLive) d.store)
    | .wakeFailed handle => d.control = .waiting ∧ handle ∈ d.active ∧ handle.isLive = false ∧
        handle.state ≠ .returned true ∧
        d' = { d with control := .raised (Dag.handleError d.store handle) }
    | .block now => ∃ remaining, d.control = .stalling remaining ∧
        d' = Dag.afterBlocking d.active (blockTasks now remaining d.store)
    | .cancel => d.control = .waiting ∧ d' = { d with control := .raised .cancelledError }
    | .work name fields now => ⟨name, .live⟩ ∈ d.active ∧
        ∃ s', updateTask name.val fields now d.store = .ok () s' ∧ d' = { d with store := s' }
    | .finish name result => ⟨name, .live⟩ ∈ d.active ∧ FinishedTask d.store name result ∧
        d' = { d with active := d.active.map (Handle.finish name result) }
    | .elsewhere => ∃ s', SameJobTasks jobId d.store s' ∧ d' = { d with store := s' }

/-! ## What the loop keeps -/

/-- A task of the job that is completed. -/
def CompletedTask (s : Store) (jobId logicalId : Text) : Prop :=
  ∃ t ∈ s.tasks, t.jobId = jobId ∧ t.logicalId = logicalId ∧ t.state = .completed

/-- What holds of the handles at every moment. -/
structure HandlesSafe (jobId : Text) (maxParallel : Int) (s : Store) (active : List Handle) :
    Prop where
  /-- A handle belongs to a task of the job, all of whose dependencies are completed. -/
  started_ready : ∀ h ∈ active, ∃ t ∈ s.tasks, t.id = h.name ∧ t.jobId = jobId ∧
    ∀ dep ∈ t.dependencies, CompletedTask s jobId dep
  one_handle : ((active.filter Handle.isLive).map Handle.name).Nodup
  bounded : (active.filter Handle.isLive).length ≤ maxParallel

/-- What holds of `_execute_dag` at every moment. -/
structure DagSafe (jobId : Text) (maxParallel : Int) (d : Dag) : Prop where
  handles : HandlesSafe jobId maxParallel d.store d.active
  returned_completed : d.control = .returned →
    ∀ t ∈ d.store.tasks, t.jobId = jobId → t.state = .completed
  never_stalls : ∀ remaining, d.control ≠ .stalling remaining

/-- The tasks of the job are those of a plan. -/
structure StoredPlan (planned : List PlannedTask) (jobId : Text) (s : Store) : Prop where
  row_planned : ∀ t ∈ s.tasks, t.jobId = jobId → ∃ task ∈ planned,
    t.logicalId.val = task.logicalId ∧ t.dependencies.map Text.val = task.dependsOn
  planned_row : ∀ task ∈ planned, ∃ t ∈ s.tasks, t.jobId = jobId ∧
    t.logicalId.val = task.logicalId
  row_id : ∀ t ∈ s.tasks, t.jobId = jobId → t.id.val ≠ []

/-- A task is completed, or waits to be started, or its coroutine has not ended well. -/
def Settled (s : Store) (jobId : Text) (active : List Handle) : Prop :=
  ∀ t ∈ s.tasks, t.jobId = jobId → t.state = .pending ∨ t.state = .completed ∨
    ∃ h ∈ active, h.name = t.id ∧ h.state ≠ .returned true

/-- The invariant of the loop. -/
structure DagInv (planned : List PlannedTask) (jobId : Text) (maxParallel : Int) (d : Dag) :
    Prop where
  stored : StoredPlan planned jobId d.store
  settled : Settled d.store jobId d.active
  idle : d.control = .scheduling → d.active = []
  safe : DagSafe jobId maxParallel d

/-! ## Steps of the database -/

section Store

variable {s s' : Store} {jobId : Text} {planned : List PlannedTask}

/-- What a coroutine's update does to a row: others stay, and its own keeps its place
in the graph, and stays completed. -/
def CoroutineEdge (name : Text) (t t' : TaskRow) : Prop :=
  t'.dependencies = t.dependencies ∧ (t.id ≠ name → t' = t) ∧
    (t.state = .completed → t'.state = .completed)

theorem CoroutineEdge.refl (name : Text) (t : TaskRow) : CoroutineEdge name t t :=
  ⟨rfl, fun _ => rfl, fun h => h⟩

theorem updateTask_evolves {name : Text} {fields : TaskFields} {now : Timestamp}
    (h : updateTask name.val fields now s = .ok () s') :
    Table.Evolves (CoroutineEdge name) (fun _ => False) s.tasks s'.tasks := by
  rcases updateTask_cases h with ⟨-, rfl⟩ |
    ⟨id, task, job, columns, target, t, hid, htask, -, -, htrans, -, hactivated, -, -, rfl, -⟩
  · exact Table.Evolves.refl fun r _ => CoroutineEdge.refl name r
  · obtain rfl : id = name := Text.ext hid
    rw [← hactivated.tasks]
    refine Table.Evolves.update (columns.write_key target now) ?_ fun r _ =>
      CoroutineEdge.refl id r
    intro r _ hp
    simp only [Bool.and_eq_true, beq_iff_eq] at hp
    refine ⟨rfl, fun hne => absurd hp.1 hne, ?_⟩
    -- no transition leaves the completed state
    intro hdone
    rw [hp.2] at hdone
    rw [hdone] at htrans
    exact List.mem_singleton.mp htrans

theorem CompletedTask.evolves {name : Text} {logicalId : Text}
    (h : CompletedTask s jobId logicalId)
    (hev : Table.Evolves (CoroutineEdge name) (fun _ => False) s.tasks s'.tasks) :
    CompletedTask s' jobId logicalId := by
  rcases h with ⟨t, ht, hjob, hlogical, hdone⟩
  rcases hev.forward ht with ⟨t', ht', hkey, -, -, hstays⟩
  injection hkey with hid hkey
  injection hkey with hjob' hlogical'
  exact ⟨t', ht', hjob'.trans hjob, hlogical'.trans hlogical, hstays hdone⟩

theorem StoredPlan.evolves {name : Text} (h : StoredPlan planned jobId s)
    (hev : Table.Evolves (CoroutineEdge name) (fun _ => False) s.tasks s'.tasks) :
    StoredPlan planned jobId s' := by
  -- every row has come from one with the same place in the graph
  have hback : ∀ t' ∈ s'.tasks, t'.jobId = jobId → ∃ t ∈ s.tasks, t.jobId = jobId ∧
      t'.id = t.id ∧ t'.logicalId = t.logicalId ∧ t'.dependencies = t.dependencies := by
    intro t' ht' hjob
    rcases hev.backward ht' with ⟨t, ht, hkey, hdeps, -⟩ | hfalse
    · injection hkey with hid hkey
      injection hkey with hjob' hlogical
      exact ⟨t, ht, hjob'.symm.trans hjob, hid, hlogical, hdeps⟩
    · cases hfalse
  constructor
  · intro t' ht' hjob
    rcases hback t' ht' hjob with ⟨t, ht, htjob, -, hlogical, hdeps⟩
    rw [hlogical, hdeps]
    exact h.row_planned t ht htjob
  · intro task htask
    rcases h.planned_row task htask with ⟨t, ht, hjob, hlogical⟩
    rcases hev.forward ht with ⟨t', ht', hkey, -⟩
    injection hkey with hid hkey
    injection hkey with hjob' hlogical'
    exact ⟨t', ht', hjob'.trans hjob, by rw [hlogical', hlogical]⟩
  · intro t' ht' hjob
    rcases hback t' ht' hjob with ⟨t, ht, htjob, hid, -⟩
    rw [hid]
    exact h.row_id t ht htjob

theorem StoredPlan.same (h : StoredPlan planned jobId s) (hsame : SameJobTasks jobId s s') :
    StoredPlan planned jobId s' := by
  constructor
  · intro t ht hjob
    exact h.row_planned t ((hsame t hjob).mp ht) hjob
  · intro task htask
    rcases h.planned_row task htask with ⟨t, ht, hjob, hlogical⟩
    exact ⟨t, (hsame t hjob).mpr ht, hjob, hlogical⟩
  · intro t ht hjob
    exact h.row_id t ((hsame t hjob).mp ht) hjob

theorem CompletedTask.same {logicalId : Text} (h : CompletedTask s jobId logicalId)
    (hsame : SameJobTasks jobId s s') : CompletedTask s' jobId logicalId := by
  rcases h with ⟨t, ht, hjob, hrest⟩
  exact ⟨t, (hsame t hjob).mpr ht, hjob, hrest⟩

end Store

/-! ## One iteration -/

section Turn

variable {s : Store} {jobId : Text} {planned : List PlannedTask} {maxTasks : Nat}
  {maxParallel : Int} {tasks : List TaskRow} {active : List Handle}

theorem scheduleTasks_returns (h : scheduleTasks maxParallel tasks active = .returns) :
    ∀ t ∈ tasks, t.state = .completed := by
  unfold scheduleTasks at h
  split_ifs at h with hfailed hdone hrunning hremaining
  · exact hdone.2
  · -- nothing remains
    intro t ht
    by_contra hstate
    exact hremaining (List.ne_nil_of_mem (List.mem_filter.mpr ⟨ht, by simpa using hstate⟩))

theorem scheduleTasks_waits {running : List Handle}
    (h : scheduleTasks maxParallel tasks active = .waits running) :
    running = runningHandles maxParallel tasks active := by
  unfold scheduleTasks at h
  split_ifs at h
  cases h
  rfl

theorem scheduleTasks_stalls {remaining : List TaskRow}
    (h : scheduleTasks maxParallel tasks active = .stalls remaining) :
    active.filter Handle.isLive = [] ∧ startedHandles maxParallel tasks active = [] ∧
      ∃ t ∈ tasks, t.state ≠ .completed := by
  unfold scheduleTasks at h
  split_ifs at h with hfailed hdone hrunning hremaining
  obtain ⟨hlive, hstarted⟩ := List.append_eq_nil_iff.mp (not_not.mp hrunning)
  rcases List.exists_mem_of_ne_nil _ hremaining with ⟨t, ht⟩
  obtain ⟨hmem, hstate⟩ := List.mem_filter.mp ht
  exact ⟨hlive, hstarted, t, hmem, by simpa using hstate⟩

theorem mem_readyTasks {t : TaskRow} :
    t ∈ readyTasks tasks active ↔ t ∈ tasks ∧ t.state = .pending ∧
      (∀ d ∈ t.dependencies, ∃ u ∈ tasks, u.state = .completed ∧ u.logicalId = d) ∧
      ∀ h ∈ active, h.isLive = true → h.name = t.id → t.id.val = [] := by
  simp only [readyTasks, List.mem_filter, List.mem_map, decide_eq_true_eq]
  constructor
  · rintro ⟨ht, hpending, hdeps, hinactive⟩
    refine ⟨ht, hpending, ?_, ?_⟩
    · intro d hd
      rcases hdeps d hd with ⟨u, ⟨hu, hdone⟩, hlogical⟩
      exact ⟨u, hu, hdone, hlogical⟩
    · intro h hh hlive hname
      by_contra hne
      exact hinactive ⟨⟨h, ⟨hh, hlive⟩, hname⟩, hne⟩
  · rintro ⟨ht, hpending, hdeps, hinactive⟩
    refine ⟨ht, hpending, ?_, ?_⟩
    · intro d hd
      rcases hdeps d hd with ⟨u, hu, hdone, hlogical⟩
      exact ⟨u, ⟨hu, hdone⟩, hlogical⟩
    · rintro ⟨⟨h, ⟨hh, hlive⟩, hname⟩, hne⟩
      exact hne (hinactive h hh hlive hname)

theorem mem_startedHandles {h : Handle} (hh : h ∈ startedHandles maxParallel tasks active) :
    h.isLive = true ∧ ∃ t ∈ readyTasks tasks active, t.id = h.name := by
  obtain ⟨t, ht, rfl⟩ := List.mem_map.mp hh
  exact ⟨rfl, t, List.mem_of_mem_take ht, rfl⟩

/-- A graph in which tasks wait for each other and no coroutine lives would have a
task to start. -/
theorem exists_readyTask (hplan : Validated maxTasks planned)
    (hstored : StoredPlan planned jobId s) (hsettled : Settled s jobId active)
    (hdone : ∀ h ∈ active, h.isLive = false → h.state = .returned true)
    (hlive : active.filter Handle.isLive = [])
    (hleft : ∃ t ∈ s.tasks, t.jobId = jobId ∧ t.state ≠ .completed) :
    ∃ t, t ∈ readyTasks ((s.tasksOf jobId).map taskFromRow) active := by
  -- no coroutine is live
  have hidle : ∀ h ∈ active, h.isLive = false := by
    intro h hh
    have := List.filter_eq_nil_iff.mp hlive h hh
    simpa using this
  let done : Str → Prop := fun id => ∃ t ∈ s.tasks, t.jobId = jobId ∧ t.logicalId.val = id ∧
    t.state = .completed
  -- a task is known by its logical identity within the job
  have hunique : ∀ t ∈ s.tasks, t.jobId = jobId → ∀ u ∈ s.tasks, u.jobId = jobId →
      t.logicalId.val = u.logicalId.val → t = u := by
    intro t ht htjob u hu hujob heq
    apply Table.eq_of_clash ht hu
    refine Or.inr ?_
    change (t.jobId, t.logicalId) = (u.jobId, u.logicalId)
    rw [htjob, hujob, Text.ext heq]
  -- some task of the plan is not done, so one of them has only dependencies that are
  have hwaiting : ∃ task ∈ planned, ¬ done task.logicalId := by
    rcases hleft with ⟨t, ht, hjob, hstate⟩
    rcases hstored.row_planned t ht hjob with ⟨task, htask, hlogical, -⟩
    refine ⟨task, htask, ?_⟩
    rintro ⟨u, hu, hujob, hulogical, hudone⟩
    rw [hunique t ht hjob u hu hujob (hlogical.trans hulogical.symm)] at hstate
    exact hstate hudone
  rcases hplan.exists_ready hwaiting with ⟨task, htask, hnot, hdeps⟩
  rcases hstored.planned_row task htask with ⟨t, ht, hjob, hlogical⟩
  -- the row of that task meets the four conditions of `readyTasks`
  refine ⟨taskFromRow t, mem_readyTasks.mpr ⟨?_, ?_, ?_, ?_⟩⟩
  · exact List.mem_map_of_mem (Store.mem_tasksOf.mpr ⟨ht, hjob⟩)
  -- it is pending: neither completed, nor failed by its coroutine
  · rcases hsettled t ht hjob with hpending | hcompleted | ⟨h, hh, -, hbad⟩
    · exact hpending
    · exact absurd ⟨t, ht, hjob, hlogical, hcompleted⟩ hnot
    · exact absurd (hdone h hh (hidle h hh)) hbad
  -- its dependencies are completed, in the rows as in the plan
  · intro d hd
    rcases hstored.row_planned t ht hjob with ⟨task', htask', hlogical', hdeps'⟩
    have hsame : task' = task :=
      List.inj_on_of_nodup_map hplan.ids_nodup htask' htask (hlogical'.symm.trans hlogical)
    have hd' : d.val ∈ task.dependsOn := by
      rw [← hsame, ← hdeps']
      exact List.mem_map_of_mem hd
    rcases hdeps d.val hd' with ⟨u, hu, hujob, hulogical, hudone⟩
    exact ⟨taskFromRow u, List.mem_map_of_mem (Store.mem_tasksOf.mpr ⟨hu, hujob⟩), hudone,
      Text.ext hulogical⟩
  -- and no coroutine has it
  · intro h hh hl
    rw [hidle h hh] at hl
    cases hl

/-- An iteration reads the job and its tasks, and writes nothing. -/
theorem dagTurn_cases (jobId : Text) (maxParallel : Int) (active : List Handle) (s : Store) :
    (∃ e, dagTurn jobId maxParallel active s = .error e s) ∨
      dagTurn jobId maxParallel active s = .ok (.raises .cancelledError) s ∨
      dagTurn jobId maxParallel active s =
        .ok (scheduleTasks maxParallel ((s.tasksOf jobId).map taskFromRow) active) s := by
  rcases hjob : getJob jobId.val s with ⟨job, t⟩ | ⟨e, t⟩
  · obtain ⟨rfl, -⟩ := getJob_cases hjob
    right
    change (getJob jobId.val >>= _) t = _ ∨ (getJob jobId.val >>= _) t = _
    simp only [db_bind_ok_iff, hjob, EStateM.Result.ok.injEq]
    cases hstop : job.stopRequested with
    | true => exact Or.inl ⟨job, t, ⟨rfl, rfl⟩, by simp [hstop]; rfl⟩
    | false =>
      refine Or.inr ⟨job, t, ⟨rfl, rfl⟩, ?_⟩
      rw [hstop]
      exact db_bind_ok_iff.mpr ⟨_, t, listTasks_ok jobId t, rfl⟩
  · left
    have hsame : t = s := transaction_error hjob
    refine ⟨e, ?_⟩
    change (getJob jobId.val >>= _) s = _
    rw [db_bind_error_iff, hjob, hsame]
    exact Or.inl rfl

theorem Store.tasksOf_ids_nodup (s : Store) (jobId : Text) :
    ((s.tasksOf jobId).map TaskRow.id).Nodup := by
  have hrows : (s.tasks.rows.map TaskRow.id).Nodup := by
    rw [List.Nodup, List.pairwise_map]
    exact s.tasks.distinct.imp fun hdistinct heq => hdistinct (Or.inl heq)
  have hsorted := List.mergeSort_perm (s.tasks.select fun t => t.jobId == jobId)
    fun t t' => decide (t.seq ≤ t'.seq)
  exact (hsorted.map TaskRow.id).nodup_iff.mpr
    (hrows.sublist (List.filter_sublist.map TaskRow.id))

theorem startedHandles_nodup (s : Store) (jobId : Text) (maxParallel : Int)
    (active : List Handle) :
    ((startedHandles maxParallel ((s.tasksOf jobId).map taskFromRow) active).map
      Handle.name).Nodup := by
  have hids : (((s.tasksOf jobId).map taskFromRow).map TaskRow.id).Nodup := by
    rw [List.map_map]
    exact s.tasksOf_ids_nodup jobId
  rw [startedHandles, List.map_map]
  exact hids.sublist (((List.take_sublist _ _).trans List.filter_sublist).map TaskRow.id)

/-- The tasks that an iteration starts join the live handles. -/
theorem runningHandles_safe (hstored : StoredPlan planned jobId s)
    (hsafe : HandlesSafe jobId maxParallel s active) :
    HandlesSafe jobId maxParallel s
      (runningHandles maxParallel ((s.tasksOf jobId).map taskFromRow) active) := by
  -- the rows of the started tasks
  have hrow : ∀ t ∈ readyTasks ((s.tasksOf jobId).map taskFromRow) active,
      ∃ row ∈ s.tasks, row.id = t.id ∧ row.jobId = jobId ∧ row.seq = t.seq ∧
        row.dependencies = t.dependencies := by
    intro t ht
    obtain ⟨row, hrow, rfl⟩ := List.mem_map.mp (mem_readyTasks.mp ht).1
    obtain ⟨hmem, hjob⟩ := Store.mem_tasksOf.mp hrow
    exact ⟨row, hmem, rfl, hjob, rfl, rfl⟩
  -- the handles are all live
  have hlive : (runningHandles maxParallel ((s.tasksOf jobId).map taskFromRow) active).filter
      Handle.isLive = runningHandles maxParallel ((s.tasksOf jobId).map taskFromRow) active := by
    apply List.filter_eq_self.mpr
    intro h hh
    rcases List.mem_append.mp hh with hh | hh
    · exact (List.mem_filter.mp hh).2
    · exact (mem_startedHandles hh).1
  constructor
  -- `started_ready`: an old handle as before, a new one by `readyTasks`
  · intro h hh
    rcases List.mem_append.mp hh with hh | hh
    · exact hsafe.started_ready h (List.mem_filter.mp hh).1
    · obtain ⟨-, t, ht, hname⟩ := mem_startedHandles hh
      rcases hrow t ht with ⟨row, hmem, hid, hjob, -, hdeps⟩
      refine ⟨row, hmem, hid.trans hname, hjob, ?_⟩
      intro dep hdep
      rw [hdeps] at hdep
      rcases (mem_readyTasks.mp ht).2.2.1 dep hdep with ⟨u, hu, hdone, hlogical⟩
      obtain ⟨urow, hurow, rfl⟩ := List.mem_map.mp hu
      obtain ⟨humem, hujob⟩ := Store.mem_tasksOf.mp hurow
      exact ⟨urow, humem, hujob, hlogical, hdone⟩
  -- `one_handle`: the old ones and the new ones have different names
  · rw [hlive, runningHandles, List.map_append, List.nodup_append]
    refine ⟨hsafe.one_handle, startedHandles_nodup s jobId maxParallel active, ?_⟩
    · -- a started task has no live handle
      intro name hold name' hnew heq
      obtain ⟨h, hh, rfl⟩ := List.mem_map.mp hold
      obtain ⟨h', hh', rfl⟩ := List.mem_map.mp hnew
      obtain ⟨hmem, hisLive⟩ := List.mem_filter.mp hh
      obtain ⟨-, t, ht, hname⟩ := mem_startedHandles hh'
      rcases hrow t ht with ⟨row, hrowmem, hid, hjob, -⟩
      have hempty := (mem_readyTasks.mp ht).2.2.2 h hmem hisLive (heq.trans hname.symm)
      exact hstored.row_id row hrowmem hjob (by rw [hid, hempty])
  -- `bounded`: as many are started as there is room for
  · rw [hlive, runningHandles, List.length_append, startedHandles, List.length_map,
      List.length_take]
    have := hsafe.bounded
    omega

/-- An iteration that looks at no handle that is done keeps the invariant. -/
theorem dagInv_after (hplan : Validated maxTasks planned) (hpar : 1 ≤ maxParallel)
    (hstored : StoredPlan planned jobId s) (hsettled : Settled s jobId active)
    (hsafe : HandlesSafe jobId maxParallel s active)
    (hlive : ∀ h ∈ active, h.isLive = true) :
    DagInv planned jobId maxParallel
      (Dag.after active (dagTurn jobId maxParallel active s)) := by
  -- of an exit nothing is asked but that it does not return
  have hraised : ∀ e, DagInv planned jobId maxParallel ⟨s, active, .raised e⟩ := by
    intro e
    exact ⟨hstored, hsettled, nofun, hsafe, nofun, nofun⟩
  rcases dagTurn_cases jobId maxParallel active s with ⟨e, hturn⟩ | hturn | hturn
  -- the turn raises
  · rw [hturn]
    exact hraised _
  · rw [hturn]
    exact hraised _
  -- or it schedules: returns, stalls or waits
  · rw [hturn]
    cases hschedule : scheduleTasks maxParallel ((s.tasksOf jobId).map taskFromRow) active with
    -- returned: every task is completed
    | raises e => exact hraised e
    | returns =>
      refine ⟨hstored, hsettled, nofun, hsafe, ?_, nofun⟩
      intro _ t ht hjob
      exact scheduleTasks_returns hschedule (taskFromRow t)
        (List.mem_map_of_mem (Store.mem_tasksOf.mpr ⟨ht, hjob⟩))
    | stalls remaining =>
      -- a task would be ready, and there is room for it
      obtain ⟨hidle, hstarted, t, ht, hstate⟩ := scheduleTasks_stalls hschedule
      obtain ⟨row, hrow, rfl⟩ := List.mem_map.mp ht
      obtain ⟨hmem, hjob⟩ := Store.mem_tasksOf.mp hrow
      have hdone : ∀ h ∈ active, h.isLive = false → h.state = .returned true := by
        intro h hh hnot
        rw [hlive h hh] at hnot
        cases hnot
      obtain ⟨ready, hready⟩ :=
        exists_readyTask hplan hstored hsettled hdone hidle ⟨row, hmem, hjob, hstate⟩
      have hroom : 0 < (max 0 (maxParallel - (active.filter Handle.isLive).length)).toNat := by
        rw [hidle]
        simp only [List.length_nil]
        omega
      have hnone : (readyTasks ((s.tasksOf jobId).map taskFromRow) active).take
          (max 0 (maxParallel - (active.filter Handle.isLive).length)).toNat = [] :=
        List.map_eq_nil_iff.mp hstarted
      rcases List.take_eq_nil_iff.mp hnone with hzero | hnil
      · omega
      · rw [hnil] at hready
        cases hready
    -- waiting: the handles that are left, and the ones that are started
    | waits running =>
      obtain rfl := scheduleTasks_waits hschedule
      refine ⟨hstored, ?_, nofun, runningHandles_safe hstored hsafe, nofun, nofun⟩
      intro t ht hjob
      -- a task whose coroutine has not ended well keeps its handle
      rcases hsettled t ht hjob with hpending | hcompleted | ⟨h, hh, hname, hbad⟩
      · exact Or.inl hpending
      · exact Or.inr (Or.inl hcompleted)
      · have hrunning := List.mem_append_left (startedHandles maxParallel
          ((s.tasksOf jobId).map taskFromRow) active) (List.mem_filter.mpr ⟨hh, hlive h hh⟩)
        exact Or.inr (Or.inr ⟨h, hrunning, hname, hbad⟩)

end Turn

/-! ## Runs -/

section Runs

variable {jobId : Text} {planned : List PlannedTask} {maxTasks : Nat} {maxParallel : Int}
  {start : Store} {d d' : Dag}

theorem HandlesSafe.filter {s : Store} {active : List Handle}
    (h : HandlesSafe jobId maxParallel s active) :
    HandlesSafe jobId maxParallel s (active.filter Handle.isLive) := by
  have hlive : (active.filter Handle.isLive).filter Handle.isLive = active.filter Handle.isLive :=
    List.filter_eq_self.mpr fun handle hh => (List.mem_filter.mp hh).2
  constructor
  · intro handle hh
    exact h.started_ready handle (List.mem_filter.mp hh).1
  · rw [hlive]
    exact h.one_handle
  · rw [hlive]
    exact h.bounded

/-- A step of the database that keeps the graph keeps the handles' tasks ready. -/
theorem HandlesSafe.store {s s' : Store} {active : List Handle}
    (h : HandlesSafe jobId maxParallel s active)
    (htask : ∀ t ∈ s.tasks, t.jobId = jobId → ∃ t' ∈ s'.tasks, t'.id = t.id ∧ t'.jobId = jobId ∧
      t'.dependencies = t.dependencies)
    (hdone : ∀ logicalId, CompletedTask s jobId logicalId → CompletedTask s' jobId logicalId) :
    HandlesSafe jobId maxParallel s' active := by
  refine ⟨?_, h.one_handle, h.bounded⟩
  intro handle hh
  rcases h.started_ready handle hh with ⟨t, ht, hname, hjob, hdeps⟩
  rcases htask t ht hjob with ⟨t', ht', hid, hjob', hdeps'⟩
  refine ⟨t', ht', hid.trans hname, hjob', ?_⟩
  intro dep hdep
  rw [hdeps'] at hdep
  exact hdone dep (hdeps dep hdep)

/-- A coroutine updates its task. -/
theorem DagInv.work (hinv : DagInv planned jobId maxParallel d) {name : Text} {fields : TaskFields}
    {now : Timestamp} {s' : Store} (hname : ⟨name, .live⟩ ∈ d.active)
    (h : updateTask name.val fields now d.store = .ok () s') :
    DagInv planned jobId maxParallel { d with store := s' } := by
  have hev := updateTask_evolves h
  refine ⟨hinv.stored.evolves hev, ?_, hinv.idle, ?_, ?_, hinv.safe.never_stalls⟩
  · intro t' ht' hjob
    rcases hev.backward ht' with ⟨t, ht, hkey, -, hother, -⟩ | hfalse
    · injection hkey with hid hkey
      injection hkey with hjob' hlogical'
      by_cases hown : t.id = name
      -- its own task has a live handle
      · exact Or.inr (Or.inr ⟨_, hname, (hid.trans hown).symm, nofun⟩)
      · obtain rfl := hother hown
        exact hinv.settled t' ht hjob
    · cases hfalse
  · apply hinv.safe.handles.store
    · intro t ht hjob
      rcases hev.forward ht with ⟨t', ht', hkey, hdeps, -⟩
      injection hkey with hid hkey
      injection hkey with hjob' hlogical'
      exact ⟨t', ht', hid, hjob'.trans hjob, hdeps⟩
    · intro logicalId hdone
      exact hdone.evolves hev
  · intro hreturned t' ht' hjob
    rcases hev.backward ht' with ⟨t, ht, hkey, -, -, hstays⟩ | hfalse
    · injection hkey with hid hkey
      injection hkey with hjob' hlogical'
      exact hstays (hinv.safe.returned_completed hreturned t ht (hjob'.symm.trans hjob))
    · cases hfalse

theorem Handle.finish_self (name : Text) (result : HandleState) :
    Handle.finish name result ⟨name, .live⟩ = ⟨name, result⟩ := if_pos rfl

theorem Handle.finish_other {name : Text} {result : HandleState} {handle : Handle}
    (h : handle ≠ ⟨name, .live⟩) : handle.finish name result = handle := if_neg h

theorem Handle.finish_name (name : Text) (result : HandleState) (handle : Handle) :
    (handle.finish name result).name = handle.name := by
  by_cases heq : handle = ⟨name, .live⟩
  · rw [heq, finish_self]
  · rw [finish_other heq]

/-- The handles that stay live. -/
theorem filter_isLive_finish {name : Text} {result : HandleState} (hresult : result ≠ .live)
    (active : List Handle) :
    (active.map (Handle.finish name result)).filter Handle.isLive =
      (active.filter Handle.isLive).filter fun h => h ≠ ⟨name, .live⟩ := by
  induction active with
  | nil => rfl
  | cons handle active ih =>
    rw [List.map_cons]
    by_cases heq : handle = ⟨name, .live⟩
    · have hdone : ¬ (Handle.mk name result).isLive = true := by simpa [Handle.isLive] using hresult
      have hself : (Handle.mk name .live).isLive = true := rfl
      rw [heq, Handle.finish_self, List.filter_cons_of_neg hdone, List.filter_cons_of_pos hself,
        List.filter_cons_of_neg (by simp), ih]
    · rw [Handle.finish_other heq]
      by_cases hlive : handle.isLive = true
      · rw [List.filter_cons_of_pos hlive, List.filter_cons_of_pos hlive,
          List.filter_cons_of_pos (by simpa using heq), ih]
      · rw [List.filter_cons_of_neg hlive, List.filter_cons_of_neg hlive, ih]

/-- A coroutine is done. -/
theorem DagInv.finish (hinv : DagInv planned jobId maxParallel d) {name : Text}
    {result : HandleState} (hname : ⟨name, .live⟩ ∈ d.active)
    (h : FinishedTask d.store name result) :
    DagInv planned jobId maxParallel
      { d with active := d.active.map (Handle.finish name result) } := by
  have hresult : result ≠ .live := by
    rintro rfl
    exact h
  have hlive : (d.active.map (Handle.finish name result)).filter Handle.isLive =
      (d.active.filter Handle.isLive).filter fun h => h ≠ ⟨name, .live⟩ :=
    filter_isLive_finish hresult d.active
  refine ⟨hinv.stored, ?_, ?_, ⟨?_, ?_, ?_⟩, hinv.safe.returned_completed,
    hinv.safe.never_stalls⟩
  -- `settled`: the handle that ends leaves its task completed, or stays as it is
  · intro t ht hjob
    rcases hinv.settled t ht hjob with hpending | hcompleted | ⟨handle, hh, hown, hbad⟩
    · exact Or.inl hpending
    · exact Or.inr (Or.inl hcompleted)
    · have hmem := List.mem_map_of_mem (f := Handle.finish name result) hh
      have hown' := (handle.finish_name name result).trans hown
      by_cases heq : handle = ⟨name, .live⟩
      · rw [heq] at hmem hown hown'
        rw [Handle.finish_self] at hmem hown'
        by_cases hgood : result = .returned true
        -- the coroutine has completed its task
        · rw [hgood] at h
          rcases h with ⟨u, hu, hid, hstate⟩
          obtain rfl : u = t := Table.eq_of_clash hu ht (Or.inl (hid.trans hown))
          exact Or.inr (Or.inl hstate)
        · exact Or.inr (Or.inr ⟨_, hmem, hown', hgood⟩)
      · rw [Handle.finish_other heq] at hmem
        exact Or.inr (Or.inr ⟨handle, hmem, hown, hbad⟩)
  -- `idle`: a loop that schedules has no coroutine, and here is one
  · intro hcontrol
    rw [hinv.idle hcontrol] at hname
    cases hname
  -- `started_ready`: the names are as before
  · intro handle hh
    obtain ⟨old, hold, rfl⟩ := List.mem_map.mp hh
    rw [old.finish_name]
    exact hinv.safe.handles.started_ready old hold
  -- `one_handle` and `bounded`: one live handle less
  · rw [hlive]
    exact hinv.safe.handles.one_handle.sublist (List.filter_sublist.map Handle.name)
  · rw [hlive]
    have hle := List.length_filter_le (fun h : Handle => h ≠ ⟨name, .live⟩)
      (d.active.filter Handle.isLive)
    have := hinv.safe.handles.bounded
    omega

/-- One step of the loop, of a coroutine or of the rest of the daemon. -/
theorem executeDag_step (hplan : Validated maxTasks planned) (hpar : 1 ≤ maxParallel)
    {l : DagStep} (hinv : DagInv planned jobId maxParallel d)
    (h : (executeDag jobId maxParallel start).step d l d') :
    DagInv planned jobId maxParallel d' := by
  -- by the step of the loop or of a coroutine
  cases l with
  | turn =>
    -- the loop begins: there is no handle yet
    obtain ⟨hcontrol, rfl⟩ := h
    refine dagInv_after hplan hpar hinv.stored hinv.settled hinv.safe.handles ?_
    intro handle hh
    rw [hinv.idle hcontrol] at hh
    cases hh
  | wake =>
    obtain ⟨-, -, hdone, rfl⟩ := h
    -- the loop wakes: the handles that have ended are dropped
    refine dagInv_after hplan hpar hinv.stored ?_ hinv.safe.handles.filter ?_
    · intro t ht hjob
      rcases hinv.settled t ht hjob with hpending | hcompleted | ⟨handle, hh, hname, hbad⟩
      · exact Or.inl hpending
      · exact Or.inr (Or.inl hcompleted)
      · -- the handle has not ended well, so it has not ended
        have hlive : handle.isLive = true := by
          by_contra hnot
          exact hbad (hdone handle hh (by simpa using hnot))
        exact Or.inr (Or.inr ⟨handle, List.mem_filter.mpr ⟨hh, hlive⟩, hname, hbad⟩)
    · intro handle hh
      exact (List.mem_filter.mp hh).2
  -- an exit, or a cancellation: the store and the handles stay
  | wakeFailed handle =>
    obtain ⟨-, -, -, -, rfl⟩ := h
    exact ⟨hinv.stored, hinv.settled, nofun, hinv.safe.handles, nofun, nofun⟩
  -- the loop never stalls, so it blocks no task
  | block now =>
    obtain ⟨remaining, hcontrol, -⟩ := h
    exact absurd hcontrol (hinv.safe.never_stalls remaining)
  | cancel =>
    obtain ⟨-, rfl⟩ := h
    exact ⟨hinv.stored, hinv.settled, nofun, hinv.safe.handles, nofun, nofun⟩
  -- a coroutine works on its row, or ends with it
  | work name fields now =>
    obtain ⟨hname, s', hupdate, rfl⟩ := h
    exact hinv.work hname hupdate
  | finish name result =>
    obtain ⟨hname, hfinished, rfl⟩ := h
    exact hinv.finish hname hfinished
  -- an operation elsewhere keeps the rows of the job
  | elsewhere =>
    obtain ⟨s', hsame, rfl⟩ := h
    refine ⟨hinv.stored.same hsame, ?_, hinv.idle, ?_, ?_, hinv.safe.never_stalls⟩
    · intro t ht hjob
      exact hinv.settled t ((hsame t hjob).mp ht) hjob
    · apply hinv.safe.handles.store
      · intro t ht hjob
        exact ⟨t, (hsame t hjob).mpr ht, rfl, hjob, rfl⟩
      · intro logicalId hdone
        exact hdone.same hsame
    · intro hreturned t ht hjob
      exact hinv.safe.returned_completed hreturned t ((hsame t hjob).mp ht) hjob

/-- A store in which a job's scheduling starts, after its tasks were stored in
`stored`: the same tasks, and those that are not completed are pending. -/
structure Started (jobId : Text) (stored start : Store) : Prop where
  back : ∀ t ∈ start.tasks, t.jobId = jobId → (t.state = .pending ∨ t.state = .completed) ∧
    ∃ u ∈ stored.tasks, u.jobId = jobId ∧ u.id = t.id ∧ u.logicalId = t.logicalId ∧
      u.dependencies = t.dependencies
  forth : ∀ u ∈ stored.tasks, u.jobId = jobId → ∃ t ∈ start.tasks, t.jobId = jobId ∧
    t.logicalId = u.logicalId

/-- `new_id("task")`. -/
def newTaskId (digits : List (Fin 16)) : Text :=
  ⟨newId (lit "task") digits, isText_newId (isText_lit "task") digits⟩

/-- The rows that `add_tasks` writes for a job without tasks. -/
theorem addTasks_storedPlan {s stored : Store} {digits : Nat → List (Fin 16)} {now : Timestamp}
    {reply : List TaskRow} (hnone : s.tasksOf jobId = [])
    (h : addTasks jobId.val (fun seq => newTaskId (digits seq)) now planned s = .ok reply stored) :
    StoredPlan planned jobId stored := by
  obtain ⟨job, -, hid, -, -, -, ⟨added, hrows, hown, -, hstores⟩, -⟩ := addTasks_cases h
  obtain rfl : job.id = jobId := Text.ext hid
  -- the job had no task, so its rows are the ones that were added
  -- the rows of the job are the added ones
  have hadded : ∀ t ∈ stored.tasks, t.jobId = job.id → t ∈ added := by
    intro t ht hjob
    rw [← Table.mem_rows, hrows, List.mem_append] at ht
    rcases ht with ht | ht
    · have hmem := Store.mem_tasksOf.mpr ⟨ht, hjob⟩
      rw [hnone] at hmem
      cases hmem
    · exact ht
  -- row by row, each is the one of its planned task
  constructor
  · intro t ht hjob
    rcases List.forall₂_iff_get.mp hstores with ⟨hlen, hget⟩
    obtain ⟨i, rfl⟩ := List.get_of_mem (hadded t ht hjob)
    have hi : i.1 < planned.length := by
      rw [hlen]
      exact i.2
    have hrow := hget i.1 hi i.2
    exact ⟨planned.get ⟨i.1, hi⟩, List.get_mem _ _, hrow.logicalId, hrow.dependencies⟩
  · intro task htask
    rcases List.forall₂_iff_get.mp hstores with ⟨hlen, hget⟩
    obtain ⟨i, rfl⟩ := List.get_of_mem htask
    have hi : i.1 < added.length := by
      rw [← hlen]
      exact i.2
    have hmem : added.get ⟨i.1, hi⟩ ∈ added := List.get_mem _ _
    refine ⟨added.get ⟨i.1, hi⟩, ?_, (hown _ hmem).1, (hget i.1 i.2 hi).logicalId⟩
    rw [← Table.mem_rows, hrows]
    exact List.mem_append_right _ hmem
  · intro t ht hjob
    rcases List.forall₂_iff_get.mp hstores with ⟨hlen, hget⟩
    obtain ⟨i, rfl⟩ := List.get_of_mem (hadded t ht hjob)
    have hi : i.1 < planned.length := by
      rw [hlen]
      exact i.2
    obtain ⟨seq, hseq⟩ := (hget i.1 hi i.2).id
    rw [hseq]
    exact nofun

/-- Scheduling the tasks of an accepted plan is safe at every moment of every run,
and never finds that the graph has stalled. -/
theorem execute_dag_safe (hplan : validate maxTasks planned = .ok ()) {s stored : Store}
    {digits : Nat → List (Fin 16)} {now : Timestamp} {reply : List TaskRow}
    (hnone : s.tasksOf jobId = [])
    (hadd : addTasks jobId.val (fun seq => newTaskId (digits seq)) now planned s =
      .ok reply stored)
    (hstart : Started jobId stored start) (hpar : 1 ≤ maxParallel)
    (h : (executeDag jobId maxParallel start).Reachable d) : DagSafe jobId maxParallel d := by
  have hstored := addTasks_storedPlan hnone hadd
  have hinv : DagInv planned jobId maxParallel d := by
    apply h.invariant
    · rintro _ rfl
      refine ⟨⟨?_, ?_, ?_⟩, ?_, fun _ => rfl, ⟨nofun, List.nodup_nil, ?_⟩, nofun, nofun⟩
      · intro t ht hjob
        obtain ⟨-, u, hu, hujob, -, hlogical, hdeps⟩ := hstart.back t ht hjob
        rw [← hlogical, ← hdeps]
        exact hstored.row_planned u hu hujob
      · intro task htask
        rcases hstored.planned_row task htask with ⟨u, hu, hujob, hlogical⟩
        rcases hstart.forth u hu hujob with ⟨t, ht, hjob, hlogical'⟩
        exact ⟨t, ht, hjob, by rw [hlogical', hlogical]⟩
      · intro t ht hjob
        obtain ⟨-, u, hu, hujob, hid, -⟩ := hstart.back t ht hjob
        rw [← hid]
        exact hstored.row_id u hu hujob
      · intro t ht hjob
        exact (hstart.back t ht hjob).1.imp_right Or.inl
      · change ((0 : Nat) : Int) ≤ maxParallel
        omega
    · intro d l d' _ hinv hstep
      exact executeDag_step (validate_ok hplan) hpar hinv hstep
  exact hinv.safe

/-- A job has been submitted. -/
def demoSubmitted : EStateM.Result Exn Store JobRow :=
  createJob (Text.lit "job-1") 1
    { repo := lit "/repo", goal := lit "Add the parser", baseBranch := lit "main"
      baseCommit := lit "c0", integrationBranch := lit "yolo/run-1/integration"
      autoApply := false } Store.empty

/-- The tasks of its plan are inserted. -/
def demoInserted (s : Store) : Except Exn (Unit × Store) :=
  insertPlanned (Text.lit "job-1") (fun seq => newTaskId [Fin.ofNat 16 seq]) 2 smallTasks
    (s.lastSeq (Text.lit "job-1")) s

/-- What is looked at of the two stores. -/
def demoGraph : Option (List (JobState × AcceptancePhase) × List TaskRow × List TaskState) :=
  match demoSubmitted with
  | .error _ _ => none
  | .ok _ s =>
    match demoInserted s with
    | .error _ => none
    | .ok r => some (s.jobs.rows.map (fun j => (j.state, j.acceptancePhase)), s.tasks.rows,
        r.2.tasks.rows.map TaskRow.state)

/-- The plan of two tasks, one of which depends on the other. -/
theorem execute_dag_safe_smallTasks :
    ∃ start : Store, start.tasks.rows.map TaskRow.state = [.pending, .pending] ∧
      ∀ d, (executeDag (Text.lit "job-1") 1 start).Reachable d →
        DagSafe (Text.lit "job-1") 1 d := by
  have hgraph : demoGraph = some ([(.queued, .none)], [], [.pending, .pending]) := by
    decide +kernel
  unfold demoGraph at hgraph
  split at hgraph
  · cases hgraph
  · rename_i hsubmitted
    split at hgraph
    · cases hgraph
    · rename_i s _ r hinserted
      injection hgraph with hgraph
      obtain ⟨hjobs, htasks⟩ := Prod.mk.inj hgraph
      obtain ⟨hempty, hpending⟩ := Prod.mk.inj htasks
      obtain ⟨-, -, -, -, -, -, -, -, -, job, hjob, hvalid⟩ := createJob_cases hsubmitted
      -- the job is the one that was submitted
      have hmem : (job.state, job.acceptancePhase) ∈
          s.jobs.rows.map fun j => (j.state, j.acceptancePhase) :=
        List.mem_map_of_mem (Store.mem_of_job? hjob).1
      rw [hjobs] at hmem
      obtain ⟨hstate, hphase⟩ := Prod.mk.inj (List.mem_singleton.mp hmem)
      have hadd := addTasks_ok hjob (by rw [hstate]; decide) hphase hvalid hinserted
      have hnone : s.tasksOf (Text.lit "job-1") = [] := by
        rw [List.eq_nil_iff_forall_not_mem]
        intro t ht
        have hrow := (Store.mem_tasksOf.mp ht).1
        rw [← Table.mem_rows, hempty] at hrow
        cases hrow
      have hstart : Started (Text.lit "job-1") r.2 r.2 := by
        constructor
        · intro t ht hjob
          have hmem : t.state ∈ r.2.tasks.rows.map TaskRow.state := List.mem_map_of_mem ht
          rw [hpending] at hmem
          refine ⟨Or.inl ?_, t, ht, hjob, rfl, rfl, rfl⟩
          simpa using hmem
        · intro u hu hjob
          exact ⟨u, hu, hjob, rfl⟩
      refine ⟨r.2, hpending, ?_⟩
      intro d hreach
      exact execute_dag_safe (by decide +kernel : validate 8 smallTasks = .ok ()) hnone hadd hstart
        (by decide) hreach

end Runs

end OmarchyYolo
