import OmarchyYolo.Records

/-!
# OmarchyYolo.Database — the row mutations

`update_job`, `update_task`, `start_attempt` and `finish_attempt`: each reads the
rows it is about, validates the transition, writes, and validates the job's
snapshot in one transaction. `request_stop` and `clear_stop` are `update_job`
with an event.
-/

namespace OmarchyYolo

open Py PyJson Sql Txn

/-- `[...]` of strings without quotes and escapes. -/
def reprNames (names : List String) : Str :=
  lit "[" ++
    List.intercalate (lit ", ") (names.map fun name => lit "'" ++ lit name ++ lit "'") ++ lit "]"

/-- `raise ValueError`: the text is not a state of the enumeration. -/
def invalidState {α : Type} (enumeration : String) (text : Str) : Except Exn α :=
  .error (.valueError (lit (" is not a valid " ++ enumeration)) [text])

/-- `JobState(values.get("state", current))`. -/
def targetState {S : Type} (ofValue? : Str → Option S) (enumeration : String) (current : S) :
    Option Str → Except Exn S
  | none => .ok current
  | some text =>
    match ofValue? text with
    | some target => .ok target
    | none => invalidState enumeration text

theorem targetState_none {S : Type} {ofValue? : Str → Option S} {enumeration : String}
    {current target : S} (h : targetState ofValue? enumeration current none = .ok target) :
    target = current := by
  cases h
  rfl

theorem targetState_some {S : Type} {ofValue? : Str → Option S} {enumeration : String}
    {current target : S} {text : Str}
    (h : targetState ofValue? enumeration current (some text) = .ok target) :
    ofValue? text = some target := by
  simp only [targetState] at h
  split at h
  · rename_i hvalue
    cases h
    exact hvalue
  · cases h

/-! ## Jobs -/

/-- The keyword arguments of `update_job`; `unsupported` are the names of those
outside `_JOB_FIELDS`. -/
structure JobFields where
  state : Option Str := none
  integrationPath : Option Str := none
  stopRequested : Option Bool := none
  finalSummary : Option Str := none
  error : Option Str := none
  autoApply : Option Bool := none
  unsupported : List Str := []
deriving DecidableEq, Repr

/-- `not fields`. -/
def JobFields.isEmpty (fields : JobFields) : Bool := fields == {}

/-- The given fields that acceptance freezes, sorted. -/
def JobFields.frozen (fields : JobFields) : List String :=
  (if fields.autoApply.isSome then ["auto_apply"] else []) ++
  (if fields.error.isSome then ["error"] else []) ++
  (if fields.finalSummary.isSome then ["final_summary"] else []) ++
  (if fields.integrationPath.isSome then ["integration_path"] else [])

/-- The bound string columns of an `UPDATE jobs`. -/
structure JobTexts where
  integrationPath : Option Text
  finalSummary : Option Text
  error : Option Text

def JobFields.bindTexts (fields : JobFields) : Except Exn JobTexts := do
  let integrationPath ← bindOption fields.integrationPath
  let finalSummary ← bindOption fields.finalSummary
  let error ← bindOption fields.error
  return ⟨integrationPath, finalSummary, error⟩

/-- The row after `UPDATE jobs SET ...`. -/
def JobFields.write (fields : JobFields) (texts : JobTexts) (target : JobState) (now : Timestamp)
    (job : JobRow) : JobRow :=
  { job with
    state := target
    integrationPath := texts.integrationPath.getD job.integrationPath
    stopRequested := fields.stopRequested.getD job.stopRequested
    finalSummary := texts.finalSummary.getD job.finalSummary
    error := texts.error.getD job.error
    autoApply := fields.autoApply.getD job.autoApply
    updatedAt := now }

theorem JobFields.write_id (fields : JobFields) (texts : JobTexts) (target : JobState)
    (now : Timestamp) (job : JobRow) : (fields.write texts target now job).id = job.id := rfl

/-- `update_job`. -/
def updateJob (jobId : Str) (fields : JobFields) (now : Timestamp) : StoreDb Unit :=
  if fields.unsupported ≠ [] then
    throw (.valueError (lit "unsupported job fields: ") (sorted fields.unsupported))
  else if fields.isEmpty then pure ()
  else transaction do
    let id ← lift (bindText jobId)
    let job ← orRaise (← selectJob id) (.keyError jobId)
    lift (forbidIf (job.acceptancePhase ≠ .none ∧ fields.frozen ≠ [])
      (lit "accepted job metadata is immutable; refusing fields: " ++ reprNames fields.frozen))
    let target ← lift (targetState JobState.ofValue? "JobState" job.state fields.state)
    lift (validateJobTransition job.state target)
    lift (forbidIf (target = .completed ∧ job.state ≠ .completed)
      (lit "completed jobs must be published through publish_completed_job"))
    let texts ← lift fields.bindTexts
    let rowcount ← updateJobs (fun j => j.id == id && j.state == job.state)
      (fields.write texts target now) (fields.write_id texts target now)
    lift (forbidIf (rowcount ≠ 1)
      (lit "stale job state while updating " ++ jobId ++ lit ": expected " ++
        lit job.state.value))
    validateSnapshot id

/-! ## Tasks -/

/-- The keyword arguments of `update_task`; `unsupported` are the names of those
outside `_TASK_FIELDS`. -/
structure TaskFields where
  state : Option Str := none
  attempts : Option Int := none
  branch : Option Str := none
  worktree : Option Str := none
  baseCommit : Option Str := none
  lastError : Option Str := none
  resultSummary : Option Str := none
  preferredAgent : Option (Option Str) := none
  unsupported : List Str := []
deriving DecidableEq, Repr

def TaskFields.isEmpty (fields : TaskFields) : Bool := fields == {}

/-- The bound columns of an `UPDATE tasks`. -/
structure TaskColumns where
  attempts : Option Int
  branch : Option Text
  worktree : Option Text
  baseCommit : Option Text
  lastError : Option Text
  resultSummary : Option Text
  preferredAgent : Option (Option Text)

def TaskFields.bindColumns (fields : TaskFields) : Except Exn TaskColumns := do
  let attempts ← fields.attempts.mapM bindInt
  let branch ← bindOption fields.branch
  let worktree ← bindOption fields.worktree
  let baseCommit ← bindOption fields.baseCommit
  let lastError ← bindOption fields.lastError
  let resultSummary ← bindOption fields.resultSummary
  let preferredAgent ← fields.preferredAgent.mapM bindOption
  return ⟨attempts, branch, worktree, baseCommit, lastError, resultSummary, preferredAgent⟩

/-- The row after `UPDATE tasks SET ...`. -/
def TaskColumns.write (columns : TaskColumns) (target : TaskState) (now : Timestamp)
    (task : TaskRow) : TaskRow :=
  { task with
    state := target
    attempts := columns.attempts.getD task.attempts
    branch := columns.branch.getD task.branch
    worktree := columns.worktree.getD task.worktree
    baseCommit := columns.baseCommit.getD task.baseCommit
    lastError := columns.lastError.getD task.lastError
    resultSummary := columns.resultSummary.getD task.resultSummary
    preferredAgent := columns.preferredAgent.getD task.preferredAgent
    updatedAt := now }

theorem TaskColumns.write_key (columns : TaskColumns) (target : TaskState) (now : Timestamp)
    (task : TaskRow) : Row.key (columns.write target now task) = Row.key task := rfl

/-- A task that goes in flight takes its queued or planning job to running. -/
def activateJob (job : JobRow) (taskId : Str) (target : TaskState) (now : Timestamp) :
    StoreTx Unit :=
  if target.inflight = true ∧ job.state ∈ [JobState.queued, .planning] then do
    lift (validateJobTransition job.state .running)
    let rowcount ← updateJobs (fun j => j.id == job.id && j.state == job.state)
      (fun j => { j with state := .running, updatedAt := now })
    lift (forbidIf (rowcount ≠ 1)
      (lit "stale job state while activating task " ++ taskId))
  else pure ()

/-- `update_task`. -/
def updateTask (taskId : Str) (fields : TaskFields) (now : Timestamp) : StoreDb Unit :=
  if fields.unsupported ≠ [] then
    throw (.valueError (lit "unsupported task fields: ") (sorted fields.unsupported))
  else if fields.isEmpty then pure ()
  else transaction do
    let id ← lift (bindText taskId)
    let task ← orRaise (← selectTask id) (.keyError taskId)
    let target ← lift (targetState TaskState.ofValue? "TaskState" task.state fields.state)
    lift (validateTaskTransition task.state target)
    let job ← orRaise (← selectJob task.jobId) (.keyError task.jobId.val)
    lift (forbidIf (job.acceptancePhase ≠ .none)
      (lit "task graph is immutable after acceptance begins (" ++
        lit job.acceptancePhase.value ++ lit ")"))
    activateJob job taskId target now
    let running ← selectRunningAttempt id
    lift (forbidIf (target = .completed ∧ task.state ≠ .completed ∧ running.isSome = true)
      (lit "task cannot complete while an owning attempt is still running"))
    let columns ← lift fields.bindColumns
    let rowcount ← updateTasks (fun t => t.id == id && t.state == task.state)
      (columns.write target now) (columns.write_key target now)
    lift (forbidIf (rowcount ≠ 1)
      (lit "stale task state while updating " ++ taskId ++ lit ": expected " ++
        lit task.state.value))
    validateSnapshot task.jobId

/-! ## Attempts -/

/-- The keyword arguments of `start_attempt`. -/
structure NewAttempt where
  jobId : Str
  taskId : Str
  number : Int
  agent : Str
  worktree : Str
  branch : Str
  logPath : Str
deriving DecidableEq, Repr

/-- The task and its job: `tasks AS t JOIN jobs AS j ON j.id = t.job_id WHERE t.id = ?`. -/
def Store.taskWithJob? (s : Store) (taskId : Text) : Option (TaskRow × JobRow) := do
  let task ← s.task? taskId
  let job ← s.job? task.jobId
  return (task, job)

theorem Store.mem_of_taskWithJob? {s : Store} {taskId : Text} {task : TaskRow} {job : JobRow}
    (h : s.taskWithJob? taskId = some (task, job)) :
    task ∈ s.tasks ∧ task.id = taskId ∧ job ∈ s.jobs ∧ job.id = task.jobId := by
  unfold taskWithJob? at h
  simp only [Option.bind_eq_bind, Option.bind_eq_some_iff, Option.pure_def, Option.some.injEq,
    Prod.mk.injEq] at h
  obtain ⟨_, htask, _, hjob, rfl, rfl⟩ := h
  exact ⟨(mem_of_task? htask).1, (mem_of_task? htask).2, mem_of_job? hjob⟩

/-- `start_attempt`; `newId` is the result of `new_id("attempt")`. -/
def startAttempt (newId : Text) (now : Timestamp) (args : NewAttempt) : StoreDb Text := do
  transaction do
    let taskId ← lift (bindText args.taskId)
    let (task, job) ← orRaise (← query fun s => s.taskWithJob? taskId) (.keyError args.taskId)
    lift (rejectIf (task.jobId.val ≠ args.jobId)
      (lit "attempt ownership mismatch: task " ++ args.taskId ++ lit " belongs to " ++
        task.jobId.val ++ lit ", not " ++ args.jobId))
    lift (forbidIf (job.state ≠ .running)
      (lit "attempt start requires running job, got " ++ lit job.state.value))
    lift (forbidIf (task.state ≠ .running)
      (lit "attempt start requires running task, got " ++ lit task.state.value))
    lift (forbidIf (job.acceptancePhase ≠ .none)
      (lit "attempt cannot start after acceptance begins (" ++ lit job.acceptancePhase.value ++
        lit ")"))
    let running ← selectRunningAttempt taskId
    lift (forbidIf (running.isSome = true)
      (lit "task " ++ args.taskId ++ lit " already has running attempt " ++
        (running.map fun a => a.id.val).getD []))
    let number ← lift (bindInt args.number)
    let agent ← lift (bindText args.agent)
    let worktree ← lift (bindText args.worktree)
    let branch ← lift (bindText args.branch)
    let logPath ← lift (bindText args.logPath)
    insertAttempt
      { id := newId, jobId := task.jobId, taskId := taskId, number := number, agent := agent
        state := .running, worktree := worktree, branch := branch, logPath := logPath
        startedAt := now }
    validateSnapshot task.jobId
  return newId

/-- `finish_attempt`. -/
def finishAttempt (attemptId : Str) (state : Str) (returncode : Option Int) (summary : Str)
    (now : Timestamp) : StoreDb Unit :=
  transaction do
    let id ← lift (bindText attemptId)
    let attempt ← orRaise (← selectAttempt id) (.keyError attemptId)
    let target ← lift (targetState AttemptState.ofValue? "AttemptState" attempt.state (some state))
    lift (forbidIf (attempt.state ≠ .running)
      (lit "attempt " ++ attemptId ++ lit " is already finished (" ++ lit attempt.state.value ++
        lit ")"))
    lift (forbidIf (target = .running)
      (lit "finish_attempt requires a terminal attempt state"))
    lift (validateAttemptTransition attempt.state target)
    let returncode ← lift (returncode.mapM bindInt)
    let summary ← lift (bindText summary)
    let rowcount ← updateAttempts (fun a => a.id == id && a.state == attempt.state)
      (fun a => { a with
        state := target, returncode := returncode, summary := summary, finishedAt := some now })
    lift (forbidIf (rowcount ≠ 1)
      (lit "stale attempt state while updating " ++ attemptId ++ lit ": expected " ++
        lit attempt.state.value))
    validateSnapshot attempt.jobId

/-! ## Stopping -/

/-- `request_stop`; `at'` is the clock when the event is recorded. -/
def requestStop (jobId : Str) (now at' : Timestamp) : StoreDb Unit := do
  updateJob jobId
    { stopRequested := some true, state := some (lit JobState.stopping.value) } now
  jobEvent jobId "job.stop_requested" at'

/-- `clear_stop`. -/
def clearStop (jobId : Str) (now at' : Timestamp) : StoreDb Unit := do
  updateJob jobId
    { stopRequested := some false, state := some (lit JobState.queued.value), error := some [] } now
  jobEvent jobId "job.resumed" at'

/-! ## What a successful call has done -/

section Cases

variable {s s' : Store}

theorem updateJob_cases {jobId : Str} {fields : JobFields} {now : Timestamp}
    (h : updateJob jobId fields now s = .ok () s') :
    (fields.isEmpty = true ∧ s' = s) ∨
      ∃ (id : Text) (job : JobRow) (texts : JobTexts) (target : JobState), id.val = jobId ∧
        s.job? id = some job ∧
        (job.acceptancePhase ≠ .none → fields.frozen = []) ∧
        targetState JobState.ofValue? "JobState" job.state fields.state = .ok target ∧
        target ∈ jobTransitions job.state ∧
        (target = .completed → job.state = .completed) ∧
        fields.bindTexts = .ok texts ∧
        s' = s.updateJobs (fun j => j.id == id && j.state == job.state)
          (fields.write texts target now) (fields.write_id texts target now) ∧
        s'.Validated id := by
  unfold updateJob at h
  split_ifs at h with hunsupported hempty
  · cases h
  · cases h
    exact Or.inl ⟨hempty, rfl⟩
  · rw [transaction_ok_iff] at h
    simp only [tx_bind_ok_iff, lift_ok_iff, bindText_eq_ok, selectJob_ok_iff, orRaise_ok_iff,
      forbidIf_eq_ok, validateJobTransition_eq_ok, updateJobs_ok_iff, validateSnapshot_ok_iff,
      not_and, Decidable.not_not] at h
    obtain ⟨id, _, ⟨hid, rfl⟩, _, _, hsel, job, _, ⟨hjob, rfl⟩, _, _, ⟨hfrozen, rfl⟩, target, _,
      ⟨htarget, rfl⟩, _, _, ⟨htrans, rfl⟩, _, _, ⟨hcompleted, rfl⟩, texts, _, ⟨htexts, rfl⟩,
      _, _, hupdate, _, _, ⟨-, rfl⟩, hret, hvalid⟩ := h
    cases hsel
    cases hupdate
    cases hret
    exact Or.inr ⟨id, job, texts, target, hid, hjob, hfrozen, htarget, htrans, hcompleted,
      htexts, rfl, hvalid⟩

/-- The rows a started task activates: none, or those of its queued or planning job. -/
def Activated (job : JobRow) (target : TaskState) (now : Timestamp) (s t : Store) : Prop :=
  t = s ∨ (target.inflight = true ∧ job.state ∈ [JobState.queued, .planning] ∧
    t = s.updateJobs (fun j => j.id == job.id && j.state == job.state)
      (fun j => { j with state := .running, updatedAt := now }) (fun _ => rfl))

theorem activateJob_cases {job : JobRow} {taskId : Str} {target : TaskState} {now : Timestamp}
    {r : Unit × Store} (h : activateJob job taskId target now s = .ok r) :
    Activated job target now s r.2 := by
  unfold activateJob at h
  split_ifs at h with hactive
  · simp only [tx_bind_ok_iff, lift_ok_iff, forbidIf_eq_ok, validateJobTransition_eq_ok,
      updateJobs_ok_iff] at h
    obtain ⟨_, _, ⟨-, rfl⟩, _, _, hupdate, -, hr⟩ := h
    cases hupdate
    exact Or.inr ⟨hactive.1, hactive.2, hr⟩
  · rw [tx_pure_ok_iff] at h
    rw [h]
    exact Or.inl rfl

theorem Activated.attempts {job : JobRow} {target : TaskState} {now : Timestamp} {t : Store}
    (h : Activated job target now s t) : t.attempts = s.attempts := by
  rcases h with rfl | ⟨-, -, rfl⟩
  · rfl
  · rfl

theorem Activated.tasks {job : JobRow} {target : TaskState} {now : Timestamp} {t : Store}
    (h : Activated job target now s t) : t.tasks = s.tasks := by
  rcases h with rfl | ⟨-, -, rfl⟩
  · rfl
  · rfl

theorem updateJob_atomic (jobId : Str) (fields : JobFields) (now : Timestamp) (s : Store) :
    Atomic (updateJob jobId fields now) s := by
  unfold updateJob
  split_ifs
  · exact atomic_throw _ s
  · exact atomic_pure () s
  · exact atomic_transaction _ s

theorem updateTask_atomic (taskId : Str) (fields : TaskFields) (now : Timestamp) (s : Store) :
    Atomic (updateTask taskId fields now) s := by
  unfold updateTask
  split_ifs
  · exact atomic_throw _ s
  · exact atomic_pure () s
  · exact atomic_transaction _ s

theorem updateTask_cases {taskId : Str} {fields : TaskFields} {now : Timestamp}
    (h : updateTask taskId fields now s = .ok () s') :
    (fields.isEmpty = true ∧ s' = s) ∨
      ∃ (id : Text) (task : TaskRow) (job : JobRow) (columns : TaskColumns) (target : TaskState)
        (t : Store), id.val = taskId ∧ s.task? id = some task ∧ s.job? task.jobId = some job ∧
        targetState TaskState.ofValue? "TaskState" task.state fields.state = .ok target ∧
        target ∈ taskTransitions task.state ∧ job.acceptancePhase = .none ∧
        Activated job target now s t ∧
        (target = .completed → task.state ≠ .completed →
          ∀ a ∈ s.attempts, a.taskId = id → a.state ≠ .running) ∧
        fields.bindColumns = .ok columns ∧
        s' = t.updateTasks (fun u => u.id == id && u.state == task.state)
          (columns.write target now) (columns.write_key target now) ∧
        s'.Validated task.jobId := by
  unfold updateTask at h
  split_ifs at h with hunsupported hempty
  -- unsupported fields raise
  · cases h
  · cases h
    exact Or.inl ⟨hempty, rfl⟩
  -- the transaction, statement by statement
  · rw [transaction_ok_iff] at h
    simp only [tx_bind_ok_iff, lift_ok_iff, bindText_eq_ok, selectTask_ok_iff, selectJob_ok_iff,
      orRaise_ok_iff, forbidIf_eq_ok, validateTaskTransition_eq_ok, updateTasks_ok_iff,
      validateSnapshot_ok_iff, selectRunningAttempt_ok_iff, Decidable.not_not, ne_eq] at h
    obtain ⟨id, _, ⟨hid, rfl⟩, _, _, hsel, task, _, ⟨htask, rfl⟩, target, _, ⟨htarget, rfl⟩, _, _,
      ⟨htrans, rfl⟩, _, _, hselJob, job, _, ⟨hjob, rfl⟩, _, _, ⟨hphase, rfl⟩, _, t, hactivate,
      _, _, hrun, _, _, ⟨hcompleted, rfl⟩, columns, _, ⟨hcolumns, rfl⟩, _, _, hupdate, _, _,
      ⟨-, rfl⟩, hret, hvalid⟩ := h
    cases hsel
    cases hselJob
    cases hrun
    cases hupdate
    cases hret
    have hactivated := activateJob_cases hactivate
    refine Or.inr ⟨id, task, job, columns, target, _, hid, htask, hjob, htarget, htrans, hphase,
      hactivated, ?_, hcolumns, rfl, hvalid⟩
    -- the attempt that would run is the same before the activation
    intro htgt hcur a ha hown hrun
    rw [← hactivated.attempts] at ha
    exact hcompleted ⟨htgt, hcur, Store.runningAttempt?_isSome.mpr ⟨a, ha, hown, hrun⟩⟩

theorem startAttempt_cases {newId : Text} {now : Timestamp} {args : NewAttempt} {r : Text}
    (h : startAttempt newId now args s = .ok r s') :
    ∃ (task : TaskRow) (job : JobRow) (attempt : AttemptRow),
      task ∈ s.tasks ∧ job ∈ s.jobs ∧ task.id.val = args.taskId ∧ task.jobId = job.id ∧
      task.jobId.val = args.jobId ∧ job.state = .running ∧ task.state = .running ∧
      job.acceptancePhase = .none ∧
      (∀ a ∈ s.attempts, a.taskId = task.id → a.state ≠ .running) ∧
      attempt.id = newId ∧ attempt.jobId = task.jobId ∧ attempt.taskId = task.id ∧
      attempt.number = args.number ∧ attempt.state = .running ∧ attempt.finishedAt = none ∧
      s.insertAttempt? attempt = some s' ∧ s'.Validated task.jobId := by
  rw [startAttempt, db_bind_ok_iff] at h
  obtain ⟨_, _, htx, hret⟩ := h
  cases hret
  rw [transaction_ok_iff] at htx
  simp only [tx_bind_ok_iff, lift_ok_iff, bindText_eq_ok, orRaise_ok_iff, query_ok_iff,
    rejectIf_eq_ok, forbidIf_eq_ok, selectRunningAttempt_ok_iff, validateSnapshot_ok_iff,
    insertAttempt, writeOrRaise_ok_iff, Decidable.not_not, ne_eq] at htx
  obtain ⟨taskId, _, ⟨htid, rfl⟩, _, _, hsel, ⟨task, job⟩, _, ⟨hjoin, rfl⟩, _, _, ⟨hown, rfl⟩, _, _,
    ⟨hjob, rfl⟩, _, _, ⟨htask, rfl⟩, _, _, ⟨hphase, rfl⟩, _, _, hrun, _, _, ⟨hnone, rfl⟩, number, _,
    ⟨hnumber, rfl⟩, agent, _, ⟨-, rfl⟩, worktree, _, ⟨-, rfl⟩, branch, _, ⟨-, rfl⟩, logPath, _,
    ⟨-, rfl⟩, _, _, hins, hret, hvalid⟩ := htx
  cases hsel
  cases hrun
  cases hret
  obtain ⟨hmemTask, hidTask, hmemJob, hidJob⟩ := Store.mem_of_taskWithJob? hjoin
  subst hidTask
  refine ⟨task, job, _, hmemTask, hmemJob, htid, hidJob.symm, hown, hjob, htask, hphase, ?_, ?_, ?_,
    ?_, ?_, ?_, ?_, hins, hvalid⟩
  · intro a ha hta hrunning
    exact hnone (Store.runningAttempt?_isSome.mpr ⟨a, ha, hta, hrunning⟩)
  all_goals first | rfl | exact bindInt_eq hnumber

/-- The new attempt is what `start_attempt` returns. -/
theorem startAttempt_reply {newId : Text} {now : Timestamp} {args : NewAttempt} {r : Text}
    (h : startAttempt newId now args s = .ok r s') : r = newId := by
  rw [startAttempt, db_bind_ok_iff] at h
  obtain ⟨_, _, -, hret⟩ := h
  cases hret
  rfl

theorem finishAttempt_cases {attemptId state summary : Str} {returncode : Option Int}
    {now : Timestamp} (h : finishAttempt attemptId state returncode summary now s = .ok () s') :
    ∃ (attempt : AttemptRow) (target : AttemptState) (returncode' : Option Int) (summary' : Text),
      attempt ∈ s.attempts ∧ attempt.id.val = attemptId ∧ attempt.state = .running ∧
      target ≠ .running ∧ target ∈ attemptTransitions attempt.state ∧
      AttemptState.ofValue? state = some target ∧
      s' = s.updateAttempts (fun a => a.id == attempt.id && a.state == attempt.state)
        (fun a => { a with
          state := target, returncode := returncode', summary := summary', finishedAt := some now })
        (fun _ => rfl) ∧
      s'.Validated attempt.jobId := by
  rw [finishAttempt, transaction_ok_iff] at h
  simp only [tx_bind_ok_iff, lift_ok_iff, bindText_eq_ok, selectAttempt_ok_iff, orRaise_ok_iff,
    forbidIf_eq_ok, validateAttemptTransition_eq_ok, updateAttempts_ok_iff,
    validateSnapshot_ok_iff, Decidable.not_not, ne_eq] at h
  obtain ⟨id, _, ⟨hid, rfl⟩, _, _, hsel, attempt, _, ⟨hattempt, rfl⟩, target, _, ⟨hstate, rfl⟩, _,
    _, ⟨hrun, rfl⟩, _, _, ⟨htarget, rfl⟩, _, _, ⟨htrans, rfl⟩, returncode', _, ⟨-, rfl⟩,
    summary', _, ⟨-, rfl⟩, _, _, hupdate, _, _, ⟨-, rfl⟩, hret, hvalid⟩ := h
  cases hsel
  cases hupdate
  cases hret
  obtain ⟨hmem, rfl⟩ := Store.mem_of_attempt? hattempt
  exact ⟨attempt, target, returncode', summary', hmem, hid, hrun, htarget, htrans,
    targetState_some hstate, rfl, hvalid⟩

/-- The rows of a stop request are those of an update of the job. -/
theorem requestStop_rows {jobId : Str} {now at' : Timestamp}
    (h : requestStop jobId now at' s = .ok () s') :
    ∃ t, updateJob jobId
        { stopRequested := some true, state := some (lit JobState.stopping.value) } now s =
          .ok () t ∧ Store.OnlyEvents t s' := by
  rw [requestStop, db_bind_ok_iff] at h
  obtain ⟨_, t, hupdate, hevent⟩ := h
  exact ⟨t, hupdate, jobEvent_onlyEvents hevent⟩

theorem clearStop_rows {jobId : Str} {now at' : Timestamp}
    (h : clearStop jobId now at' s = .ok () s') :
    ∃ t, updateJob jobId
        { stopRequested := some false, state := some (lit JobState.queued.value), error := some [] }
        now s = .ok () t ∧ Store.OnlyEvents t s' := by
  rw [clearStop, db_bind_ok_iff] at h
  obtain ⟨_, t, hupdate, hevent⟩ := h
  exact ⟨t, hupdate, jobEvent_onlyEvents hevent⟩

/-- A job that `update_job` has written is in the store. -/
theorem updateJob_job {jobId : Str} {fields : JobFields} {now : Timestamp}
    (h : updateJob jobId fields now s = .ok () s') (hfields : fields.isEmpty = false) :
    ∃ id : Text, id.val = jobId ∧ ∃ j ∈ s'.jobs, j.id = id := by
  rcases updateJob_cases h with ⟨hempty, -⟩ | ⟨id, -, -, -, hid, -, -, -, -, -, -, -, hvalid⟩
  · rw [hfields] at hempty
    cases hempty
  · obtain ⟨job, hjob, -⟩ := hvalid
    exact ⟨id, hid, job, Store.mem_of_job? hjob⟩

end Cases

end OmarchyYolo
