import OmarchyYolo.Records

/-!
# OmarchyYolo.Recovery — the bulk mutations

`retry_failed_tasks`, `settle_inflight`, `prepare_resume` and
`recover_incomplete`: set-oriented updates of the tasks and attempts of a job,
or of all jobs a crash has interrupted, which call no validator of a single
task or attempt.
-/

namespace OmarchyYolo

open Py PyJson Sql Txn

/-! ## Bulk updates -/

/-- `id IN (...)`. -/
def idIn (jobIds : List Text) (job : JobRow) : Bool := jobIds.contains job.id

/-- `state IN ('running', 'reviewing', 'integrating')`, of the tasks of some jobs. -/
def inflightOf (jobIds : List Text) (task : TaskRow) : Bool :=
  jobIds.contains task.jobId && task.state.inflight

/-- `state = 'running'`, of the attempts of some jobs. -/
def runningOf (jobIds : List Text) (attempt : AttemptRow) : Bool :=
  jobIds.contains attempt.jobId && attempt.state == .running

/-- `state != 'completed'`, of the tasks of a job. -/
def unfinishedOf (jobId : Text) (task : TaskRow) : Bool :=
  task.jobId == jobId && task.state != .completed

/-- An attempt closed at `now`; the summary is kept unless it is empty. -/
def closeAttempt (state : AttemptState) (now : Timestamp) (summary : Text)
    (attempt : AttemptRow) : AttemptRow :=
  { attempt with
    state := state
    finishedAt := some now
    summary := if attempt.summary.val = [] then summary else attempt.summary }

theorem closeAttempt_key (state : AttemptState) (now : Timestamp) (summary : Text)
    (attempt : AttemptRow) : Row.key (closeAttempt state now summary attempt) = Row.key attempt :=
  rfl

@[simp] theorem closeAttempt_state (state : AttemptState) (now : Timestamp) (summary : Text)
    (attempt : AttemptRow) : (closeAttempt state now summary attempt).state = state := rfl

/-- A task moved to `state` at `now`. -/
def moveTask (state : TaskState) (now : Timestamp) (task : TaskRow) : TaskRow :=
  { task with state := state, updatedAt := now }

theorem moveTask_key (state : TaskState) (now : Timestamp) (task : TaskRow) :
    Row.key (moveTask state now task) = Row.key task := rfl

@[simp] theorem moveTask_state (state : TaskState) (now : Timestamp) (task : TaskRow) :
    (moveTask state now task).state = state := rfl

/-! ## Retrying -/

/-- `retry_failed_tasks`. -/
def retryFailedTasks (jobId : Str) (now : Timestamp) : StoreDb Unit := do
  let job ← getJob jobId
  transaction do
    lift (forbidIf (job.acceptancePhase ≠ .none)
      (lit "cannot retry tasks after acceptance begins (" ++ lit job.acceptancePhase.value ++
        lit ")"))
    lift (forbidIf (job.state ∉ [JobState.failed, .stopped, .queued])
      (lit "cannot retry tasks while job is " ++ lit job.state.value))
    let _ ← updateTasks (unfinishedOf job.id) (moveTask .pending now) (moveTask_key .pending now)
    validateSnapshot job.id

/-! ## Settling -/

/-- `attempt_state`, one of `{"cancelled", "failed"}`. -/
def settledAttemptState (text : Str) : Option AttemptState :=
  [AttemptState.cancelled, .failed].find? fun state => lit state.value == text

/-- A task settled with the bound summary. -/
def settleTask (state : TaskState) (now : Timestamp) (summary : Text) (task : TaskRow) : TaskRow :=
  { task with
    state := state
    lastError := if summary.val = [] then task.lastError else summary
    updatedAt := now }

theorem settleTask_key (state : TaskState) (now : Timestamp) (summary : Text) (task : TaskRow) :
    Row.key (settleTask state now summary task) = Row.key task := rfl

/-- `settle_inflight`. -/
def settleInflight (jobId : Str) (taskState : TaskState) (attemptState : Str) (summary : Str)
    (now : Timestamp) : StoreDb Unit :=
  transaction do
    raiseIf (taskState ∉ [TaskState.pending, .failed, .stopped])
      (.valueError (lit "invalid settled task state: " ++ lit taskState.value) [])
    let attemptState ← orRaise (settledAttemptState attemptState)
      (.valueError (lit "invalid settled attempt state: " ++ attemptState) [])
    let id ← lift (bindText jobId)
    let job ← orRaise (← selectJob id) (.keyError jobId)
    lift (forbidIf (job.acceptancePhase ≠ .none)
      (lit "accepted job cannot be settled as ordinary in-flight work (" ++
        lit job.acceptancePhase.value ++ lit ")"))
    let boundedSummary ← lift (bindText (lastChars 8000 summary))
    let _ ← updateAttempts (runningOf [id]) (closeAttempt attemptState now boundedSummary)
      (closeAttempt_key attemptState now boundedSummary)
    let _ ← updateTasks (inflightOf [id]) (settleTask taskState now boundedSummary)
      (settleTask_key taskState now boundedSummary)
    validateSnapshot id

/-! ## Resuming -/

/-- The row after `UPDATE jobs` of a resume. -/
def resumeJob (now : Timestamp) (job : JobRow) : JobRow :=
  { job with state := .queued, stopRequested := false, error := Text.lit "", updatedAt := now }

theorem resumeJob_id (now : Timestamp) (job : JobRow) : (resumeJob now job).id = job.id := rfl

/-- The transaction of `prepare_resume`. -/
def resumeRows (jobId : Str) (now : Timestamp) : StoreTx Unit := do
  let id ← lift (bindText jobId)
  let job ← orRaise (← selectJob id) (.keyError jobId)
  lift (forbidIf (job.acceptancePhase ≠ .none)
    (lit "cannot resume ordinary work after acceptance begins (" ++
      lit job.acceptancePhase.value ++ lit ")"))
  lift (forbidIf (job.state ∉ [JobState.stopped, .failed])
    (lit "resume requires stopped or failed job, got " ++ lit job.state.value))
  lift (validateJobTransition job.state .queued)
  let note := Text.lit "cancelled before explicit resume"
  let _ ← updateAttempts (runningOf [id]) (closeAttempt .cancelled now note)
    (closeAttempt_key .cancelled now note)
  let _ ← updateTasks (unfinishedOf id) (moveTask .pending now) (moveTask_key .pending now)
  let rowcount ← updateJobs
    (fun j => j.id == id && j.state == job.state && j.acceptancePhase == .none)
    (resumeJob now) (resumeJob_id now)
  lift (forbidIf (rowcount ≠ 1) (lit "stale job state while resuming " ++ jobId))
  validateSnapshot id

/-- `prepare_resume`; `at'` is the clock when the event is recorded. -/
def prepareResume (jobId : Str) (now at' : Timestamp) : StoreDb Unit := do
  transaction (resumeRows jobId now)
  jobEvent jobId "job.resumed" at'

/-! ## Recovering -/

/-- The interrupted jobs, by what recovery does with them. -/
structure Interrupted where
  accepted : List JobRow
  active : List JobRow
  stopped : List JobRow

/-- The three groups of the jobs in no terminal state. -/
def Store.interrupted (s : Store) : Interrupted :=
  let rows := s.jobs.select fun j => !j.state.terminal
  let ordinary := rows.filter fun j =>
    !(j.acceptancePhase ∈ [AcceptancePhase.accepted, .applying])
  { accepted := rows.filter fun j => j.acceptancePhase ∈ [AcceptancePhase.accepted, .applying]
    active := ordinary.filter fun j => !j.stopRequested && j.state != .stopping
    stopped := ordinary.filter fun j => !(!j.stopRequested && j.state != .stopping) }

/-- What recovery requires of the job states it finds. -/
def Interrupted.validate (groups : Interrupted) : Except Exn Unit := do
  groups.accepted.forM fun row =>
    forbidIf (row.state ∉ [JobState.running, .stopping])
      (lit "accepted recovery found invalid job state " ++ lit row.state.value)
  groups.active.forM fun row => validateJobTransition row.state .queued
  groups.stopped.forM fun row => do
    if row.state ≠ .stopping then validateJobTransition row.state .stopping
    validateJobTransition .stopping .stopped

/-- An accepted job keeps its state and loses its stop request. -/
def keepAccepted (now : Timestamp) (job : JobRow) : JobRow :=
  { job with stopRequested := false, error := Text.lit "", updatedAt := now }

/-- An interrupted job is put back to `state`. -/
def putBack (state : JobState) (stopRequested : Bool) (now : Timestamp) (job : JobRow) : JobRow :=
  { job with state := state, stopRequested := stopRequested, updatedAt := now }

theorem keepAccepted_id (now : Timestamp) (job : JobRow) : (keepAccepted now job).id = job.id := rfl

theorem putBack_id (state : JobState) (stopRequested : Bool) (now : Timestamp) (job : JobRow) :
    (putBack state stopRequested now job).id = job.id := rfl

/-- A statement with a placeholder for each job of a group and `others` more; it is not executed
for an empty group. SQLite refuses a statement of more than `maxVariables` parameters. -/
def prepareFor (maxVariables : Nat) (ids : List Text) (others : Nat) : StoreTx Unit :=
  raiseIf (ids ≠ [] ∧ maxVariables < ids.length + others) .operationalError

/-- The three updates of a group of ordinary jobs; an empty group has none. -/
def recoverGroup (maxVariables : Nat) (ids : List Text) (taskState : TaskState) (note : Text)
    (jobState : JobState)
    (stopRequested : Bool) (now : Timestamp) : StoreTx Unit := do
  prepareFor maxVariables ids 5
  let _ ← updateTasks (inflightOf ids) (moveTask taskState now) (moveTask_key taskState now)
  prepareFor maxVariables ids 1
  let _ ← updateAttempts (runningOf ids) (closeAttempt .cancelled now note)
    (closeAttempt_key .cancelled now note)
  prepareFor maxVariables ids 2
  let _ ← updateJobs (idIn ids) (putBack jobState stopRequested now)
    (putBack_id jobState stopRequested now)

/-- `_validate_snapshot_locked` of each job. -/
def validateSnapshots : List Text → StoreTx Unit
  | [] => pure ()
  | jobId :: jobIds => do
    validateSnapshot jobId
    validateSnapshots jobIds

/-- The transaction of `recover_incomplete`. -/
def recoverRows (maxVariables : Nat) (now : Timestamp) : StoreTx Interrupted := do
  let groups ← query Store.interrupted
  lift groups.validate
  let acceptedIds := groups.accepted.map JobRow.id
  let activeIds := groups.active.map JobRow.id
  let stoppedIds := groups.stopped.map JobRow.id
  prepareFor maxVariables acceptedIds 1
  let _ ← updateJobs (idIn acceptedIds) (keepAccepted now) (keepAccepted_id now)
  recoverGroup maxVariables activeIds .pending (Text.lit "interrupted by daemon restart") .queued
    false now
  recoverGroup maxVariables stoppedIds .stopped (Text.lit "interrupted while stop was requested")
    .stopped true now
  validateSnapshots (acceptedIds ++ activeIds ++ stoppedIds)
  return groups

/-- One event for each job; `at'` is the clock when it is recorded. -/
def jobEvents (kind : String) (at' : Text → Timestamp) : List Text → StoreDb Unit
  | [] => pure ()
  | jobId :: jobIds => do
    jobEvent jobId.val kind (at' jobId)
    jobEvents kind at' jobIds

/-- `recover_incomplete`: the jobs to run again. -/
def recoverIncomplete (maxVariables : Nat) (now : Timestamp) (at' : Text → Timestamp) :
    StoreDb (List Text) := do
  let groups ← transaction (recoverRows maxVariables now)
  jobEvents "job.recovered_acceptance" at' (groups.accepted.map JobRow.id)
  jobEvents "job.recovered" at' (groups.active.map JobRow.id)
  jobEvents "job.recovered_stopped" at' (groups.stopped.map JobRow.id)
  return groups.accepted.map JobRow.id ++ groups.active.map JobRow.id

/-! ## What a successful call has done -/

/-- The store after `recoverGroup`. -/
def Store.putBackGroup (s : Store) (ids : List Text) (taskState : TaskState) (note : Text)
    (jobState : JobState) (stopRequested : Bool) (now : Timestamp) : Store :=
  ((s.updateTasks (inflightOf ids) (moveTask taskState now)
    (moveTask_key taskState now)).updateAttempts
    (runningOf ids) (closeAttempt .cancelled now note)
      (closeAttempt_key .cancelled now note)).updateJobs
    (idIn ids) (putBack jobState stopRequested now)
    (putBack_id jobState stopRequested now)

/-- The store after the updates of recovery. -/
def Store.recovered (s : Store) (now : Timestamp) : Store :=
  let groups := s.interrupted
  ((s.updateJobs (idIn (groups.accepted.map JobRow.id)) (keepAccepted now)
    (keepAccepted_id now)).putBackGroup (groups.active.map JobRow.id) .pending
      (Text.lit "interrupted by daemon restart") .queued false now).putBackGroup
      (groups.stopped.map JobRow.id) .stopped (Text.lit "interrupted while stop was requested")
      .stopped true now

/-- What recovery makes of a job. -/
def Interrupted.job (groups : Interrupted) (now : Timestamp) (job : JobRow) : JobRow :=
  Table.setWhere (idIn (groups.stopped.map JobRow.id)) (putBack .stopped true now)
    (Table.setWhere (idIn (groups.active.map JobRow.id))
      (putBack .queued false now)
      (Table.setWhere (idIn (groups.accepted.map JobRow.id)) (keepAccepted now)
        job))

/-- What recovery makes of a task. -/
def Interrupted.task (groups : Interrupted) (now : Timestamp) (task : TaskRow) : TaskRow :=
  Table.setWhere (inflightOf (groups.stopped.map JobRow.id)) (moveTask .stopped now)
    (Table.setWhere (inflightOf (groups.active.map JobRow.id)) (moveTask .pending now) task)

/-- What recovery makes of an attempt. -/
def Interrupted.attempt (groups : Interrupted) (now : Timestamp) (attempt : AttemptRow) :
    AttemptRow :=
  Table.setWhere (runningOf (groups.stopped.map JobRow.id))
    (closeAttempt .cancelled now (Text.lit "interrupted while stop was requested"))
    (Table.setWhere (runningOf (groups.active.map JobRow.id))
      (closeAttempt .cancelled now (Text.lit "interrupted by daemon restart")) attempt)

theorem Store.recovered_jobs (s : Store) (now : Timestamp) :
    (s.recovered now).jobs.rows = s.jobs.rows.map (s.interrupted.job now) := by
  simp only [Store.recovered, Store.putBackGroup, Store.updateJobs, Store.updateTasks,
    Store.updateAttempts, Table.rows_update, List.map_map]
  rfl

theorem Store.recovered_tasks (s : Store) (now : Timestamp) :
    (s.recovered now).tasks.rows = s.tasks.rows.map (s.interrupted.task now) := by
  simp only [Store.recovered, Store.putBackGroup, Store.updateJobs, Store.updateTasks,
    Store.updateAttempts, Table.rows_update, List.map_map]
  rfl

theorem Store.recovered_attempts (s : Store) (now : Timestamp) :
    (s.recovered now).attempts.rows = s.attempts.rows.map (s.interrupted.attempt now) := by
  simp only [Store.recovered, Store.putBackGroup, Store.updateJobs, Store.updateTasks,
    Store.updateAttempts, Table.rows_update, List.map_map]
  rfl

section Cases

variable {s s' : Store}

theorem Store.mem_interrupted_accepted {j : JobRow} :
    j ∈ s.interrupted.accepted ↔ j ∈ s.jobs ∧ j.state.terminal = false ∧
      j.acceptancePhase ∈ [AcceptancePhase.accepted, .applying] := by
  simp [Store.interrupted, and_assoc]

theorem Store.mem_interrupted_active {j : JobRow} :
    j ∈ s.interrupted.active ↔ j ∈ s.jobs ∧ j.state.terminal = false ∧
      j.acceptancePhase ∉ [AcceptancePhase.accepted, .applying] ∧
      (j.stopRequested = false ∧ j.state ≠ .stopping) := by
  simp [Store.interrupted, and_assoc, and_comm, and_left_comm]

theorem Store.mem_interrupted_stopped {j : JobRow} :
    j ∈ s.interrupted.stopped ↔ j ∈ s.jobs ∧ j.state.terminal = false ∧
      j.acceptancePhase ∉ [AcceptancePhase.accepted, .applying] ∧
      ¬ (j.stopRequested = false ∧ j.state ≠ .stopping) := by
  cases hstop : j.stopRequested
  · simp [Store.interrupted, hstop, and_assoc, and_comm, and_left_comm]
  · simp [Store.interrupted, hstop, and_assoc]

/-- A job of the store is in a group when its id is among the group's. -/
theorem Store.mem_group {group : List JobRow} (hgroup : ∀ j ∈ group, j ∈ s.jobs) {j : JobRow}
    (hj : j ∈ s.jobs) : idIn (group.map JobRow.id) j = true ↔ j ∈ group := by
  rw [idIn, List.contains_eq_mem, decide_eq_true_eq, List.mem_map]
  constructor
  · rintro ⟨j', hj', hid⟩
    have heq : j' = j := Table.eq_of_clash (hgroup j' hj') hj hid
    rw [← heq]
    exact hj'
  · intro h
    exact ⟨j, h, rfl⟩

/-- Where recovery takes a job, by what it finds. -/
theorem Store.interrupted_job {now : Timestamp} {j : JobRow} (hj : j ∈ s.jobs) :
    s.interrupted.job now j =
      if j.state.terminal then j
      else if j.acceptancePhase ∈ [AcceptancePhase.accepted, .applying] then keepAccepted now j
      else if j.stopRequested = false ∧ j.state ≠ .stopping then putBack .queued false now j
      else putBack .stopped true now j := by
  -- each statement of the recovery writes the rows of one group
  have haccepted := mem_group (fun _ h => (mem_interrupted_accepted.mp h).1) hj
  have hactive := mem_group (fun _ h => (mem_interrupted_active.mp h).1) hj
  have hstopped := mem_group (fun _ h => (mem_interrupted_stopped.mp h).1) hj
  rw [mem_interrupted_accepted] at haccepted
  rw [mem_interrupted_active] at hactive
  rw [mem_interrupted_stopped] at hstopped
  unfold Interrupted.job
  -- a terminal job is in none of the groups
  by_cases hterminal : j.state.terminal = true
  · have hrun : ¬ j.state.terminal = false := by
      rw [hterminal]
      decide
    rw [Table.setWhere_neg fun h => hrun (haccepted.mp h).2.1,
      Table.setWhere_neg fun h => hrun (hactive.mp h).2.1,
      Table.setWhere_neg fun h => hrun (hstopped.mp h).2.1, if_pos hterminal]
  · rw [if_neg hterminal]
    rw [Bool.not_eq_true] at hterminal
    -- an accepted one is in the first only
    by_cases hphase : j.acceptancePhase ∈ [AcceptancePhase.accepted, .applying]
    · have hkept : ¬ idIn (s.interrupted.active.map JobRow.id) (keepAccepted now j) = true :=
        fun h => (hactive.mp h).2.2.1 hphase
      have hkept' : ¬ idIn (s.interrupted.stopped.map JobRow.id) (keepAccepted now j) = true :=
        fun h => (hstopped.mp h).2.2.1 hphase
      rw [Table.setWhere_pos (haccepted.mpr ⟨hj, hterminal, hphase⟩), Table.setWhere_neg hkept,
        Table.setWhere_neg hkept', if_pos hphase]
    · rw [Table.setWhere_neg fun h => hphase (haccepted.mp h).2.2, if_neg hphase]
      -- of the others each is in one: queued again, or stopped
      by_cases hrun : j.stopRequested = false ∧ j.state ≠ .stopping
      · have hqueued : ¬ idIn (s.interrupted.stopped.map JobRow.id) (putBack .queued false now j) =
            true := fun h => (hstopped.mp h).2.2.2 hrun
        rw [Table.setWhere_pos (hactive.mpr ⟨hj, hterminal, hphase, hrun⟩),
          Table.setWhere_neg hqueued, if_pos hrun]
      · rw [Table.setWhere_neg fun h => hrun (hactive.mp h).2.2.2,
          Table.setWhere_pos (hstopped.mpr ⟨hj, hterminal, hphase, hrun⟩), if_neg hrun]

/-- A task that recovery has made pending is not in flight any more. -/
theorem Interrupted.task_eq (groups : Interrupted) (now : Timestamp) (task : TaskRow) :
    groups.task now task =
      if inflightOf (groups.active.map JobRow.id) task then moveTask .pending now task
      else if inflightOf (groups.stopped.map JobRow.id) task then moveTask .stopped now task
      else task := by
  unfold Interrupted.task
  by_cases hactive : inflightOf (groups.active.map JobRow.id) task = true
  · have hagain : ¬ inflightOf (groups.stopped.map JobRow.id) (moveTask .pending now task) =
      true := by
      simp [inflightOf, TaskState.inflight]
    rw [Table.setWhere_pos hactive, Table.setWhere_neg hagain, if_pos hactive]
  · rw [Table.setWhere_neg hactive, if_neg hactive, Table.setWhere]

/-- An attempt that recovery has cancelled is not running any more. -/
theorem Interrupted.attempt_eq (groups : Interrupted) (now : Timestamp) (attempt : AttemptRow) :
    groups.attempt now attempt =
      if runningOf (groups.active.map JobRow.id) attempt then
        closeAttempt .cancelled now (Text.lit "interrupted by daemon restart") attempt
      else if runningOf (groups.stopped.map JobRow.id) attempt then
        closeAttempt .cancelled now (Text.lit "interrupted while stop was requested") attempt
      else attempt := by
  unfold Interrupted.attempt
  by_cases hactive : runningOf (groups.active.map JobRow.id) attempt = true
  · have hagain : ¬ runningOf (groups.stopped.map JobRow.id) (closeAttempt .cancelled now
        (Text.lit "interrupted by daemon restart") attempt) = true := by
      simp [runningOf]
    rw [Table.setWhere_pos hactive, Table.setWhere_neg hagain, if_pos hactive]
  · rw [Table.setWhere_neg hactive, if_neg hactive, Table.setWhere]

theorem retryFailedTasks_cases {jobId : Str} {now : Timestamp}
    (h : retryFailedTasks jobId now s = .ok () s') :
    ∃ job ∈ s.jobs, job.id.val = jobId ∧ job.acceptancePhase = .none ∧
      job.state ∈ [JobState.failed, .stopped, .queued] ∧
      s' = s.updateTasks (unfinishedOf job.id) (moveTask .pending now) (moveTask_key .pending now) ∧
      s'.Validated job.id := by
  rw [retryFailedTasks, db_bind_ok_iff] at h
  obtain ⟨job, t, hget, htx⟩ := h
  obtain ⟨rfl, id, hid, hjob⟩ := getJob_cases hget
  rw [transaction_ok_iff] at htx
  simp only [tx_bind_ok_iff, lift_ok_iff, forbidIf_eq_ok, updateTasks_ok_iff,
    validateSnapshot_ok_iff, Decidable.not_not, ne_eq] at htx
  obtain ⟨_, _, ⟨hphase, rfl⟩, _, _, ⟨hstate, rfl⟩, _, _, hupdate, hret, hvalid⟩ := htx
  cases hupdate
  cases hret
  obtain ⟨hmem, rfl⟩ := Store.mem_of_job? hjob
  exact ⟨job, hmem, hid, hphase, hstate, rfl, hvalid⟩

theorem settleInflight_cases {jobId attemptState summary : Str} {taskState : TaskState}
    {now : Timestamp} (h : settleInflight jobId taskState attemptState summary now s = .ok () s') :
    ∃ job ∈ s.jobs, ∃ (settled : AttemptState) (note : Text), job.id.val = jobId ∧
      taskState ∈ [TaskState.pending, .failed, .stopped] ∧
      settledAttemptState attemptState = some settled ∧ job.acceptancePhase = .none ∧
      note.val = lastChars 8000 summary ∧
      s' = (s.updateAttempts (runningOf [job.id]) (closeAttempt settled now note)
        (closeAttempt_key settled now note)).updateTasks (inflightOf [job.id])
        (settleTask taskState now note) (settleTask_key taskState now note) ∧
      s'.Validated job.id := by
  rw [settleInflight, transaction_ok_iff] at h
  simp only [tx_bind_ok_iff, lift_ok_iff, bindText_eq_ok, raiseIf_ok_iff, selectJob_ok_iff,
    orRaise_ok_iff, forbidIf_eq_ok, updateTasks_ok_iff, updateAttempts_ok_iff,
    validateSnapshot_ok_iff, Decidable.not_not, ne_eq] at h
  obtain ⟨_, _, ⟨htask, hpair⟩, settled, _, ⟨hsettled, rfl⟩, id, _, ⟨hid, rfl⟩, _, _, hsel, job, _,
    ⟨hjob, rfl⟩, _, _, ⟨hphase, rfl⟩, note, _, ⟨hnote, rfl⟩, _, _, hattempts, _, _, htasks, hret,
    hvalid⟩ := h
  cases hpair
  cases hsel
  cases hattempts
  cases htasks
  cases hret
  obtain ⟨hmem, rfl⟩ := Store.mem_of_job? hjob
  exact ⟨job, hmem, settled, note, hid, htask, hsettled, hphase, hnote, rfl, hvalid⟩

/-- The store after the transaction of a resume. -/
def Store.resumed (s : Store) (job : JobRow) (now : Timestamp) : Store :=
  ((s.updateAttempts (runningOf [job.id])
      (closeAttempt .cancelled now (Text.lit "cancelled before explicit resume"))
      (closeAttempt_key .cancelled now (Text.lit "cancelled before explicit resume"))).updateTasks
    (unfinishedOf job.id) (moveTask .pending now) (moveTask_key .pending now)).updateJobs
    (fun j => j.id == job.id && j.state == job.state && j.acceptancePhase == .none)
    (resumeJob now) (resumeJob_id now)

theorem resumeRows_cases {jobId : Str} {now : Timestamp} {q : Unit × Store}
    (h : resumeRows jobId now s = .ok q) :
    ∃ job ∈ s.jobs, job.id.val = jobId ∧ job.acceptancePhase = .none ∧
      job.state ∈ [JobState.stopped, .failed] ∧ q.2 = s.resumed job now ∧ q.2.Validated job.id := by
  unfold resumeRows at h
  simp only [tx_bind_ok_iff, lift_ok_iff, bindText_eq_ok, selectJob_ok_iff, orRaise_ok_iff,
    forbidIf_eq_ok, validateJobTransition_eq_ok, updateTasks_ok_iff, updateAttempts_ok_iff,
    updateJobs_ok_iff, validateSnapshot_ok_iff, Decidable.not_not, ne_eq] at h
  obtain ⟨id, _, ⟨hid, rfl⟩, _, _, hsel, job, _, ⟨hjob, rfl⟩, _, _, ⟨hphase, rfl⟩, _, _,
    ⟨hstate, rfl⟩, _, _, ⟨-, rfl⟩, _, _, hattempts, _, _, htasks, _, _, hjobs, _, _, ⟨-, rfl⟩, hret,
    hvalid⟩ := h
  cases hsel
  cases hattempts
  cases htasks
  cases hjobs
  cases hret
  obtain ⟨hmem, rfl⟩ := Store.mem_of_job? hjob
  exact ⟨job, hmem, hid, hphase, hstate, rfl, hvalid⟩

theorem prepareResume_cases {jobId : Str} {now at' : Timestamp}
    (h : prepareResume jobId now at' s = .ok () s') :
    ∃ job ∈ s.jobs, job.id.val = jobId ∧ job.acceptancePhase = .none ∧
      job.state ∈ [JobState.stopped, .failed] ∧ (s.resumed job now).Validated job.id ∧
      jobEvent jobId "job.resumed" at' (s.resumed job now) = .ok () s' := by
  rw [prepareResume, db_bind_ok_iff] at h
  obtain ⟨_, t, htx, hevent⟩ := h
  obtain ⟨job, hmem, hid, hphase, hstate, heq, hvalid⟩ :=
    resumeRows_cases (transaction_ok_iff.mp htx)
  cases heq
  exact ⟨job, hmem, hid, hphase, hstate, hvalid, hevent⟩

theorem prepareResume_atomic (jobId : Str) (now at' : Timestamp) (s : Store) :
    Atomic (prepareResume jobId now at') s := by
  apply atomic_bind (atomic_transaction _ s)
  intro _ t htx
  obtain ⟨job, -, rfl, -, -, -, job', hjob', -⟩ := resumeRows_cases (transaction_ok_iff.mp htx)
  obtain ⟨t', ht'⟩ := jobEvent_ok ⟨job', Store.mem_of_job? hjob'⟩ "job.resumed" at'
  exact ⟨(), t', ht'⟩

theorem retryFailedTasks_atomic (jobId : Str) (now : Timestamp) (s : Store) :
    Atomic (retryFailedTasks jobId now) s := by
  apply atomic_bind_of_read (atomic_transaction _ s)
  · intro job t hget
    exact (getJob_cases hget).1
  · intro job
    exact atomic_transaction _ s

theorem prepareFor_ok_iff {maxVariables others : Nat} {ids : List Text} {r : Unit × Store} :
    prepareFor maxVariables ids others s = .ok r ↔
      (ids = [] ∨ ids.length + others ≤ maxVariables) ∧ r = ((), s) := by
  rw [prepareFor, raiseIf_ok_iff, not_and_or, not_not, not_lt]

/-- The first update of a group has the most parameters. -/
theorem recoverGroup_ok_iff {maxVariables : Nat} {ids : List Text} {taskState : TaskState}
    {note : Text} {jobState : JobState} {stopRequested : Bool} {now : Timestamp}
    {r : Unit × Store} :
    recoverGroup maxVariables ids taskState note jobState stopRequested now s = .ok r ↔
      (ids = [] ∨ ids.length + 5 ≤ maxVariables) ∧
        r = ((), s.putBackGroup ids taskState note jobState stopRequested now) := by
  unfold recoverGroup Store.putBackGroup
  simp only [tx_bind_ok_iff, prepareFor_ok_iff, updateTasks_ok_iff, updateAttempts_ok_iff,
    updateJobs_ok_iff, tx_pure_ok_iff]
  constructor
  · rintro ⟨_, _, ⟨hfits, hfirst⟩, _, _, htasks, _, _, ⟨-, hsecond⟩, _, _, hattempts, _, _,
      ⟨-, hthird⟩, _, _, hjobs, rfl⟩
    cases hfirst
    cases htasks
    cases hsecond
    cases hattempts
    cases hthird
    cases hjobs
    exact ⟨hfits, rfl⟩
  · rintro ⟨hfits, rfl⟩
    have hsecond : ids = [] ∨ ids.length + 1 ≤ maxVariables := hfits.imp_right (by omega)
    have hthird : ids = [] ∨ ids.length + 2 ≤ maxVariables := hfits.imp_right (by omega)
    exact ⟨_, _, ⟨hfits, rfl⟩, _, _, rfl, _, _, ⟨hsecond, rfl⟩, _, _, rfl, _, _, ⟨hthird, rfl⟩, _,
      _,
      rfl, rfl⟩

theorem validateSnapshots_ok_iff {jobIds : List Text} {r : Unit × Store} :
    validateSnapshots jobIds s = .ok r ↔ r = ((), s) ∧ ∀ jobId ∈ jobIds, s.Validated jobId := by
  induction jobIds with
  | nil => simp [validateSnapshots]
  | cons jobId jobIds ih =>
    rw [validateSnapshots, tx_bind_ok_iff, List.forall_mem_cons]
    constructor
    · rintro ⟨_, _, hsnap, hrest⟩
      obtain ⟨heq, hvalid⟩ := validateSnapshot_ok_iff.mp hsnap
      cases heq
      obtain ⟨hr, hall⟩ := ih.mp hrest
      exact ⟨hr, hvalid, hall⟩
    · rintro ⟨hr, hvalid, hall⟩
      exact ⟨_, _, validateSnapshot_ok_iff.mpr ⟨rfl, hvalid⟩, ih.mpr ⟨hr, hall⟩⟩

/-- The statements of recovery have as many parameters as SQLite allows. -/
structure Interrupted.Fits (groups : Interrupted) (maxVariables : Nat) : Prop where
  accepted : groups.accepted = [] ∨ groups.accepted.length + 1 ≤ maxVariables
  active : groups.active = [] ∨ groups.active.length + 5 ≤ maxVariables
  stopped : groups.stopped = [] ∨ groups.stopped.length + 5 ≤ maxVariables

theorem recoverRows_ok_iff {maxVariables : Nat} {now : Timestamp} {r : Interrupted × Store} :
    recoverRows maxVariables now s = .ok r ↔
      r = (s.interrupted, s.recovered now) ∧ s.interrupted.Fits maxVariables ∧
        s.interrupted.validate = .ok () ∧
        ∀ jobId ∈ s.interrupted.accepted.map JobRow.id ++ s.interrupted.active.map JobRow.id ++
          s.interrupted.stopped.map JobRow.id, (s.recovered now).Validated jobId := by
  unfold recoverRows
  simp only [tx_bind_ok_iff, query_ok_iff, lift_ok_iff, prepareFor_ok_iff, updateJobs_ok_iff,
    recoverGroup_ok_iff, validateSnapshots_ok_iff, tx_pure_ok_iff, List.map_eq_nil_iff,
    List.length_map]
  constructor
  · rintro ⟨_, _, hquery, _, _, ⟨hvalidate, rfl⟩, _, _, ⟨hkept, hprepare⟩, _, _, haccepted, _, _,
      ⟨hactive, hput⟩, _, _, ⟨hstopped, hput'⟩, _, _, ⟨hpair, hvalid⟩, hret⟩
    cases hquery
    cases hprepare
    cases haccepted
    cases hput
    cases hput'
    cases hpair
    cases hret
    exact ⟨rfl, ⟨hkept, hactive, hstopped⟩, hvalidate, hvalid⟩
  · rintro ⟨rfl, ⟨hkept, hactive, hstopped⟩, hvalidate, hvalid⟩
    exact ⟨_, _, rfl, _, _, ⟨hvalidate, rfl⟩, _, _, ⟨hkept, rfl⟩, _, _, rfl, _, _, ⟨hactive, rfl⟩,
      _, _, ⟨hstopped, rfl⟩, _, _, ⟨rfl, hvalid⟩, rfl⟩

theorem recoverRows_cases {maxVariables : Nat} {now : Timestamp} {groups : Interrupted}
    (h : recoverRows maxVariables now s = .ok (groups, s')) :
    groups = s.interrupted ∧ s' = s.recovered now ∧
      ∀ jobId ∈ groups.accepted.map JobRow.id ++ groups.active.map JobRow.id ++
        groups.stopped.map JobRow.id, s'.Validated jobId := by
  obtain ⟨hpair, -, -, hvalid⟩ := recoverRows_ok_iff.mp h
  cases hpair
  exact ⟨rfl, rfl, hvalid⟩

theorem jobEvents_onlyEvents {kind : String} {at' : Text → Timestamp} {jobIds : List Text}
    (h : jobEvents kind at' jobIds s = .ok () s') : Store.OnlyEvents s s' := by
  induction jobIds generalizing s with
  | nil =>
    cases h
    exact ⟨rfl, rfl, rfl, rfl⟩
  | cons jobId jobIds ih =>
    obtain ⟨_, t, hevent, hrest⟩ := db_bind_ok_iff.mp h
    exact (jobEvent_onlyEvents hevent).trans (ih hrest)

/-- The rows of a recovery, before its events. -/
theorem recoverIncomplete_rows {maxVariables : Nat} {now : Timestamp} {at' : Text → Timestamp}
    {reply : List Text} (h : recoverIncomplete maxVariables now at' s = .ok reply s') :
    ∃ t, recoverRows maxVariables now s = .ok (s.interrupted, t) ∧ Store.OnlyEvents t s' ∧
      reply = s.interrupted.accepted.map JobRow.id ++ s.interrupted.active.map JobRow.id := by
  simp only [recoverIncomplete, db_bind_ok_iff, transaction_ok_iff] at h
  obtain ⟨groups, t, hrows, _, _, haccepted, _, _, hactive, _, _, hstopped, hret⟩ := h
  cases hret
  obtain ⟨rfl, -⟩ := recoverRows_cases hrows
  exact ⟨t, hrows, ((jobEvents_onlyEvents haccepted).trans (jobEvents_onlyEvents hactive)).trans
    (jobEvents_onlyEvents hstopped), rfl⟩

end Cases

end OmarchyYolo
