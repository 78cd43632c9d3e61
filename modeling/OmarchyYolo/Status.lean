import OmarchyYolo.Lib.Dict
import OmarchyYolo.Listings
import OmarchyYolo.Runtime

/-!
# OmarchyYolo.Status — the answer to `status`

`_status` tells a job with all its tasks. Its texts are cut by characters, once as
they are read, and again in three rounds as long as the answer is longer than a
line may be: the identity of a task, its number, state and attempts stay.

* `Status` — the answer, with `Status.value`, its JSON;
* `attemptMetrics`, `latestAttempt?`, `taskItem` — its parts, from the tables;
* `boundStatusResponse` — the rounds; `jobStatus`, `StatusReply` — `_status`.
-/

namespace OmarchyYolo

open Py PyJson Sql Txn Lts

def maxGoalChars : Nat := 16000

def maxStatusResponseBytes : Nat := maxRpcMessageBytes - 65536

/-- What is done with times. Seconds are floats. -/
structure Seconds (F : Type) where
  /-- `float(row["created_at"])`. -/
  stamp : Timestamp → F
  /-- `max(0.0, later - earlier)`. -/
  elapsed : Timestamp → Timestamp → F
  zero : F
  add : F → F → F
  /-- `SUM` of the database. -/
  sum : List F → F
  /-- `round(seconds, 3)`. -/
  round : F → F

/-! ## Attempts -/

section Attempts

variable {F : Type} (seconds : Seconds F)

/-- The number of each state of attempts, in the order of `states`. -/
def attemptCounts (counts : AttemptState → Nat) : List (Str × Json F) :=
  AttemptState.all.map fun state => (lit state.value, .int (counts state))

/-- `counts[state] += attempts`. -/
def addCount (counts : AttemptState → Nat) (state : AttemptState) (attempts : Nat) :
    AttemptState → Nat :=
  fun other => if other = state then counts other + attempts else counts other

/-- A row of the query of `attempt_metrics`. -/
structure AttemptGroup (F : Type) where
  agent : Str
  state : AttemptState
  attempts : Nat
  elapsedSeconds : F
  completedSeconds : F

/-- What `by_agent` has of an agent. -/
structure AgentMetrics (F : Type) where
  attempts : Nat := 0
  counts : AttemptState → Nat := fun _ => 0
  elapsedSeconds : F

def AgentMetrics.add (metrics : AgentMetrics F) (row : AttemptGroup F) : AgentMetrics F where
  attempts       := metrics.attempts + row.attempts
  counts         := addCount metrics.counts row.state row.attempts
  elapsedSeconds := seconds.add metrics.elapsedSeconds row.elapsedSeconds

def AgentMetrics.value (metrics : AgentMetrics F) : Json F :=
  .obj (.ofList
    ((lit "attempts", .int metrics.attempts) :: attemptCounts metrics.counts ++
      [(lit "elapsed_seconds", .float metrics.elapsedSeconds)]))

/-- `by_agent.setdefault(agent, ...)`, and the row added to it. -/
def addAgent (row : AttemptGroup F) :
    List (Str × AgentMetrics F) → List (Str × AgentMetrics F) :=
  dictSet row.agent fun metrics =>
    (metrics.getD { elapsedSeconds := seconds.zero }).add seconds row

/-- `attempt_metrics`. -/
structure AttemptMetrics (F : Type) where
  attemptsTotal : Nat
  counts : AttemptState → Nat
  elapsedSecondsTotal : F
  completedSecondsTotal : F
  byAgent : List (Str × AgentMetrics F)

/-- The loop of `attempt_metrics`. -/
def AttemptMetrics.add (totals : AttemptMetrics F) (row : AttemptGroup F) : AttemptMetrics F where
  attemptsTotal         := totals.attemptsTotal + row.attempts
  counts                := addCount totals.counts row.state row.attempts
  elapsedSecondsTotal   := seconds.add totals.elapsedSecondsTotal row.elapsedSeconds
  completedSecondsTotal := seconds.add totals.completedSecondsTotal row.completedSeconds
  byAgent               := addAgent seconds row totals.byAgent

/-- `attempt_metrics` before its loop. -/
def AttemptMetrics.start : AttemptMetrics F where
  attemptsTotal         := 0
  counts                := fun _ => 0
  elapsedSecondsTotal   := seconds.zero
  completedSecondsTotal := seconds.zero
  byAgent               := []

/-- The sums are rounded, and the agents sorted, at the end. -/
def AttemptMetrics.finish (totals : AttemptMetrics F) : AttemptMetrics F where
  attemptsTotal         := totals.attemptsTotal
  counts                := totals.counts
  elapsedSecondsTotal   := seconds.round totals.elapsedSecondsTotal
  completedSecondsTotal := seconds.round totals.completedSecondsTotal
  byAgent               :=
    (totals.byAgent.map fun (agent, metrics) =>
      (agent, { metrics with elapsedSeconds := seconds.round metrics.elapsedSeconds })).mergeSort
      fun item item' => strLe item.1 item'.1

def attemptMetrics (rows : List (AttemptGroup F)) : AttemptMetrics F :=
  (rows.foldl (AttemptMetrics.add seconds) (.start seconds)).finish seconds

def AttemptMetrics.members (metrics : AttemptMetrics F) : List (Str × Json F) :=
  [(lit "attempts_total", .int metrics.attemptsTotal),
   (lit "states", .obj (.ofList (attemptCounts metrics.counts))),
   (lit "elapsed_seconds_total", .float metrics.elapsedSecondsTotal),
   (lit "completed_seconds_total", .float metrics.completedSecondsTotal),
   (lit "by_agent", .obj (.ofList (metrics.byAgent.map fun (agent, metrics) =>
     (agent, metrics.value))))]

/-- What an attempt is grouped by. -/
def AttemptRow.group (a : AttemptRow) : Text × AttemptState := (a.agent, a.state)

/-- `MAX(0.0, COALESCE(finished_at, now) - started_at)`. -/
def AttemptRow.elapsed (now : Timestamp) (a : AttemptRow) : F :=
  seconds.elapsed a.startedAt (a.finishedAt.getD now)

/-- The row of a group of attempts. -/
def attemptGroup (now : Timestamp) (rows : List AttemptRow) (group : Text × AttemptState) :
    AttemptGroup F :=
  let members := rows.filter fun a => a.group == group
  { agent            := group.1.val
    state            := group.2
    attempts         := members.length
    elapsedSeconds   := seconds.sum (members.map (AttemptRow.elapsed seconds now))
    completedSeconds := seconds.sum (members.map fun a =>
      if a.finishedAt.isNone then seconds.zero else a.elapsed seconds now) }

/-- The attempts of a job. -/
def Store.attemptsOf (s : Store) (jobId : Text) : List AttemptRow :=
  s.attempts.select fun a => a.jobId == jobId

/-- The groups of the attempts of a job, in the order of the database. -/
def Store.Groups (s : Store) (jobId : Text) (groups : List (Text × AttemptState)) : Prop :=
  groups.Perm ((s.attemptsOf jobId).map AttemptRow.group).dedup

/-- The attempt that `latest_attempts` has of a task. -/
def latestAttempt? (s : Store) (jobId taskId : Text) : Option AttemptRow :=
  let rows := (s.attemptsOf jobId).filter fun a => a.taskId == taskId
  (rows.filter fun a => rows.all fun other => other.number ≤ a.number).getLast?

/-- An item of `latest_attempts`. -/
def attemptItem (now : Timestamp) (a : AttemptRow) : Json F :=
  .obj (.ofList
    [(lit "number", .int a.number),
     (lit "agent", .str a.agent.val),
     (lit "state", .str (lit a.state.value)),
     (lit "started_at", .float (seconds.stamp a.startedAt)),
     (lit "finished_at", match a.finishedAt with
       | some finishedAt => .float (seconds.stamp finishedAt)
       | none => .null),
     (lit "elapsed_seconds", .float (seconds.round (a.elapsed seconds now)))])

end Attempts

/-! ## Answers -/

/-- An item of `tasks`. -/
structure TaskItem (F : Type) where
  id : Str
  jobId : Str
  seq : Nat
  logicalId : Str
  title : Str
  state : TaskState
  preferredAgent : Option Str
  attempts : Int
  branch : Str
  worktree : Str
  lastError : Str
  resultSummary : Str
  createdAt : F
  updatedAt : F
  stateAgeSeconds : F
  latestAttempt : Json F

/-- `asdict(job)`, with the texts that are cut. -/
structure JobItem where
  row : JobRow
  goal : Str
  finalSummary : Str
  error : Str

/-- `snapshot`, with its sums of seconds. -/
structure RuntimeSnapshot (F : Type) where
  counters : CoordinatorSnapshot
  workerWaitSecondsTotal : F
  workerBusySecondsTotal : F
  repositoryWaitSecondsTotal : F
  repositoryBusySecondsTotal : F

structure Telemetry (F : Type) where
  metrics : AttemptMetrics F
  jobElapsedSeconds : F
  stateAgeSeconds : F

/-- What `_status` returns of a job. -/
structure Status (F : Type) where
  job : JobItem
  tasks : List (TaskItem F)
  counts : List (TaskState × Nat)
  lastEvents : List (Json F)
  runtime : RuntimeSnapshot F
  telemetry : Telemetry F
  truncated : Bool := false

section Values

variable {F : Type}

def TaskItem.value (task : TaskItem F) : Json F :=
  .obj (.ofList
    [(lit "id", .str task.id),
     (lit "job_id", .str task.jobId),
     (lit "seq", .int task.seq),
     (lit "logical_id", .str task.logicalId),
     (lit "title", .str task.title),
     (lit "state", .str (lit task.state.value)),
     (lit "preferred_agent", match task.preferredAgent with
       | some agent => .str agent
       | none => .null),
     (lit "attempts", .int task.attempts),
     (lit "branch", .str task.branch),
     (lit "worktree", .str task.worktree),
     (lit "last_error", .str task.lastError),
     (lit "result_summary", .str task.resultSummary),
     (lit "created_at", .float task.createdAt),
     (lit "updated_at", .float task.updatedAt),
     (lit "state_age_seconds", .float task.stateAgeSeconds),
     (lit "latest_attempt", task.latestAttempt)])

def RuntimeSnapshot.value (runtime : RuntimeSnapshot F) : Json F :=
  .obj (.ofList
    [(lit "worker_capacity", .int runtime.counters.workerCapacity),
     (lit "workers_active", .int runtime.counters.workersActive),
     (lit "workers_waiting", .int runtime.counters.workersWaiting),
     (lit "repositories_active", .int runtime.counters.repositoriesActive),
     (lit "repository_waiters", .int runtime.counters.repositoryWaiters),
     (lit "worker_acquisitions_total", .int runtime.counters.workerAcquisitionsTotal),
     (lit "worker_cancelled_waits_total", .int runtime.counters.workerCancelledWaitsTotal),
     (lit "worker_wait_seconds_total", .float runtime.workerWaitSecondsTotal),
     (lit "worker_busy_seconds_total", .float runtime.workerBusySecondsTotal),
     (lit "worker_peak_active", .int runtime.counters.workerPeakActive),
     (lit "repository_acquisitions_total", .int runtime.counters.repositoryAcquisitionsTotal),
     (lit "repository_cancelled_waits_total",
       .int runtime.counters.repositoryCancelledWaitsTotal),
     (lit "repository_wait_seconds_total", .float runtime.repositoryWaitSecondsTotal),
     (lit "repository_busy_seconds_total", .float runtime.repositoryBusySecondsTotal)])

def Telemetry.value (telemetry : Telemetry F) : Json F :=
  .obj (.ofList (telemetry.metrics.members ++
    [(lit "job_elapsed_seconds", .float telemetry.jobElapsedSeconds),
     (lit "state_age_seconds", .float telemetry.stateAgeSeconds)]))

def countsValue (counts : List (TaskState × Nat)) : Json F :=
  .obj (.ofList (counts.map fun (state, n) => (lit state.value, .int n)))

/-- The JSON of an answer; `truncated` has been added last. -/
def Status.value (clock : Timestamp → F) (status : Status F) : Json F :=
  .obj (.ofList (
    [(lit "job", jobDict clock status.job.row status.job.goal status.job.finalSummary
       status.job.error),
     (lit "tasks", .arr (.ofList (status.tasks.map TaskItem.value))),
     (lit "counts", countsValue status.counts),
     (lit "last_events", .arr (.ofList status.lastEvents)),
     (lit "runtime", status.runtime.value),
     (lit "telemetry", status.telemetry.value)] ++
    if status.truncated then [(lit "truncated", .bool true)] else []))

/-- The answer where there is no job. -/
def idleStatus (runtime : RuntimeSnapshot F) : Json F :=
  .obj (.ofList
    [(lit "job", .null),
     (lit "tasks", .arr .nil),
     (lit "counts", .obj .nil),
     (lit "runtime", runtime.value),
     (lit "telemetry", .obj (.ofList
       [(lit "attempts_total", .int 0),
        (lit "states", .obj .nil),
        (lit "by_agent", .obj .nil)]))])

end Values

/-! ## Rounds -/

section Rounds

variable {F : Type}

/-- `event["payload"] = {"truncated": True}`. -/
def truncatePayload : Json F → Json F
  | .obj event => .obj (event.put (lit "payload") (.obj (.ofList [(lit "truncated", .bool true)])))
  | event => event

/-- `last_error` and `result_summary`, cut to their ends. -/
def TaskItem.cutTexts (chars : Nat) (task : TaskItem F) : TaskItem F :=
  { task with
    lastError := lastChars chars task.lastError
    resultSummary := lastChars chars task.resultSummary }

def Status.cutPayloads (status : Status F) : Status F :=
  { status with
    truncated := true
    lastEvents := status.lastEvents.map truncatePayload
    tasks := status.tasks.map (TaskItem.cutTexts 512) }

def JobItem.cut (job : JobItem) : JobItem :=
  { job with
    goal := job.goal.take 2000
    finalSummary := lastChars 2000 job.finalSummary
    error := lastChars 2000 job.error }

/-- `branch` and `worktree` are left out. -/
def TaskItem.cutPaths (task : TaskItem F) : TaskItem F := { task with branch := [], worktree := [] }

def Status.cutJob (status : Status F) : Status F :=
  { status with
    job := status.job.cut
    tasks := status.tasks.map fun task => task.cutPaths.cutTexts 128 }

/-- The texts are left out, and the title is cut. -/
def TaskItem.cutTitle (task : TaskItem F) : TaskItem F :=
  { task with title := task.title.take 80, lastError := [], resultSummary := [] }

def Status.cutTitles (status : Status F) : Status F :=
  { status with
    lastEvents := []
    tasks := status.tasks.map TaskItem.cutTitle }

/-- `encoded_size`. -/
def Status.encodedSize [PyFloat F] (clock : Timestamp → F) (status : Status F) : Nat :=
  jsonBytes (status.value clock)

/-- The encoded size is within the ceiling. -/
def Status.Fits [PyFloat F] (clock : Timestamp → F) (status : Status F) : Prop :=
  status.encodedSize clock ≤ maxStatusResponseBytes

instance [PyFloat F] (clock : Timestamp → F) (status : Status F) :
    Decidable (status.Fits clock) := inferInstanceAs (Decidable (_ ≤ _))

/-- `_bound_status_response`. -/
def boundStatusResponse [PyFloat F] (clock : Timestamp → F) (status : Status F) :
    Except Exn (Status F) :=
  if status.Fits clock then .ok status
  else if status.cutPayloads.Fits clock then .ok status.cutPayloads
  else if status.cutPayloads.cutJob.Fits clock then .ok status.cutPayloads.cutJob
  else if ¬ status.cutPayloads.cutJob.cutTitles.Fits clock then
    raise (lit "status metadata exceeds the bounded RPC response ceiling")
  else .ok status.cutPayloads.cutJob.cutTitles

/-- The answers that are tried, in this order. -/
def Status.rounds (status : Status F) : List (Status F) :=
  [status, status.cutPayloads, status.cutPayloads.cutJob, status.cutPayloads.cutJob.cutTitles]

end Rounds

/-! ## The request -/

section Request

variable {F : Type} [PyFloat F]

/-- What `_status` meets: the clock, when it is read for the attempts, for the status and for the
metrics, the counters, what `json.loads` would raise, and the order of the groups. -/
structure StatusContext (F : Type) where
  attemptsNow : Timestamp
  now : Timestamp
  metricsNow : Timestamp
  runtime : RuntimeSnapshot F
  unreadable : Exn
  groups : List (Text × AttemptState)

/-- `recent_events`. -/
def recentEvents (clock : Timestamp → F) (s : Store) (jobId : Text) (limit : Nat) :
    Option (List (Json F)) :=
  let rows := s.eventsOf jobId
  (rows.drop (rows.length - min maxEventListLimit.toNat (max 1 limit))).mapM (eventFromRow clock)

def taskItem (seconds : Seconds F) (context : StatusContext F) (s : Store) (task : TaskRow) :
    TaskItem F where
  id              := task.id.val
  jobId           := task.jobId.val
  seq             := task.seq
  logicalId       := task.logicalId.val
  title           := task.title.val.take 240
  state           := task.state
  preferredAgent  := task.preferredAgent.map Text.val
  attempts        := task.attempts
  branch          := task.branch.val
  worktree        := task.worktree.val
  lastError       := lastChars 2000 task.lastError.val
  resultSummary   := lastChars 2000 task.resultSummary.val
  createdAt       := seconds.stamp task.createdAt
  updatedAt       := seconds.stamp task.updatedAt
  stateAgeSeconds := seconds.round (seconds.elapsed task.updatedAt context.now)
  latestAttempt   := match latestAttempt? s task.jobId task.id with
    | some attempt => attemptItem seconds context.attemptsNow attempt
    | none => .null

/-- The answer, before it is bounded. -/
def fullStatus (seconds : Seconds F) (context : StatusContext F) (s : Store) (job : JobRow)
    (events : List (Json F)) : Status F where
  job :=
    { row          := job
      goal         := job.goal.val.take maxGoalChars
      finalSummary := lastChars 8000 job.finalSummary.val
      error        := lastChars 8000 job.error.val }
  tasks      := (s.tasksOf job.id).map (taskItem seconds context s)
  counts     := dictTally ((s.tasksOf job.id).map TaskRow.state)
  lastEvents := eventsBounded events
  runtime    := context.runtime
  telemetry  :=
    { metrics := attemptMetrics seconds
        (context.groups.map (attemptGroup seconds context.metricsNow (s.attemptsOf job.id)))
      jobElapsedSeconds := seconds.round (seconds.elapsed job.createdAt context.now)
      stateAgeSeconds   := seconds.round (seconds.elapsed job.updatedAt context.now) }

/-- `_status`, of the job that it has read. -/
def jobStatus (seconds : Seconds F) (context : StatusContext F) (s : Store) (job : JobRow) :
    Except Exn (Status F) :=
  match recentEvents seconds.stamp s job.id 12 with
  | none => .error context.unreadable
  | some events => boundStatusResponse seconds.stamp (fullStatus seconds context s job events)

/-- The job that `_status` reads: the one that is named, or one of the latest. -/
def StatusJob (s : Store) (jobId : Str) (job : JobRow) : Prop :=
  job ∈ s.jobs ∧
    if jobId = [] then ∀ j ∈ s.jobs, j.createdAt ≤ job.createdAt else job.id.val = jobId

/-- The JSON of a reply. -/
def replyValue (seconds : Seconds F) (context : StatusContext F) :
    Option (Status F) → Json F
  | some status => status.value seconds.stamp
  | none => idleStatus context.runtime

/-- `_status(job_id)`, where an empty `job_id` is none; `none` is the answer without a job. -/
inductive StatusReply (seconds : Seconds F) (context : StatusContext F) (s : Store) (jobId : Str) :
    Except Exn (Option (Status F)) → Prop
  | named {job : JobRow} (some_id : jobId ≠ []) (found : getJob jobId s = .ok job s)
      (groups : s.Groups job.id context.groups) :
      StatusReply seconds context s jobId ((jobStatus seconds context s job).map some)
  | unknown {e : Exn} (some_id : jobId ≠ []) (missing : getJob jobId s = .error e s) :
      StatusReply seconds context s jobId (.error e)
  | latest {job : JobRow} (no_id : jobId = []) (found : job ∈ s.jobs)
      (last : ∀ j ∈ s.jobs, j.createdAt ≤ job.createdAt)
      (groups : s.Groups job.id context.groups) :
      StatusReply seconds context s jobId ((jobStatus seconds context s job).map some)
  | idle (no_id : jobId = []) (empty : s.jobs.rows = []) :
      StatusReply seconds context s jobId (.ok none)

end Request

end OmarchyYolo
