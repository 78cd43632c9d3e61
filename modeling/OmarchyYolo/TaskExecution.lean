import OmarchyYolo.Integration
import OmarchyYolo.TaskBranch

/-!
# OmarchyYolo.TaskExecution — the life of a task's coroutine

`_run_task_with_slot` acquires the task's worktree and then makes attempts: an
agent works in it, the gates and a reviewer judge what it has committed, and
what they pass is integrated.

* `acquireWorktree` — the worktree, recovered or created;
* `attempt`, `attemptLoop` — one attempt, and the retries;
* `runTaskWithSlot`, `runTask` — the coroutine.
-/

namespace OmarchyYolo

open Py PyJson Calls

section TaskExecution

variable (cfg : EngineConfig) (jobId : Text)

/-! ## Agents -/

/-- The preferred agent of `_choose_worker`, if it is available. -/
def preferredWorker (task : TaskRow) : Coroutine (Option Str) :=
  match task.preferredAgent with
  | none => return none
  | some preferred =>
    exceptWhen Raised.isYoloError
      (do
        let available : List Str ← perform (.available .worker)
        return if preferred.val ∈ available then some preferred.val else none)
      (fun _ => return none)

/-- `registry.available(role=AgentRole.WORKER)`, asked for every configured name. -/
def availableWorkers : List Str → Coroutine (List Str)
  | [] => return []
  | name :: names => do
    let available : List Str ← perform (.available .worker)
    let rest ← availableWorkers names
    return if name ∈ available then name :: rest else rest

/-- `_choose_worker`. -/
def chooseWorker (task : TaskRow) (attemptNumber : Int) : Coroutine Str := do
  match ← preferredWorker task with
  | some name => return name
  | none => do
    match ← availableWorkers cfg.workerAgents with
    | [] => perform (.firstAvailable cfg.workerAgents .worker)
    | name :: names =>
      let index := (task.seq + attemptNumber - 2) % (name :: names).length
      return (name :: names).getD index.toNat name

/-- The loop of `_review_task_resilient`, after the reviewers in `actualTried` and the
errors in `errors`. -/
def reviewLoop (task : TaskRow) (goal : Text) (diff worktree : Str) (gates : List GateResult)
    (attemptNumber : Int) : List Str → List Str → List Str → Coroutine ReviewResult
  | [], _, errors =>
    return { verdict := lit "retry", summary := lit "review infrastructure failed"
             findings := errors }
  | candidate :: candidates, actualTried, errors => do
    let choice : Except Raised Str ←
      (perform (.chooseRole candidate cfg.workerAgents .reviewer)).attempt
    match choice with
    | .error x =>
      if x.isException then
        reviewLoop task goal diff worktree gates attemptNumber candidates actualTried
          (errors ++ [candidate ++ lit ": " ++ x.message])
      else .raise x
    | .ok agentName =>
      if agentName ∈ actualTried then
        reviewLoop task goal diff worktree gates attemptNumber candidates actualTried errors
      else do
        let logPath := cfg.logsDir ++ lit "/" ++ jobId.val ++ lit "/" ++ task.logicalId.val ++
          lit "/review-" ++ dumpsInt attemptNumber ++ lit "-" ++ agentName ++ lit ".log"
        let reviewed : Except Raised ReviewResult ← Program.attempt (do
          let review : ReviewResult ← perform
            (.reviewTask agentName goal task diff gates worktree logPath)
          recordEvent jobId "task.reviewed"
            [(lit "agent", .str agentName), (lit "verdict", .str review.verdict),
              (lit "findings", jsonStrs review.findings)] task.id
          return review)
        match reviewed with
        | .ok review => return review
        | .error x =>
          if x.isException then
            reviewLoop task goal diff worktree gates attemptNumber candidates
              (agentName :: actualTried) (errors ++ [candidate ++ lit ": " ++ x.message])
          else .raise x

/-- `_review_task_resilient`. -/
def reviewTaskResilient (task : TaskRow) (goal : Text) (worktree : Str) (gates : List GateResult)
    (attemptNumber : Int) : Coroutine ReviewResult := do
  let diff ← toThread (diffWorktree worktree task.baseCommit.val)
  reviewLoop cfg jobId task goal diff worktree gates attemptNumber
    (cfg.reviewerAgent :: cfg.workerAgents) [] []

/-! ## The worktree -/

/-- `worktrees_dir / job_id / f"task-{seq}-{slug}"`. -/
def taskWorktree (task : TaskRow) : Str :=
  cfg.worktreesDir ++ lit "/" ++ jobId.val ++ lit "/task-" ++ decimal task.seq ++ lit "-" ++
    slug task.logicalId.val

/-- Where a task works. -/
structure TaskCheckout where
  branch : Str
  worktree : Str
  baseCommit : Str
deriving DecidableEq, Repr

def TaskCheckout.payload (checkout : TaskCheckout) : List (Str × Json NonFinite) :=
  [(lit "branch", .str checkout.branch), (lit "path", .str checkout.worktree),
    (lit "base", .str checkout.baseCommit)]

/-- The worktree of a task whose recorded branch exists. -/
def recoverWorktree (task : TaskRow) (integrationPath : Str) : Coroutine TaskCheckout := do
  let baseCommit ← if task.baseCommit.val ≠ [] then pure task.baseCommit.val
    else toThread (head integrationPath)
  let worktree := if task.worktree.val ≠ [] then task.worktree.val
    else taskWorktree cfg jobId task
  withLock .merge <| withLock .repo <|
    atomicToThread (ensureExistingBranchWorktree worktree task.branch.val baseCommit)
  perform (.updateTask task.id { worktree := some worktree, baseCommit := some baseCommit })
  let checkout := { branch := task.branch.val, worktree, baseCommit }
  recordEvent jobId "task.worktree_recovered" checkout.payload task.id
  return checkout

/-- The worktree of a task without branch. -/
def createWorktree (task : TaskRow) (integrationPath : Str) : Coroutine TaskCheckout := do
  let checkout ← withLock .merge <| withLock .repo do
    let baseCommit ← toThread (head integrationPath)
    let branch := taskBranch cfg.branchPrefix jobId.val task.logicalId.val
    let worktree := taskWorktree cfg jobId task
    atomicToThread (ensureWorktree worktree branch baseCommit)
    pure { branch, worktree, baseCommit : TaskCheckout }
  perform (.updateTask task.id
    { branch := some checkout.branch, worktree := some checkout.worktree
      baseCommit := some checkout.baseCommit })
  recordEvent jobId "task.worktree_created" checkout.payload task.id
  return checkout

/-- The acquisition part of `_run_task_with_slot`. -/
def acquireWorktree (task : TaskRow) (integrationPath : Str) : Coroutine TaskCheckout := do
  let branchKnown ← if task.branch.val ≠ [] then toThread (branchExists task.branch.val)
    else pure false
  if branchKnown then recoverWorktree cfg jobId task integrationPath
  else createWorktree cfg jobId task integrationPath

/-! ## Attempts -/

/-- How an attempt ends. -/
inductive AttemptOutcome where
  /-- `return True`. -/
  | completed
  /-- `continue`, with the context of the retry. -/
  | retry (retryContext : Str)
deriving DecidableEq, Repr

/-- The writes with which a failed attempt ends, up to its event. -/
def failAttempt (taskId attemptId : Text) (returncode : Option Int) (retryContext : Str) :
    Coroutine Unit := do
  perform (.finishAttempt attemptId (lit "failed") returncode (lastChars 4000 retryContext))
  perform (.updateTask taskId
    { state := some (lit TaskState.pending.value)
      lastError := some (lastChars 8000 retryContext) })

/-- The worktree and the branch of a completed task are removed; what goes wrong is
recorded. -/
def cleanupTask (taskId : Text) (checkout : TaskCheckout) : Coroutine Unit :=
  (withLock .repo do
    atomicToThread (removeWorktree checkout.worktree)
    atomicToThread (deleteBranch checkout.branch)).tryCatch fun x =>
      let place := [(lit "branch", .str checkout.branch), (lit "path", .str checkout.worktree)]
      if x.isException then
        recordEvent jobId "task.cleanup_failed"
          ((lit "error", .str (lastChars 4000 x.message)) :: place) taskId
      else do
        recordEvent jobId "task.cleanup_interrupted" place taskId
        .raise x

/-- The end of an attempt whose work has been integrated. -/
def completeTask (taskId attemptId : Text) (checkout : TaskCheckout) (attemptNumber : Int)
    (agentName : Str) (review : ReviewResult) : Coroutine Unit := do
  perform (.finishAttempt attemptId (lit "passed") (some 0)
    (if review.summary = [] then lit "passed gates and review" else review.summary))
  perform (.updateTask taskId
    { state := some (lit TaskState.completed.value), resultSummary := some review.summary
      lastError := some [] })
  recordEvent jobId "task.completed"
    [(lit "attempt", .int attemptNumber), (lit "agent", .str agentName),
      (lit "summary", .str review.summary)] taskId
  if cfg.cleanupWorktrees then cleanupTask jobId taskId checkout else return ()

/-- The retry context of a worker that exits with an error. -/
def workerFailure (result : AgentResult) : Str :=
  lit "Worker exited with " ++ dumpsInt result.returncode ++ lit ".\nSTDERR:\n" ++
    lastChars 5000 result.stderr ++ lit "\nSTDOUT:\n" ++ lastChars 5000 result.stdout

/-- The retry context of a rejected attempt. -/
def reviewRejection (review : ReviewResult) : Str :=
  lit "Reviewer rejected the attempt:\n" ++ joinLines review.findings ++
    (if review.summary = [] then [] else lit "\nSummary: " ++ review.summary)

/-- An attempt, from the review of what the gates have passed. -/
def reviewAndIntegrate (taskId attemptId : Text) (goal : Text) (checkout : TaskCheckout)
    (integrationPath : Str) (attemptNumber : Int) (agentName : Str) (gates : List GateResult) :
    Coroutine AttemptOutcome := do
  perform (.updateTask taskId { state := some (lit TaskState.reviewing.value) })
  let task ← perform (.getTask taskId)
  let review ← reviewTaskResilient cfg jobId task goal checkout.worktree gates attemptNumber
  if review.passed then do
    let task ← perform (.getTask taskId)
    let (integrated, feedback) ← integrateTask cfg jobId task integrationPath
    if integrated then do
      completeTask cfg jobId taskId attemptId checkout attemptNumber agentName review
      return .completed
    else do
      failAttempt taskId attemptId (some 1) feedback
      return .retry feedback
  else do
    let retryContext := reviewRejection review
    failAttempt taskId attemptId (some 0) retryContext
    recordEvent jobId "task.review_rejected"
      [(lit "verdict", .str review.verdict), (lit "findings", jsonStrs review.findings)] taskId
    return .retry retryContext

/-- An attempt, after its agent has ended without an exception. -/
def judgeAttempt (task : TaskRow) (attemptId : Text) (goal : Text) (checkout : TaskCheckout)
    (integrationPath : Str) (attemptNumber : Int) (agentName : Str) (result : AgentResult) :
    Coroutine AttemptOutcome := do
  if result.ok then do
    let _ ← atomicToThread (commitAll checkout.worktree
      (lit "yolo(" ++ task.logicalId.val ++ lit "): " ++ task.title.val))
    let gates ← runGates cfg jobId (some task) checkout.worktree false
    if allOk gates then
      reviewAndIntegrate cfg jobId task.id attemptId goal checkout integrationPath attemptNumber
        agentName gates
    else do
      let gatesText ← liftExn (formatGates gates)
      let retryContext := lit "Repository gates failed:\n" ++ gatesText
      failAttempt task.id attemptId (some 1) retryContext
      recordEvent jobId "task.gates_failed" [(lit "attempt", .int attemptNumber)] task.id
      return .retry retryContext
  else do
    let retryContext := workerFailure result
    failAttempt task.id attemptId (some result.returncode) retryContext
    recordEvent jobId "task.worker_failed"
      [(lit "attempt", .int attemptNumber), (lit "agent", .str agentName),
        (lit "returncode", .int result.returncode)] task.id
    return .retry retryContext

/-- One iteration of the loop over the attempts. -/
def attemptTask (taskId : Text) (goal : Text) (checkout : TaskCheckout) (integrationPath : Str)
    (attemptNumber : Int) (retryContext : Str) : Coroutine AttemptOutcome := do
  let job : JobRow ← perform (.getJob jobId)
  if job.stopRequested then .raise .cancelledError
  else do
    let task : TaskRow ← perform (.getTask taskId)
    let agentName ← chooseWorker cfg task attemptNumber
    let logPath := cfg.logsDir ++ lit "/" ++ jobId.val ++ lit "/" ++ task.logicalId.val ++
      lit "/attempt-" ++ dumpsInt attemptNumber ++ lit "-" ++ agentName ++ lit ".log"
    perform (.updateTask taskId
      { state := some (lit TaskState.running.value), attempts := some attemptNumber
        lastError := some [] })
    let attemptId : Text ← perform (.startAttempt
      { jobId := jobId.val, taskId := taskId.val, number := attemptNumber, agent := agentName
        worktree := checkout.worktree, branch := checkout.branch, logPath })
    recordEvent jobId "task.attempt_started"
      [(lit "attempt", .int attemptNumber), (lit "agent", .str agentName)] taskId
    let outcome : Except Raised AgentResult ← (perform
      (.runAgent agentName (.work goal task retryContext) checkout.worktree logPath)).attempt
    match outcome with
    | .ok result =>
      judgeAttempt cfg jobId task attemptId goal checkout integrationPath attemptNumber agentName
        result
    | .error .cancelledError => do
      perform (.finishAttempt attemptId (lit "cancelled") none (lit "cancelled"))
      .raise .cancelledError
    | .error x => do
      let retryContext := lit "Agent launch failed: " ++ x.message
      perform (.finishAttempt attemptId (lit "failed") none retryContext)
      perform (.updateTask taskId
        { state := some (lit TaskState.pending.value), lastError := some retryContext })
      recordEvent jobId "task.agent_error" [(lit "error", .str x.message)] taskId
      return .retry retryContext

/-- The loop over the attempts: `remaining` of them from `attemptNumber` on. -/
def attemptLoop (taskId : Text) (goal : Text) (checkout : TaskCheckout) (integrationPath : Str) :
    Nat → Int → Str → Coroutine Bool
  | 0, _, _ => return false
  | remaining + 1, attemptNumber, retryContext => do
    match ← attemptTask cfg jobId taskId goal checkout integrationPath attemptNumber
      retryContext with
    | .completed => return true
    | .retry retryContext =>
      attemptLoop taskId goal checkout integrationPath remaining (attemptNumber + 1) retryContext

/-- What follows the loop when no attempt was accepted. -/
def exhaustTask (taskId : Text) (firstAttempt : Int) : Coroutine Unit := do
  let task : TaskRow ← perform (.getTask taskId)
  let lastAttempt := firstAttempt + cfg.maxAttempts - 1
  let error := if task.lastError.val ≠ [] then task.lastError.val
    else lit "exhausted attempt budget " ++ dumpsInt firstAttempt ++ lit "-" ++
      dumpsInt lastAttempt ++ lit " (" ++ decimal cfg.maxAttempts ++ lit " attempts this run)"
  perform (.updateTask taskId
    { state := some (lit TaskState.failed.value), lastError := some error })
  recordEvent jobId "task.failed" [(lit "error", .str error)] taskId

/-- `_run_task_with_slot`. -/
def runTaskWithSlot (taskId : Text) (integrationPath : Str) : Coroutine Bool := do
  let task : TaskRow ← perform (.getTask taskId)
  let job : JobRow ← perform (.getJob jobId)
  let checkout ← acquireWorktree cfg jobId task integrationPath
  let completed ← attemptLoop cfg jobId taskId job.goal checkout integrationPath cfg.maxAttempts
    (task.attempts + 1) task.lastError.val
  if completed then return true
  else do
    exhaustTask cfg jobId taskId (task.attempts + 1)
    return false

/-- `_run_task`. -/
def runTask (taskId : Text) (integrationPath : Str) : Coroutine Bool :=
  withLock .workerSlot (runTaskWithSlot cfg jobId taskId integrationPath)

end TaskExecution

end OmarchyYolo
