import OmarchyYolo.Provenance
import OmarchyYolo.TaskExecution

/-!
# OmarchyYolo.JobExecution — the life of a job's runner

`run_job` recovers the integration worktree, plans, waits for the task graph,
audits the candidate, journals its acceptance and publishes it; or takes up an
acceptance that a crash has left. Whatever ends it early, it settles the job.

* `JobEffect` — the calls of a runner beside those of its tasks;
* `reconcileFastForwardSource`, `resumeAcceptedJob`, `completeAcceptedJob` — the acceptance;
* `planJob`, `finalize`, `cleanupCompleted` — the other stages;
* `runJob` — the runner; `submitPreflight` — what `submit` asks the repository.
-/

namespace OmarchyYolo

open Py PyJson Calls

/-! ## Calls -/

/-- The commands of Git in the source checkout. -/
inductive SourceCommand where
  /-- `rev-parse --verify refs/heads/...`. -/
  | resolveBranch (branch : Str)
  /-- `symbolic-ref --short HEAD`, or `HEAD` where it is detached. -/
  | branch
  /-- `status --porcelain`: whether it prints nothing. -/
  | isClean
  /-- `rev-parse HEAD`. -/
  | head
  /-- `merge-base --is-ancestor`. -/
  | isAncestor (ancestor descendant : Str)
  /-- `merge --ff-only`. -/
  | fastForward (commit : Str)
deriving DecidableEq, Repr

inductive JobEffect where
  /-- A call that tasks make too. -/
  | task (e : Effect)
  | updateJob (jobId : Text) (fields : JobFields)
  | listTasks (jobId : Text)
  | addTasks (jobId : Text) (planned : List PlannedTask)
  | settleInflight (jobId : Text) (taskState : TaskState) (attemptState summary : Str)
  | prepareAcceptedJob (jobId : Text) (args : Acceptance)
  | markApplyStarted (jobId : Text) (acceptedCommit : Str)
  | stagedDossier (jobId : Text)
  | publishCompletedJob (jobId : Text) (args : Publication)
  /-- `build_dossier`: the text and its digest. -/
  | buildDossier (jobId : Text) (finalCommit finalSummary sourceApplyIntent : Str)
  /-- `verify_dossier`. -/
  | verifyDossier (content sha256 : Str)
  /-- `planner.plan`: the summary and the tasks. -/
  | plan (goal : Text) (cwd agentName logPath : Str)
  /-- `_hierarchical_final_review`. -/
  | finalReview (cwd : Str) (gates : List GateResult) (reviewerName : Str) (cycle : Nat)
  /-- `_execute_dag`, beside its coroutines. -/
  | executeDag (jobId : Text) (integrationPath : Str)
  /-- `_cancel_active`. -/
  | cancelActive
  | source (command : SourceCommand)
  /-- `path.exists()`. -/
  | exists (path : Str)
  /-- `shutil.rmtree(path, ignore_errors=True)`. -/
  | removeTree (path : Str)
  /-- `notify`. -/
  | notify (title body : Str)
  /-- `GitRepo.discover`: the root of the repository. -/
  | discover (path : Str)

def SourceCommand.Reply : SourceCommand → Type
  | resolveBranch _ | branch | head => Str
  | isClean | isAncestor _ _ => Bool
  | fastForward _ => Unit

def JobEffect.Reply : JobEffect → Type
  | task e => e.Reply
  | listTasks _ => List TaskRow
  | stagedDossier _ => Option DossierRow
  | buildDossier _ _ _ _ => Str × Str
  | verifyDossier _ _ | .exists _ => Bool
  | plan _ _ _ _ => Str × List PlannedTask
  | finalReview _ _ _ _ => ReviewResult
  | source command => command.Reply
  | discover _ => Str
  | _ => Unit

/-- The coroutine of a runner. -/
abbrev JobCoroutine := Program JobEffect JobEffect.Reply Raised

section Operations

variable {α : Type}

def performJob (e : JobEffect) : JobCoroutine e.Reply := Program.perform e

/-- A coroutine of a task, or a part of one. -/
def shared (p : Coroutine α) : JobCoroutine α := p.embed JobEffect.task

def sourceCommand (command : SourceCommand) : JobCoroutine command.Reply :=
  performJob (JobEffect.source command)

/-- `async with lock`. -/
def withJobLock (lock : Lock) (p : JobCoroutine α) : JobCoroutine α := do
  performJob (.task (.acquire lock))
  let outcome ← p.attempt
  performJob (.task (.release lock))
  .ofExcept outcome

/-- `finish_before_cancel`, and `atomic_to_thread` with it. -/
def finishJobBeforeCancel (p : JobCoroutine α) : JobCoroutine α := do
  let outcome ← p.attempt
  performJob (.task .suspend)
  .ofExcept outcome

/-- An event of the job. -/
def recordJobEvent (jobId : Text) (kind : String) (payload : List (Str × Json NonFinite) := []) :
    JobCoroutine Unit := shared (recordEvent jobId kind payload)

end Operations

/-- The configuration of a runner. -/
structure JobConfig extends EngineConfig where
  plannerAgent : Str
  requireCleanRepo : Bool

/-- A configuration of runners. -/
def smallRunner : JobConfig where
  toEngineConfig := smallEngine
  plannerAgent := lit "claude"
  requireCleanRepo := true

/-- `Path(path).name`. -/
def pathName (path : Str) : Str :=
  let name := (path.reverse.dropWhile fun c => c == .scalar '/').takeWhile fun c => c != .scalar '/'
  name.reverse

/-! ## The source checkout -/

/-- `resolve_branch_commit`. -/
def resolveBranchCommit (branch : Str) : JobCoroutine Str := do
  shared (topologyCommand (.validateBranchName branch))
  let commit : Str ← sourceCommand (.resolveBranch branch)
  if commit = [] then shared (raiseGit (lit "cannot resolve branch commit: " ++ branch))
  else return commit

/-- `reconcile_fast_forward_source`, from the source's own commit on. -/
def reconcileFromHead (baseCommit acceptedCommit : Str) : JobCoroutine (Str × Str) := do
  let currentHead : Str ← sourceCommand .head
  if currentHead = acceptedCommit then
    return (lit "applied", lit "source already at accepted commit")
  else do
    let contained : Bool ← sourceCommand (.isAncestor acceptedCommit currentHead)
    if contained then return (lit "applied", lit "source already contains accepted commit")
    else if currentHead ≠ baseCommit then
      return (lit "skipped", lit "source branch moved since job creation")
    else do
      sourceCommand (.fastForward acceptedCommit)
      let finalHead : Str ← sourceCommand .head
      if finalHead ≠ acceptedCommit then
        shared (raiseGit (lit "source fast-forward completed at unexpected commit: expected " ++
          acceptedCommit ++ lit ", got " ++ finalHead))
      else return (lit "applied", lit "source fast-forwarded to accepted commit")

/-- `reconcile_fast_forward_source`: the outcome and the reason. -/
def reconcileFastForwardSource (integrationBranch baseBranch baseCommit acceptedCommit : Str) :
    JobCoroutine (Str × Str) := do
  let integrationCommit ← resolveBranchCommit integrationBranch
  if integrationCommit ≠ acceptedCommit then
    shared (raiseGit (lit "accepted integration branch moved after acceptance: expected " ++
      acceptedCommit ++ lit ", got " ++ integrationCommit))
  else if baseBranch = lit "HEAD" then return (lit "skipped", lit "source checkout was detached")
  else do
    let currentBranch : Str ← sourceCommand .branch
    if currentBranch ≠ baseBranch then
      return (lit "skipped", lit "source worktree is now on " ++ currentBranch ++ lit ", not " ++
        baseBranch)
    else do
      let clean : Bool ← sourceCommand .isClean
      if clean then reconcileFromHead baseCommit acceptedCommit
      else return (lit "skipped", lit "source worktree is dirty")

/-! ## Acceptance -/

def dossierSchemaVersion : Int := 1

/-- The dossier of an accepted job, checked. -/
def verifiedDossier (jobId : Text) : JobCoroutine DossierRow := do
  let dossier? : Option DossierRow ← performJob (.stagedDossier jobId)
  match dossier? with
  | none => .raise (.yoloError (lit "accepted job is missing its unpublished staged dossier"))
  | some dossier =>
    if dossier.published then
      .raise (.yoloError (lit "accepted job is missing its unpublished staged dossier"))
    else if dossier.schemaVersion ≠ dossierSchemaVersion then
      .raise (.yoloError (lit "accepted job staged dossier has an unsupported schema version: " ++
        dumpsInt dossier.schemaVersion))
    else do
      let verified : Bool ← performJob (.verifyDossier dossier.content.val dossier.sha256.val)
      if verified then return dossier
      else .raise (.yoloError (lit "accepted job staged dossier failed SHA-256 verification"))

/-- The row of an accepted job whose source is to be changed, in the phase for that. -/
def startApplying (accepted : JobRow) : JobCoroutine JobRow :=
  if accepted.acceptancePhase = .accepted then do
    performJob (.markApplyStarted accepted.id accepted.acceptedCommit.val)
    shared (perform (.getJob accepted.id))
  else return accepted

/-- The change of the source that the acceptance intends: the row, the outcome and the reason. -/
def applySource (accepted : JobRow) : JobCoroutine (JobRow × Str × Str) :=
  match accepted.sourceApplyIntent with
  | .notRequested => return (accepted, lit "not-requested", [])
  | .requested => do
    let applying ← startApplying accepted
    let (outcome, reason) ← withJobLock .repo <| finishJobBeforeCancel <|
      reconcileFastForwardSource applying.integrationBranch.val applying.baseBranch.val
        applying.baseCommit.val applying.acceptedCommit.val
    return (applying, outcome, reason)

/-- `_resume_accepted_job`. -/
def resumeAcceptedJob (accepted : JobRow) : JobCoroutine Unit :=
  if accepted.acceptancePhase ∉ [AcceptancePhase.accepted, .applying] then
    .raise (.yoloError (lit "cannot reconcile acceptance from phase " ++
      lit accepted.acceptancePhase.value))
  else if accepted.acceptedCommit.val = [] then
    .raise (.yoloError (lit "accepted job is missing its durable accepted commit"))
  else do
    let dossier ← verifiedDossier accepted.id
    let (accepted, outcome, reason) ← applySource accepted
    performJob (.publishCompletedJob accepted.id
      { dossierSchemaVersion := dossier.schemaVersion, dossierSha256 := dossier.sha256.val
        finalSummary := accepted.finalSummary.val, sourceApplyOutcome := outcome
        sourceApplyReason := reason })
    performJob (.notify (lit "YOLO completed")
      (pathName accepted.repo.val ++ lit ": " ++ accepted.integrationBranch.val))

/-- The intent of a job. -/
def applyIntent (job : JobRow) : Str :=
  if job.autoApply then lit "requested" else lit "not-requested"

/-- `_complete_accepted_job`. -/
def completeAcceptedJob (jobId : Text) (finalSummary : Str) : JobCoroutine Unit := do
  let accepted : JobRow ← shared (perform (.getJob jobId))
  let finalCommit ← shared (toThread (head accepted.integrationPath.val))
  let intent := applyIntent accepted
  let (content, sha256) ← performJob (.buildDossier accepted.id finalCommit finalSummary intent)
  performJob (.prepareAcceptedJob accepted.id
    { acceptedCommit := finalCommit, finalSummary := finalSummary, sourceApplyIntent := intent
      dossier := { schemaVersion := dossierSchemaVersion, sha256 := sha256, content := content } })
  let accepted : JobRow ← shared (perform (.getJob accepted.id))
  resumeAcceptedJob accepted

section Stages

variable (cfg : JobConfig) (jobId : Text)

/-! ## Planning -/

/-- The plan where there is no other: one task. -/
def fallbackPlan (goal : Text) : List PlannedTask :=
  [{ logicalId := lit "T1", title := lit "Implement the requested goal", description := goal.val
     acceptance := [lit "The requested goal is implemented and repository checks pass."]
     risk := lit "high" }]

/-- The plan of the planner, or the fallback. -/
def planTasks (job : JobRow) (integrationPath plannerName : Str) :
    JobCoroutine (List PlannedTask) :=
  Program.tryCatch
    (do
      let logPath := cfg.logsDir ++ lit "/" ++ jobId.val ++ lit "/planner.log"
      let planned : Str × List PlannedTask ←
        performJob (.plan job.goal integrationPath plannerName logPath)
      recordJobEvent jobId "planner.completed"
        [(lit "agent", .str plannerName), (lit "summary", .str planned.1),
          (lit "tasks", .int planned.2.length)]
      return planned.2)
    (fun x =>
      if x.isException then do
        recordJobEvent jobId "planner.fallback" [(lit "error", .str x.message)]
        return fallbackPlan job.goal
      else .raise x)

/-- `_plan_job`. -/
def planJob (integrationPath : Str) : JobCoroutine Unit := do
  let job : JobRow ← shared (perform (.getJob jobId))
  performJob (.updateJob jobId { state := some (lit JobState.planning.value) })
  recordJobEvent jobId "planner.started"
  let plannerName : Str ← shared (perform (.chooseRole cfg.plannerAgent cfg.workerAgents .planner))
  let tasks ← planTasks cfg jobId job integrationPath plannerName
  performJob (.addTasks jobId tasks)

/-! ## Finalization -/

/-- An agent repairs the issue, or the finalization ends. -/
def repairOrRaise (integrationPath issue : Str) (failure : String) : JobCoroutine Unit := do
  let repaired ← shared (repairIntegration cfg.toEngineConfig jobId integrationPath issue)
  if repaired then return () else .raise (.yoloError (lit failure))

def auditPayload (cycle : Nat) (review : ReviewResult) : List (Str × Json NonFinite) :=
  [(lit "cycle", .int cycle), (lit "verdict", .str review.verdict),
    (lit "summary", .str review.summary), (lit "findings", jsonStrs review.findings)]

/-- `"; ".join(findings) or summary`. -/
def auditFailure (review : ReviewResult) : Str :=
  let findings := List.intercalate (lit "; ") review.findings
  lit "final audit did not pass: " ++ if findings = [] then review.summary else findings

/-- What the repair of an audit is about. -/
def auditIssue (review : ReviewResult) : Str :=
  lit "Final audit findings:\n" ++ joinLines review.findings ++
    if review.summary = [] then [] else lit "\nSummary: " ++ review.summary

/-- The loop of `_finalize`, over the cycles that are left. -/
def finalizeLoop (integrationPath reviewerName : Str) : List Nat → JobCoroutine Str
  | [] => .raise (.yoloError (lit "finalization exhausted without a passing audit"))
  | cycle :: cycles => do
    let gates ← shared (runGates cfg.toEngineConfig jobId none integrationPath true
      (lit "cycle-" ++ decimal cycle))
    if allOk gates then do
      let review : ReviewResult ←
        performJob (.finalReview integrationPath gates reviewerName cycle)
      recordJobEvent jobId "final.reviewed" (auditPayload cycle review)
      if review.passed then
        return if review.summary = [] then lit "All tasks, gates, and final review passed."
          else review.summary
      else if cfg.maxFinalCycles ≤ cycle then .raise (.yoloError (auditFailure review))
      else do
        repairOrRaise cfg jobId integrationPath (auditIssue review)
          "final audit requested repairs but no integration agent could complete them"
        finalizeLoop integrationPath reviewerName cycles
    else do
      let gatesText ← shared (liftExn (formatGates gates))
      let issue := lit "Final repository gates failed:\n" ++ gatesText
      if cfg.maxFinalCycles ≤ cycle then .raise (.yoloError issue)
      else do
        repairOrRaise cfg jobId integrationPath issue
          "final gates failed and no integration agent could repair them"
        finalizeLoop integrationPath reviewerName cycles

/-- `_finalize`. -/
def finalize (integrationPath : Str) : JobCoroutine Str := do
  let reviewerName : Str ←
    shared (perform (.chooseRole cfg.reviewerAgent cfg.workerAgents .reviewer))
  finalizeLoop cfg jobId integrationPath reviewerName (List.range (cfg.maxFinalCycles + 1))

/-! ## Cleanup -/

/-- A worktree is removed where there is one. -/
def removePresent (path : Str) : JobCoroutine Unit := do
  let present ← shared (pathExists path)
  if present then finishJobBeforeCancel (shared (removeWorktree path)) else return ()

/-- What is recorded, where something is. -/
def whenRecorded (recorded : Str) (p : Str → JobCoroutine Unit) : JobCoroutine Unit :=
  if recorded = [] then return () else p recorded

/-- The worktrees and the branches of the tasks. -/
def cleanupTasks : List TaskRow → JobCoroutine Unit
  | [] => return ()
  | task :: tasks => do
    whenRecorded task.worktree.val removePresent
    whenRecorded task.branch.val fun branch => finishJobBeforeCancel (shared (deleteBranch branch))
    cleanupTasks tasks

/-- `_cleanup_completed`. -/
def cleanupCompleted (integrationPath : Str) : JobCoroutine Unit :=
  withJobLock .repo do
    let tasks : List TaskRow ← performJob (.listTasks jobId)
    cleanupTasks tasks
    removePresent integrationPath
    let root := cfg.worktreesDir ++ lit "/" ++ jobId.val
    let present : Bool ← performJob (.exists root)
    if present then finishJobBeforeCancel (performJob (.removeTree root)) else return ()

/-- The cleanup, where it is configured; what goes wrong is recorded. -/
def cleanupJob (integrationPath : Str) : JobCoroutine Unit :=
  if cfg.cleanupWorktrees then
    (cleanupCompleted cfg jobId integrationPath).tryCatch fun x =>
      if x.isException then
        recordJobEvent jobId "job.cleanup_failed"
          [(lit "error", .str (lastChars 4000 x.message))]
      else do
        recordJobEvent jobId "job.cleanup_interrupted"
        .raise x
  else return ()

/-! ## The runner -/

/-- A merge that a crash has left is given up. -/
def recoverMerge (integrationPath : Str) : Coroutine Unit := do
  let merging ← toThread (mergeInProgress integrationPath)
  if merging then do
    atomicToThread (abortMerge integrationPath)
    recordEvent jobId "integration.recovered_merge_abort" []
  else return ()

/-- What a crash has left uncommitted is dropped. -/
def recoverDirty (integrationPath : Str) : Coroutine Unit := do
  let clean ← toThread (isClean integrationPath)
  if clean then return ()
  else do
    let commit ← toThread (head integrationPath)
    atomicToThread (resetHard integrationPath commit)
    recordEvent jobId "integration.recovered_dirty_reset" [(lit "head", .str commit)]

/-- The integration worktree of a job, made or recovered. -/
def recoverIntegration (job : JobRow) (integrationPath : Str) : Coroutine Unit :=
  withLock .repo do
    atomicToThread (ensureExistingBranchWorktree integrationPath job.integrationBranch.val
      job.baseCommit.val)
    recoverMerge jobId integrationPath
    recoverDirty jobId integrationPath

/-- A job without tasks is planned. -/
def planUnplanned (integrationPath : Str) : JobCoroutine Unit := do
  let tasks : List TaskRow ← performJob (.listTasks jobId)
  if tasks = [] then withJobLock .workerSlot (planJob cfg jobId integrationPath) else return ()

/-- The rest of a runner, from the end of the task graph on. -/
def concludeJob (integrationPath : Str) : JobCoroutine Unit := do
  let current : JobRow ← shared (perform (.getJob jobId))
  if current.stopRequested then .raise .cancelledError
  else do
    let finalSummary ← withJobLock .workerSlot (finalize cfg jobId integrationPath)
    let job : JobRow ← shared (perform (.getJob jobId))
    finishJobBeforeCancel (completeAcceptedJob job.id finalSummary)
    cleanupJob cfg jobId integrationPath

/-- A run that takes up an acceptance which has been journaled. -/
def resumeRun (job : JobRow) (integrationPath : Str) : JobCoroutine Unit := do
  finishJobBeforeCancel (resumeAcceptedJob job)
  let completed : JobRow ← shared (perform (.getJob jobId))
  cleanupJob cfg jobId
    (if completed.integrationPath.val = [] then integrationPath else completed.integrationPath.val)

/-- A run from the integration worktree on. -/
def candidateRun (job : JobRow) (integrationPath : Str) : JobCoroutine Unit := do
  shared (recoverIntegration jobId job integrationPath)
  performJob (.updateJob jobId { integrationPath := some integrationPath })
  recordJobEvent jobId "integration.ready"
    [(lit "path", .str integrationPath), (lit "branch", .str job.integrationBranch.val)]
  planUnplanned cfg jobId integrationPath
  performJob (.updateJob jobId { state := some (lit JobState.running.value) })
  recordJobEvent jobId "job.running"
  performJob (.executeDag jobId integrationPath)
  concludeJob cfg jobId integrationPath

/-- The phases of an acceptance that is journaled and not published. -/
def journaledPhases : List AcceptancePhase := [.accepted, .applying]

/-- What `run_job` does under its handlers. -/
def runBody (job : JobRow) (integrationPath : Str) : JobCoroutine Unit :=
  if job.acceptancePhase ∈ journaledPhases then resumeRun cfg jobId job integrationPath
  else candidateRun cfg jobId job integrationPath

/-- The writes that settle a job which has ended early. -/
def settleJob (taskState : TaskState) (attemptState summary : Str) (fields : JobFields) :
    JobCoroutine Unit := do
  performJob (.settleInflight jobId taskState attemptState summary)
  performJob (.updateJob jobId fields)

/-- `except asyncio.CancelledError`, up to its `raise`. -/
def settleCancelled : JobCoroutine Unit := do
  performJob .cancelActive
  let current : JobRow ← shared (perform (.getJob jobId))
  if current.state = .completed then return ()
  else if current.acceptancePhase ∈ journaledPhases then
    recordJobEvent jobId "job.acceptance_recovery_required"
      [(lit "phase", .str (lit current.acceptancePhase.value)),
        (lit "reason", .str (lit "orchestrator cancelled"))]
  else if current.stopRequested then do
    settleJob jobId .stopped (lit "cancelled") (lit "stopped by user request")
      { state := some (lit JobState.stopped.value) }
    recordJobEvent jobId "job.stopped"
    performJob (.notify (lit "YOLO stopped") (pathName current.repo.val))
  else do
    settleJob jobId .pending (lit "cancelled") (lit "orchestrator interrupted")
      { state := some (lit JobState.queued.value) }
    recordJobEvent jobId "job.interrupted"

/-- `except Exception`, up to its `raise`. -/
def settleFailed (job : JobRow) (message : Str) : JobCoroutine Unit := do
  performJob .cancelActive
  let current : JobRow ← shared (perform (.getJob jobId))
  if current.acceptancePhase ∈ journaledPhases then do
    recordJobEvent jobId "job.acceptance_recovery_required"
      [(lit "phase", .str (lit current.acceptancePhase.value)),
        (lit "accepted_commit", .str current.acceptedCommit.val),
        (lit "error", .str (lastChars 4000 message))]
    performJob (.notify (lit "YOLO acceptance recovery required")
      (pathName current.repo.val ++ lit ": " ++ message.take 180))
  else do
    settleJob jobId .failed (lit "failed") (lit "orchestrator failure: " ++ message)
      { state := some (lit JobState.failed.value), error := some message }
    recordJobEvent jobId "job.failed" [(lit "error", .str message)]
    performJob (.notify (lit "YOLO failed") (pathName job.repo.val ++ lit ": " ++ message.take 180))

/-- `run_job`. -/
def runJob : JobCoroutine Unit := do
  let job : JobRow ← shared (perform (.getJob jobId))
  let integrationPath := cfg.worktreesDir ++ lit "/" ++ jobId.val ++ lit "/integration"
  -- the directory is made before the handlers are there
  shared (topologyCommand (.ensureParent integrationPath))
  (runBody cfg jobId job integrationPath).tryCatch fun x => do
    if x.isException then settleFailed jobId job x.message else settleCancelled jobId
    .raise x

end Stages

/-! ## Submission -/

/-- `preflight`: the branch and the commit of the source. -/
def preflight (requireClean : Bool) : JobCoroutine (Str × Str) := do
  let clean : Bool ← if requireClean then sourceCommand .isClean else pure true
  if clean then do
    let branch : Str ← sourceCommand .branch
    let commit : Str ← sourceCommand .head
    return (branch, commit)
  else
    shared (raiseGit (lit "repository has uncommitted changes; commit/stash them or disable " ++
      lit "require_clean_repo"))

/-- What `_submit` asks the repository of a new job: the root, the branch and the commit. -/
def submitPreflight (requireClean : Bool) (path : Str) : JobCoroutine (Str × Str × Str) := do
  let root : Str ← performJob (.discover path)
  let (branch, commit) ← withJobLock .repo (finishJobBeforeCancel (preflight requireClean))
  return (root, branch, commit)

end OmarchyYolo
