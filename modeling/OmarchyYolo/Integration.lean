import OmarchyYolo.GitRepo
import OmarchyYolo.Reviewer

/-!
# OmarchyYolo.Integration — merging a task into the job's candidate

`_integrate_task` merges the branch of a task in the integration worktree, lets
agents resolve a conflict, runs the gates on the result, lets an agent repair
what they find, and undoes the merge where one of these fails.

* `runGates`, `repairIntegration`, `resolveMergeConflict` — the stages;
* `rollback`, `integrateTask` — the transaction.
-/

namespace OmarchyYolo

open Py PyJson Calls

section Integration

variable (cfg : EngineConfig) (jobId : Text)

def jsonStrs (strings : List Str) : Json NonFinite := .arr (.ofList (strings.map .str))

/-- `all(result.ok for result in results)`. -/
def allOk (results : List GateResult) : Bool := results.all GateResult.ok

/-- `{"command": ..., "returncode": ..., "timed_out": ...}`; durations are left out. -/
def gatePayload (result : GateResult) : Json NonFinite :=
  .obj (.ofList [(lit "command", .str result.command), (lit "returncode", .int result.returncode),
    (lit "timed_out", .bool result.timedOut)])

/-- `_run_gates`. -/
def runGates (task : Option TaskRow) (cwd : Str) (final : Bool) (suffix : Str := lit "worker") :
    Coroutine (List GateResult) := do
  let label := if final then lit "final" else (task.map (·.logicalId.val)).getD (lit "job")
  let logPath := cfg.logsDir ++ lit "/" ++ jobId.val ++ lit "/" ++ label ++ lit "/gates-" ++
    suffix ++ lit ".log"
  let results ← perform (.runGates final cwd logPath)
  recordEvent jobId "gates.completed"
    [(lit "scope", .str label), (lit "commands", jsonStrs (results.map GateResult.command)),
      (lit "ok", .bool (allOk results)),
      (lit "results", .arr (.ofList (results.map gatePayload)))] (task.map TaskRow.id)
  return results

/-! ## Repair -/

/-- The handler of the loop: the error is recorded, and the loop goes on. -/
def recordRepairError (taskId : Option Text) (x : Raised) : Coroutine Unit :=
  recordEvent jobId "integration.repair_error" [(lit "error", .str x.message)] taskId

/-- What one agent does about the issue. -/
def repairWith (integrationPath issue : Str) (taskId : Option Text) (cycle : Nat)
    (agentName : Str) : Coroutine Bool := do
  let job ← perform (.getJob jobId)
  let logPath := cfg.logsDir ++ lit "/" ++ jobId.val ++ lit "/integration/repair-" ++
    decimal cycle ++ lit "-" ++ agentName ++ lit ".log"
  let result ← perform (.runAgent agentName (.repair job.goal issue) integrationPath logPath)
  if AgentResult.ok result then do
    let _ ← atomicToThread (commitAll integrationPath (lit "yolo: integration repair"))
    recordEvent jobId "integration.repaired" [(lit "agent", .str agentName)] taskId
    return true
  else return false

/-- The loop over the candidates, after `actualSeen`. -/
def repairLoop (integrationPath issue : Str) (taskId : Option Text) :
    List Str → Nat → List Str → Coroutine Bool
  | [], _, _ => return false
  | candidate :: candidates, cycle, actualSeen =>
    if 3 ≤ actualSeen.length then return false
    else do
      let choice ← exceptWhen Raised.isException
        (do
          let name : Str ← perform (.chooseRole candidate cfg.workerAgents .integrator)
          return some name)
        (fun x => do
          recordRepairError jobId taskId x
          return none)
      match (choice : Option Str) with
      | none => repairLoop integrationPath issue taskId candidates (cycle + 1) actualSeen
      | some agentName =>
        if agentName ∈ actualSeen then
          repairLoop integrationPath issue taskId candidates (cycle + 1) actualSeen
        else do
          let repaired ← exceptWhen Raised.isException
            (repairWith cfg jobId integrationPath issue taskId cycle agentName)
            (fun x => do
              recordRepairError jobId taskId x
              return false)
          if repaired then return true
          else
            let seen := agentName :: actualSeen
            repairLoop integrationPath issue taskId candidates (cycle + 1) seen

/-- `_repair_integration`. -/
def repairIntegration (integrationPath issue : Str) (taskId : Option Text := none) :
    Coroutine Bool :=
  repairLoop cfg jobId integrationPath issue taskId (cfg.integratorAgent :: cfg.workerAgents) 1 []

/-! ## Conflicts -/

/-- `finish_merge` in a `try` that passes over its `GitError`. -/
def tryFinishMerge (integrationPath : Str) : Coroutine Bool :=
  exceptWhen Raised.isGitError
    (do
      atomicToThread (finishMerge integrationPath)
      return true)
    (fun _ => return false)

/-- `finish_merge` after an agent, and whether nothing is unresolved. -/
def tryFinishResolved (task : TaskRow) (integrationPath agentName : Str) : Coroutine Bool :=
  exceptWhen Raised.isGitError
    (do
      atomicToThread (finishMerge integrationPath)
      let unresolved ← toThread (unresolvedFiles integrationPath)
      if unresolved = [] then do
        recordEvent jobId "integration.conflict_resolved" [(lit "agent", .str agentName)] task.id
        return true
      else return false)
    (fun _ => return false)

/-- The loop of `_resolve_merge_conflict`. -/
def resolveLoop (task : TaskRow) (integrationPath originalError : Str) :
    List Nat → Coroutine Bool
  | [] => return false
  | cycle :: cycles => do
    let unresolved ← toThread (unresolvedFiles integrationPath)
    let finished ← if unresolved = [] then tryFinishMerge integrationPath else pure false
    if finished then return true
    else do
      let agentName : Str ← perform (.chooseRole cfg.integratorAgent cfg.workerAgents .integrator)
      let logPath := cfg.logsDir ++ lit "/" ++ jobId.val ++ lit "/" ++ task.logicalId.val ++
        lit "/merge-resolve-" ++ decimal cycle ++ lit "-" ++ agentName ++ lit ".log"
      let job ← perform (.getJob jobId)
      let result ← perform
        (.runAgent agentName (.resolve job.goal task originalError unresolved) integrationPath
          logPath)
      let resolved ← if AgentResult.ok result then
          tryFinishResolved jobId task integrationPath agentName
        else pure false
      if resolved then return true
      else resolveLoop task integrationPath originalError cycles

/-- `_resolve_merge_conflict`. -/
def resolveMergeConflict (task : TaskRow) (integrationPath originalError : Str) :
    Coroutine Bool :=
  resolveLoop cfg jobId task integrationPath originalError [1, 2]

/-! ## The transaction -/

/-- `rollback`; it runs in a coroutine of its own, which nobody cancels. -/
def rollback (integrationPath preMerge : Str) : Coroutine Unit := do
  exceptWhen Raised.isException (abortMerge integrationPath) fun _ => return ()
  resetHard integrationPath preMerge

/-- The merge, or the resolution of its conflict. -/
def mergeOrResolve (task : TaskRow) (integrationPath : Str) : Coroutine Bool := do
  let outcome ← (atomicToThread (merge integrationPath task.branch.val)).attempt
  match outcome with
  | .ok () => return true
  | .error (.mergeConflict message) => do
    recordEvent jobId "integration.conflict" [(lit "error", .str message)] task.id
    resolveMergeConflict cfg jobId task integrationPath message
  | .error x => .raise x

/-- The gates on the merged candidate, and the repair of what they find. -/
def verifyIntegration (task : TaskRow) (integrationPath preMerge : Str) :
    Coroutine (Bool × Str) := do
  let gates ← runGates cfg jobId (some task) integrationPath false (lit "integration")
  if allOk gates then return (true, [])
  else do
    let gatesText ← liftExn (formatGates gates)
    let issue := lit "Post-merge integration gates failed:\n" ++ gatesText
    let repaired ← repairIntegration cfg jobId integrationPath issue task.id
    let verified ← if repaired then do
        let gates ← runGates cfg jobId (some task) integrationPath false
          (lit "integration-repair")
        pure (allOk gates)
      else pure false
    if verified then return (true, [])
    else do
      atomicToThread (resetHard integrationPath preMerge)
      recordEvent jobId "integration.rolled_back" [(lit "task", .str task.logicalId.val)] task.id
      return (false, issue)

/-- What `_integrate_task` does under its handler. -/
def integrateBody (task : TaskRow) (integrationPath preMerge : Str) : Coroutine (Bool × Str) := do
  if ← mergeOrResolve cfg jobId task integrationPath then do
    let (integrated, issue) ← verifyIntegration cfg jobId task integrationPath preMerge
    if integrated then do
      let commit ← toThread (head integrationPath)
      recordEvent jobId "integration.completed"
        [(lit "task", .str task.logicalId.val), (lit "head", .str commit)] task.id
      return (true, [])
    else return (false, issue)
  else do
    atomicToThread (abortMerge integrationPath)
    return (false, lit "Integration merge conflict could not be resolved autonomously.")

/-- `_integrate_task`. -/
def integrateTask (task : TaskRow) (integrationPath : Str) : Coroutine (Bool × Str) :=
  withLock .merge <| withLock .repo do
    perform (.updateTask task.id { state := some (lit TaskState.integrating.value) })
    let preMerge ← toThread (head integrationPath)
    (integrateBody cfg jobId task integrationPath preMerge).tryCatch fun x => do
      finishBeforeCancel (rollback integrationPath preMerge)
      .raise x

end Integration

end OmarchyYolo
