import OmarchyYolo.JobExecution
import OmarchyYolo.Lib.LockOrder
import OmarchyYolo.QuietCalls

/-!
# OmarchyYolo.LockOrder — slots, merge locks and repository locks

The coroutines of all jobs share the worker slots of one coordinator and its
locks of repositories; those of one job share a merge lock. Each of them takes
a slot before the merge lock and the merge lock before that of a repository, so
no set of them can wait for each other.

* `Resource`, `lockUse` — what the calls of a coroutine take and give back;
* `Launched` — the coroutines: runners of jobs, those of their tasks, submissions;
* `runTask_ordered`, `runJob_ordered`, `submitPreflight_ordered` — they keep to the order;
* `no_lock_deadlock` — what follows for any number of them.
-/

namespace OmarchyYolo

open Py PyJson Calls

/-! ## Resources -/

/-- What coroutines can wait for. -/
inductive Resource where
  | slot
  /-- The merge lock of an orchestrator. -/
  | merge (orchestrator : Nat)
  /-- The lock of a repository, by its key. -/
  | repo (key : Str)
deriving DecidableEq, Repr

namespace Resource

/-- The order in which coroutines take them. -/
def rank : Resource → Nat
  | slot => 0
  | merge _ => 1
  | repo _ => 2

/-- How many can have it. -/
def capacity (maxWorkers : Nat) : Resource → Nat
  | slot => maxWorkers
  | _ => 1

theorem rank_lt (r : Resource) : r.rank < 3 := by
  cases r with
  | slot => exact Nat.zero_lt_succ 2
  | merge orchestrator => exact Nat.lt_of_sub_eq_succ rfl
  | repo key => exact Nat.lt_of_sub_eq_succ rfl

theorem capacity_pos {maxWorkers : Nat} (h : 1 ≤ maxWorkers) (r : Resource) :
    0 < r.capacity maxWorkers := by
  cases r with
  | slot => exact h
  | merge orchestrator => exact Nat.one_pos
  | repo key => exact Nat.one_pos

end Resource

section Order

variable (orchestrator : Nat) (key : Str)

/-- The lock, as the coroutines of an orchestrator mean it. -/
def Lock.resource : Lock → Resource
  | .merge => .merge orchestrator
  | .repo => .repo key
  | .workerSlot => .slot

def taskLockUse : Effect → LockUse Resource
  | .acquire lock => .acquire (lock.resource orchestrator key)
  | .release lock => .release (lock.resource orchestrator key)
  | _ => .none

def lockUse : JobEffect → LockUse Resource
  | .task e => taskLockUse orchestrator key e
  | _ => .none

/-- A coroutine of a task keeps to the order, and gives back what it takes. -/
abbrev TaskOrdered {α : Type} (p : Coroutine α) (held : List Resource) : Prop :=
  Ordered (taskLockUse orchestrator key) Resource.rank p held

/-- So does one of a runner. -/
abbrev JobOrdered {α : Type} (p : JobCoroutine α) (held : List Resource) : Prop :=
  Ordered (lockUse orchestrator key) Resource.rank p held

end Order

/-! ## Tasks -/

section Tasks

variable {orchestrator : Nat} {key : Str} {held : List Resource} {α : Type} {cfg : EngineConfig}
  {jobId taskId attemptId : Text} {integrationPath : Str} {task : TaskRow}
  {checkout : TaskCheckout} {attemptNumber : Int} {agentName : Str}

theorem taskLockUse_of_unlocked {e : Effect} (h : Unlocked e) :
    taskLockUse orchestrator key e = .none := by
  cases e with
  | acquire lock => exact h.elim
  | release lock => exact h.elim
  | _ => rfl

theorem unlocked_ordered {p : Coroutine α} (h : p.Makes Unlocked) :
    TaskOrdered orchestrator key p held :=
  Ordered.of_makes (h.mono fun _ => taskLockUse_of_unlocked)

theorem lockless_ordered {Q : Effect → Prop} {p : Coroutine α} (h : p.Makes (Lockless Q)) :
    TaskOrdered orchestrator key p held := unlocked_ordered (unlocked_of_lockless h)

theorem inThread_ordered {Q : Effect → Prop} {p : Coroutine α} (h : p.Makes (InThread Q)) :
    TaskOrdered orchestrator key p held := lockless_ordered (lockless_of_inThread h)

theorem perform_ordered {e : Effect} (h : Unlocked e) :
    TaskOrdered orchestrator key (perform e) held := unlocked_ordered (makes_perform h)

theorem recordEvent_ordered {kind : String} {payload : List (Str × Json NonFinite)}
    {owner : Option Text} :
    TaskOrdered orchestrator key (recordEvent jobId kind payload owner) held :=
  lockless_ordered recordEvent_quiet

theorem withLock_ordered {lock : Lock} {p : Coroutine α}
    (hrank : ∀ r ∈ held, r.rank < (lock.resource orchestrator key).rank)
    (h : TaskOrdered orchestrator key p (lock.resource orchestrator key :: held)) :
    TaskOrdered orchestrator key (withLock lock p) held := by
  have henter : taskLockUse orchestrator key (.acquire lock) =
      .acquire (lock.resource orchestrator key) := rfl
  have hleave : taskLockUse orchestrator key (.release lock) =
      .release (lock.resource orchestrator key) := rfl
  exact Ordered.bracket henter hleave hrank h

/-- The repository lock within a merge lock, in a slot. -/
theorem withLocks_ordered {p : Coroutine α}
    (h : TaskOrdered orchestrator key p [.repo key, .merge orchestrator, .slot]) :
    TaskOrdered orchestrator key (withLock .merge (withLock .repo p)) [.slot] := by
  apply withLock_ordered
  · intro r hr
    obtain rfl := List.mem_singleton.mp hr
    exact Nat.zero_lt_one
  · apply withLock_ordered
    · intro r hr
      rcases List.mem_cons.mp hr with rfl | hr
      · exact Nat.one_lt_two
      · obtain rfl := List.mem_singleton.mp hr
        exact Nat.zero_lt_two
    · exact h

theorem recoverWorktree_ordered :
    TaskOrdered orchestrator key (recoverWorktree cfg jobId task integrationPath) [.slot] := by
  refine Ordered.join (Ordered.pure _)
    (lockless_ordered (finishBeforeCancel_lockless trivial head_quiet)) fun baseCommit => ?_
  refine Ordered.bind (withLocks_ordered (lockless_ordered
    (finishBeforeCancel_lockless trivial ensureExistingBranchWorktree_quiet))) fun _ => ?_
  refine Ordered.bind (perform_ordered trivial) fun _ => ?_
  exact recordEvent_ordered.bind fun _ => Ordered.pure _

theorem createWorktree_ordered :
    TaskOrdered orchestrator key (createWorktree cfg jobId task integrationPath) [.slot] := by
  refine Ordered.bind (withLocks_ordered ?_) fun created => ?_
  · refine Ordered.bind (lockless_ordered (finishBeforeCancel_lockless trivial head_quiet))
      fun baseCommit => ?_
    refine Ordered.bind (lockless_ordered
      (finishBeforeCancel_lockless trivial ensureWorktree_quiet)) fun _ => ?_
    exact Ordered.pure _
  · refine Ordered.bind (perform_ordered trivial) fun _ => ?_
    exact recordEvent_ordered.bind fun _ => Ordered.pure _

theorem acquireWorktree_ordered :
    TaskOrdered orchestrator key (acquireWorktree cfg jobId task integrationPath) [.slot] := by
  refine Ordered.join (lockless_ordered (finishBeforeCancel_lockless trivial branchExists_quiet))
    (Ordered.pure _) fun known => ?_
  exact Ordered.ite recoverWorktree_ordered createWorktree_ordered

theorem integrateTask_ordered :
    TaskOrdered orchestrator key (integrateTask cfg jobId task integrationPath) [.slot] := by
  apply withLocks_ordered
  refine Ordered.bind (perform_ordered trivial) fun _ => ?_
  refine Ordered.bind (lockless_ordered (finishBeforeCancel_lockless trivial head_quiet))
    fun preMerge => ?_
  refine Ordered.tryCatch (lockless_ordered integrateBody_calls) fun x => ?_
  refine Ordered.bind (lockless_ordered
    (finishBeforeCancel_lockless trivial rollback_quiet)) fun _ => ?_
  exact Ordered.raise x

theorem cleanupTask_ordered :
    TaskOrdered orchestrator key (cleanupTask jobId taskId checkout) [.slot] := by
  refine Ordered.tryCatch (withLock_ordered ?_ ?_) fun x => ?_
  · intro r hr
    obtain rfl := List.mem_singleton.mp hr
    exact Nat.zero_lt_two
  · refine Ordered.bind (lockless_ordered
      (finishBeforeCancel_lockless trivial removeWorktree_quiet)) fun _ => ?_
    exact lockless_ordered (finishBeforeCancel_lockless trivial deleteBranch_quiet)
  · exact Ordered.ite recordEvent_ordered (recordEvent_ordered.bind fun _ => Ordered.raise x)

theorem completeTask_ordered {review : ReviewResult} :
    TaskOrdered orchestrator key (completeTask cfg jobId taskId attemptId checkout attemptNumber
      agentName review) [.slot] := by
  refine Ordered.bind (perform_ordered trivial) fun _ => ?_
  refine Ordered.bind (perform_ordered trivial) fun _ => ?_
  refine recordEvent_ordered.bind fun _ => ?_
  exact Ordered.ite cleanupTask_ordered (Ordered.pure _)

theorem failAttempt_ordered {returncode : Option Int} {retryContext : Str} :
    TaskOrdered orchestrator key (failAttempt taskId attemptId returncode retryContext) held :=
  Ordered.bind (perform_ordered trivial) fun _ => perform_ordered trivial

theorem reviewAndIntegrate_ordered {goal : Text} {gates : List GateResult} :
    TaskOrdered orchestrator key (reviewAndIntegrate cfg jobId taskId attemptId goal checkout
      integrationPath attemptNumber agentName gates) [.slot] := by
  refine Ordered.bind (perform_ordered trivial) fun _ => ?_
  refine Ordered.bind (perform_ordered trivial) fun task => ?_
  refine Ordered.bind (lockless_ordered reviewTaskResilient_calls) fun review => ?_
  apply Ordered.ite
  · refine Ordered.bind (perform_ordered trivial) fun task => ?_
    refine integrateTask_ordered.bind fun integration => ?_
    apply Ordered.ite
    · exact completeTask_ordered.bind fun _ => Ordered.pure _
    · exact failAttempt_ordered.bind fun _ => Ordered.pure _
  · refine failAttempt_ordered.bind fun _ => ?_
    exact recordEvent_ordered.bind fun _ => Ordered.pure _

theorem judgeAttempt_ordered {goal : Text} {result : AgentResult} :
    TaskOrdered orchestrator key (judgeAttempt cfg jobId task attemptId goal checkout
      integrationPath attemptNumber agentName result) [.slot] := by
  apply Ordered.ite
  · refine Ordered.bind (lockless_ordered
      (finishBeforeCancel_lockless trivial commitAll_quiet)) fun _ => ?_
    refine Ordered.bind (lockless_ordered runGates_calls) fun gates => ?_
    apply Ordered.ite reviewAndIntegrate_ordered
    refine Ordered.bind (unlocked_ordered liftExn_makes) fun gatesText => ?_
    refine failAttempt_ordered.bind fun _ => ?_
    exact recordEvent_ordered.bind fun _ => Ordered.pure _
  · refine failAttempt_ordered.bind fun _ => ?_
    exact recordEvent_ordered.bind fun _ => Ordered.pure _

theorem attemptTask_ordered {goal : Text} {retryContext : Str} :
    TaskOrdered orchestrator key (attemptTask cfg jobId taskId goal checkout integrationPath
      attemptNumber retryContext) [.slot] := by
  refine Ordered.bind (perform_ordered trivial) fun job => ?_
  apply Ordered.ite (Ordered.raise _)
  refine Ordered.bind (perform_ordered trivial) fun task => ?_
  refine Ordered.bind (lockless_ordered chooseWorker_quiet) fun agentName => ?_
  refine Ordered.bind (perform_ordered trivial) fun _ => ?_
  refine Ordered.bind (perform_ordered trivial) fun attemptId => ?_
  refine recordEvent_ordered.bind fun _ => ?_
  refine Ordered.bind (Ordered.attempt (perform_ordered trivial)) fun outcome => ?_
  rcases outcome with x | result
  · cases x with
    | cancelledError => exact Ordered.bind (perform_ordered trivial) fun _ => Ordered.raise _
    | _ =>
      refine Ordered.bind (perform_ordered trivial) fun _ => ?_
      refine Ordered.bind (perform_ordered trivial) fun _ => ?_
      exact recordEvent_ordered.bind fun _ => Ordered.pure _
  · exact judgeAttempt_ordered

theorem attemptLoop_ordered {goal : Text} {remaining : Nat} {retryContext : Str} :
    TaskOrdered orchestrator key (attemptLoop cfg jobId taskId goal checkout integrationPath
      remaining attemptNumber retryContext) [.slot] := by
  induction remaining generalizing attemptNumber retryContext with
  | zero => exact Ordered.pure false
  | succ remaining ih =>
    refine attemptTask_ordered.bind fun outcome => ?_
    cases outcome with
    | completed => exact Ordered.pure true
    | retry retryContext => exact ih

theorem runTaskWithSlot_ordered :
    TaskOrdered orchestrator key (runTaskWithSlot cfg jobId taskId integrationPath) [.slot] := by
  refine Ordered.bind (perform_ordered trivial) fun task => ?_
  refine Ordered.bind (perform_ordered trivial) fun job => ?_
  refine acquireWorktree_ordered.bind fun checkout => ?_
  refine attemptLoop_ordered.bind fun completed => ?_
  apply Ordered.ite (Ordered.pure _)
  refine Ordered.bind ?_ fun _ => Ordered.pure _
  refine Ordered.bind (perform_ordered trivial) fun task => ?_
  exact Ordered.bind (perform_ordered trivial) fun _ => recordEvent_ordered

theorem runTask_ordered :
    TaskOrdered orchestrator key (runTask cfg jobId taskId integrationPath) [] :=
  withLock_ordered (fun _ hr => absurd hr List.not_mem_nil) runTaskWithSlot_ordered

end Tasks

/-! ## Runners -/

section Runners

variable {orchestrator : Nat} {key : Str} {held : List Resource} {α : Type} {cfg : JobConfig}
  {jobId : Text} {integrationPath : Str} {job : JobRow}

theorem shared_ordered {p : Coroutine α} (h : TaskOrdered orchestrator key p held) :
    JobOrdered orchestrator key (shared p) held := Ordered.embed h

/-- A call that is none of a lock. -/
theorem performJob_ordered {e : JobEffect} (h : lockUse orchestrator key e = .none) :
    JobOrdered orchestrator key (performJob e) held := Ordered.of_makes (makes_perform h)

theorem sharedCall_ordered {e : Effect} (h : Unlocked e) :
    JobOrdered orchestrator key (shared (perform e)) held := shared_ordered (perform_ordered h)

theorem recordJobEvent_ordered {kind : String} {payload : List (Str × Json NonFinite)} :
    JobOrdered orchestrator key (recordJobEvent jobId kind payload) held :=
  shared_ordered recordEvent_ordered

theorem finishJobBeforeCancel_ordered {p : JobCoroutine α}
    (h : JobOrdered orchestrator key p held) :
    JobOrdered orchestrator key (finishJobBeforeCancel p) held :=
  h.attempt.bind fun outcome =>
    Ordered.bind (performJob_ordered rfl) fun _ => Ordered.ofExcept outcome

/-- A runner takes a lock when it has none. -/
theorem withJobLock_ordered {lock : Lock} {p : JobCoroutine α}
    (h : JobOrdered orchestrator key p [lock.resource orchestrator key]) :
    JobOrdered orchestrator key (withJobLock lock p) [] := by
  have henter : lockUse orchestrator key (.task (.acquire lock)) =
      .acquire (lock.resource orchestrator key) := rfl
  have hleave : lockUse orchestrator key (.task (.release lock)) =
      .release (lock.resource orchestrator key) := rfl
  exact Ordered.bracket henter hleave (fun _ hr => absurd hr List.not_mem_nil) h

theorem resolveBranchCommit_ordered {branch : Str} :
    JobOrdered orchestrator key (resolveBranchCommit branch) held := by
  refine Ordered.bind (shared_ordered (inThread_ordered topology_quiet)) fun _ => ?_
  refine Ordered.bind (performJob_ordered rfl) fun commit => ?_
  exact Ordered.ite (shared_ordered (Ordered.raise _)) (Ordered.pure _)

theorem reconcileFromHead_ordered {baseCommit acceptedCommit : Str} :
    JobOrdered orchestrator key (reconcileFromHead baseCommit acceptedCommit) held := by
  refine Ordered.bind (performJob_ordered rfl) fun currentHead => ?_
  apply Ordered.ite (Ordered.pure _)
  refine Ordered.bind (performJob_ordered rfl) fun contained => ?_
  apply Ordered.ite (Ordered.pure _)
  apply Ordered.ite (Ordered.pure _)
  refine Ordered.bind (performJob_ordered rfl) fun _ => ?_
  refine Ordered.bind (performJob_ordered rfl) fun finalHead => ?_
  exact Ordered.ite (shared_ordered (Ordered.raise _)) (Ordered.pure _)

theorem reconcileFastForwardSource_ordered
    {integrationBranch baseBranch baseCommit acceptedCommit : Str} :
    JobOrdered orchestrator key (reconcileFastForwardSource integrationBranch baseBranch
      baseCommit acceptedCommit) held := by
  refine resolveBranchCommit_ordered.bind fun integrationCommit => ?_
  apply Ordered.ite (shared_ordered (Ordered.raise _))
  apply Ordered.ite (Ordered.pure _)
  refine Ordered.bind (performJob_ordered rfl) fun currentBranch => ?_
  apply Ordered.ite (Ordered.pure _)
  refine Ordered.bind (performJob_ordered rfl) fun clean => ?_
  exact Ordered.ite reconcileFromHead_ordered (Ordered.pure _)

theorem verifiedDossier_ordered : JobOrdered orchestrator key (verifiedDossier jobId) held := by
  refine Ordered.bind (performJob_ordered rfl) fun (dossier : Option DossierRow) => ?_
  cases dossier with
  | none => exact Ordered.raise _
  | some dossier =>
    apply Ordered.ite (Ordered.raise _)
    apply Ordered.ite (Ordered.raise _)
    refine Ordered.bind (performJob_ordered rfl) fun verified => ?_
    exact Ordered.ite (Ordered.pure _) (Ordered.raise _)

theorem startApplying_ordered : JobOrdered orchestrator key (startApplying job) held := by
  refine Ordered.ite (Ordered.bind (performJob_ordered rfl) fun _ => ?_) (Ordered.pure _)
  exact sharedCall_ordered trivial

theorem applySource_ordered : JobOrdered orchestrator key (applySource job) [] := by
  unfold applySource
  cases job.sourceApplyIntent with
  | notRequested => exact Ordered.pure _
  | requested =>
    refine startApplying_ordered.bind fun applying => ?_
    refine Ordered.bind (withJobLock_ordered
      (finishJobBeforeCancel_ordered reconcileFastForwardSource_ordered)) fun outcome => ?_
    exact Ordered.pure _

theorem resumeAcceptedJob_ordered : JobOrdered orchestrator key (resumeAcceptedJob job) [] := by
  apply Ordered.ite (Ordered.raise _)
  apply Ordered.ite (Ordered.raise _)
  refine verifiedDossier_ordered.bind fun dossier => ?_
  refine applySource_ordered.bind fun applied => ?_
  exact Ordered.bind (performJob_ordered rfl) fun _ => performJob_ordered rfl

theorem completeAcceptedJob_ordered {finalSummary : Str} :
    JobOrdered orchestrator key (completeAcceptedJob jobId finalSummary) [] := by
  refine Ordered.bind (sharedCall_ordered trivial) fun accepted => ?_
  refine Ordered.bind (shared_ordered (lockless_ordered
    (finishBeforeCancel_lockless trivial head_quiet))) fun finalCommit => ?_
  refine Ordered.bind (performJob_ordered rfl) fun dossier => ?_
  refine Ordered.bind (performJob_ordered rfl) fun _ => ?_
  exact Ordered.bind (sharedCall_ordered trivial) fun _ => resumeAcceptedJob_ordered

theorem planJob_ordered : JobOrdered orchestrator key (planJob cfg jobId integrationPath) held := by
  refine Ordered.bind (sharedCall_ordered trivial) fun job => ?_
  refine Ordered.bind (performJob_ordered rfl) fun _ => ?_
  refine recordJobEvent_ordered.bind fun _ => ?_
  refine Ordered.bind (sharedCall_ordered trivial) fun plannerName => ?_
  refine Ordered.bind (Ordered.tryCatch ?_ fun x => ?_) fun tasks => performJob_ordered rfl
  · refine Ordered.bind (performJob_ordered rfl) fun planned => ?_
    exact recordJobEvent_ordered.bind fun _ => Ordered.pure _
  · exact Ordered.ite (recordJobEvent_ordered.bind fun _ => Ordered.pure _) (Ordered.raise x)

theorem planUnplanned_ordered :
    JobOrdered orchestrator key (planUnplanned cfg jobId integrationPath) [] := by
  refine Ordered.bind (performJob_ordered rfl) fun tasks => ?_
  exact Ordered.ite (withJobLock_ordered planJob_ordered) (Ordered.pure _)

theorem repairOrRaise_ordered {issue : Str} {failure : String} :
    JobOrdered orchestrator key (repairOrRaise cfg jobId integrationPath issue failure) held := by
  refine Ordered.bind (shared_ordered (lockless_ordered repairIntegration_calls))
    fun repaired => ?_
  exact Ordered.ite (Ordered.pure _) (Ordered.raise _)

theorem finalizeLoop_ordered {reviewerName : Str} {cycles : List Nat} :
    JobOrdered orchestrator key (finalizeLoop cfg jobId integrationPath reviewerName cycles)
      held := by
  induction cycles with
  | nil => exact Ordered.raise _
  | cons cycle cycles ih =>
    refine Ordered.bind (shared_ordered (lockless_ordered runGates_calls)) fun gates => ?_
    apply Ordered.ite
    · refine Ordered.bind (performJob_ordered rfl) fun review => ?_
      refine recordJobEvent_ordered.bind fun _ => ?_
      apply Ordered.ite (Ordered.pure _)
      apply Ordered.ite (Ordered.raise _)
      exact repairOrRaise_ordered.bind fun _ => ih
    · refine Ordered.bind (shared_ordered (unlocked_ordered liftExn_makes)) fun gatesText => ?_
      apply Ordered.ite (Ordered.raise _)
      exact repairOrRaise_ordered.bind fun _ => ih

theorem finalize_ordered :
    JobOrdered orchestrator key (finalize cfg jobId integrationPath) held :=
  Ordered.bind (sharedCall_ordered trivial) fun _ => finalizeLoop_ordered

theorem removePresent_ordered {path : Str} :
    JobOrdered orchestrator key (removePresent path) held := by
  refine Ordered.bind (shared_ordered (inThread_ordered pathExists_quiet)) fun present => ?_
  exact Ordered.ite (finishJobBeforeCancel_ordered
    (shared_ordered (inThread_ordered removeWorktree_quiet))) (Ordered.pure _)

theorem whenRecorded_ordered {recorded : Str} {p : Str → JobCoroutine Unit}
    (h : JobOrdered orchestrator key (p recorded) held) :
    JobOrdered orchestrator key (whenRecorded recorded p) held := Ordered.ite (Ordered.pure _) h

theorem cleanupTasks_ordered {tasks : List TaskRow} :
    JobOrdered orchestrator key (cleanupTasks tasks) held := by
  induction tasks with
  | nil => exact Ordered.pure _
  | cons task tasks ih =>
    refine Ordered.bind (whenRecorded_ordered removePresent_ordered) fun _ => ?_
    refine Ordered.bind (whenRecorded_ordered ?_) fun _ => ih
    exact finishJobBeforeCancel_ordered (shared_ordered (inThread_ordered deleteBranch_quiet))

theorem cleanupCompleted_ordered :
    JobOrdered orchestrator key (cleanupCompleted cfg jobId integrationPath) [] := by
  apply withJobLock_ordered
  refine Ordered.bind (performJob_ordered rfl) fun tasks => ?_
  refine cleanupTasks_ordered.bind fun _ => ?_
  refine removePresent_ordered.bind fun _ => ?_
  refine Ordered.bind (performJob_ordered rfl) fun present => ?_
  exact Ordered.ite (finishJobBeforeCancel_ordered (performJob_ordered rfl)) (Ordered.pure _)

theorem cleanupJob_ordered :
    JobOrdered orchestrator key (cleanupJob cfg jobId integrationPath) [] := by
  refine Ordered.ite (Ordered.tryCatch cleanupCompleted_ordered fun x => ?_) (Ordered.pure _)
  exact Ordered.ite recordJobEvent_ordered (recordJobEvent_ordered.bind fun _ => Ordered.raise x)

theorem recoverIntegration_ordered :
    TaskOrdered orchestrator key (recoverIntegration jobId job integrationPath) [] := by
  refine withLock_ordered (fun _ hr => absurd hr List.not_mem_nil) ?_
  refine Ordered.bind (lockless_ordered
    (finishBeforeCancel_lockless trivial ensureExistingBranchWorktree_quiet)) fun _ => ?_
  refine Ordered.bind ?_ fun _ => ?_
  · refine Ordered.bind (lockless_ordered
      (finishBeforeCancel_lockless trivial mergeInProgress_quiet)) fun merging => ?_
    refine Ordered.ite (Ordered.bind ?_ fun _ => recordEvent_ordered) (Ordered.pure _)
    exact lockless_ordered (finishBeforeCancel_lockless trivial abortMerge_quiet)
  · refine Ordered.bind (lockless_ordered
      (finishBeforeCancel_lockless trivial isClean_quiet)) fun clean => ?_
    apply Ordered.ite (Ordered.pure _)
    refine Ordered.bind (lockless_ordered
      (finishBeforeCancel_lockless trivial head_quiet)) fun commit => ?_
    refine Ordered.bind (lockless_ordered
      (finishBeforeCancel_lockless trivial resetHard_quiet)) fun _ => recordEvent_ordered

theorem concludeJob_ordered :
    JobOrdered orchestrator key (concludeJob cfg jobId integrationPath) [] := by
  refine Ordered.bind (sharedCall_ordered trivial) fun current => ?_
  apply Ordered.ite (Ordered.raise _)
  refine Ordered.bind (withJobLock_ordered finalize_ordered) fun finalSummary => ?_
  refine Ordered.bind (sharedCall_ordered trivial) fun job => ?_
  refine Ordered.bind (finishJobBeforeCancel_ordered completeAcceptedJob_ordered) fun _ => ?_
  exact cleanupJob_ordered

theorem resumeRun_ordered :
    JobOrdered orchestrator key (resumeRun cfg jobId job integrationPath) [] := by
  refine Ordered.bind (finishJobBeforeCancel_ordered resumeAcceptedJob_ordered) fun _ => ?_
  exact Ordered.bind (sharedCall_ordered trivial) fun _ => cleanupJob_ordered

theorem candidateRun_ordered :
    JobOrdered orchestrator key (candidateRun cfg jobId job integrationPath) [] := by
  refine Ordered.bind (shared_ordered recoverIntegration_ordered) fun _ => ?_
  refine Ordered.bind (performJob_ordered rfl) fun _ => ?_
  refine recordJobEvent_ordered.bind fun _ => ?_
  refine planUnplanned_ordered.bind fun _ => ?_
  refine Ordered.bind (performJob_ordered rfl) fun _ => ?_
  refine recordJobEvent_ordered.bind fun _ => ?_
  exact Ordered.bind (performJob_ordered rfl) fun _ => concludeJob_ordered

theorem settleJob_ordered {taskState : TaskState} {attemptState summary : Str}
    {fields : JobFields} :
    JobOrdered orchestrator key (settleJob jobId taskState attemptState summary fields) held :=
  Ordered.bind (performJob_ordered rfl) fun _ => performJob_ordered rfl

theorem settleCancelled_ordered : JobOrdered orchestrator key (settleCancelled jobId) held := by
  refine Ordered.bind (performJob_ordered rfl) fun _ => ?_
  refine Ordered.bind (sharedCall_ordered trivial) fun current => ?_
  apply Ordered.ite (Ordered.pure _)
  apply Ordered.ite recordJobEvent_ordered
  apply Ordered.ite
  · refine settleJob_ordered.bind fun _ => ?_
    exact recordJobEvent_ordered.bind fun _ => performJob_ordered rfl
  · exact settleJob_ordered.bind fun _ => recordJobEvent_ordered

theorem settleFailed_ordered {message : Str} :
    JobOrdered orchestrator key (settleFailed jobId job message) held := by
  refine Ordered.bind (performJob_ordered rfl) fun _ => ?_
  refine Ordered.bind (sharedCall_ordered trivial) fun current => ?_
  apply Ordered.ite
  · exact recordJobEvent_ordered.bind fun _ => performJob_ordered rfl
  · refine settleJob_ordered.bind fun _ => ?_
    exact recordJobEvent_ordered.bind fun _ => performJob_ordered rfl

theorem runJob_ordered : JobOrdered orchestrator key (runJob cfg jobId) [] := by
  refine Ordered.bind (sharedCall_ordered trivial) fun job => ?_
  refine Ordered.bind (shared_ordered (inThread_ordered topology_quiet)) fun _ => ?_
  refine Ordered.tryCatch (Ordered.ite resumeRun_ordered candidateRun_ordered) fun x => ?_
  exact Ordered.join settleFailed_ordered settleCancelled_ordered fun _ => Ordered.raise x

theorem submitPreflight_ordered {requireClean : Bool} {path : Str} :
    JobOrdered orchestrator key (submitPreflight requireClean path) [] := by
  refine Ordered.bind (performJob_ordered rfl) fun root => ?_
  refine Ordered.bind (withJobLock_ordered (finishJobBeforeCancel_ordered ?_)) fun _ =>
    Ordered.pure _
  refine Ordered.join (performJob_ordered rfl) (Ordered.pure _) fun clean => ?_
  refine Ordered.ite ?_ (shared_ordered (Ordered.raise _))
  refine Ordered.bind (performJob_ordered rfl) fun branch => ?_
  exact Ordered.bind (performJob_ordered rfl) fun commit => Ordered.pure _

end Runners

/-! ## Any number of them -/

/-- A coroutine, at its start; what it returns does not matter to the others. -/
def coroutine {α : Type} (orchestrator : Nat) (key : Str) (p : JobCoroutine α) :
    Process JobEffect JobEffect.Reply Raised Resource where
  use := lockUse orchestrator key
  program := p >>= fun _ => pure ()

/-- The coroutines that share a coordinator: runners of jobs, with an orchestrator each, those of
their tasks, and submissions; the key is that of the repository. -/
inductive Launched : Process JobEffect JobEffect.Reply Raised Resource → Prop
  | runner (orchestrator : Nat) (key : Str) (cfg : JobConfig) (jobId : Text) :
      Launched (coroutine orchestrator key (runJob cfg jobId))
  | task (orchestrator : Nat) (key : Str) (cfg : JobConfig) (jobId taskId : Text)
      (integrationPath : Str) :
      Launched (coroutine orchestrator key
        (shared (runTask cfg.toEngineConfig jobId taskId integrationPath)))
  | submission (orchestrator : Nat) (key : Str) (requireClean : Bool) (path : Str) :
      Launched (coroutine orchestrator key (submitPreflight requireClean path))

theorem Launched.ordered {p : Process JobEffect JobEffect.Reply Raised Resource} (h : Launched p) :
    p.held = [] ∧ p.granted = none ∧ Ordered p.use Resource.rank p.program [] := by
  cases h with
  | runner orchestrator key cfg jobId =>
    exact ⟨rfl, rfl, runJob_ordered.bind fun _ => Ordered.pure ()⟩
  | task orchestrator key cfg jobId taskId integrationPath =>
    exact ⟨rfl, rfl, (shared_ordered runTask_ordered).bind fun _ => Ordered.pure ()⟩
  | submission orchestrator key requireClean path =>
    exact ⟨rfl, rfl, submitPreflight_ordered.bind fun _ => Ordered.pure ()⟩

/-- The coroutines of any number of jobs, with their slots and locks. -/
abbrev coroutines (maxWorkers : Nat) :
    Lts.System (Pool JobEffect JobEffect.Reply Raised Resource) (Option Nat) :=
  pool Launched (Resource.capacity maxWorkers)

/-- However many jobs there are, and in whatever order their coroutines run and are cancelled:
nobody waits for itself through others, whenever somebody waits there is somebody who holds
something and does not wait, and who holds something has not ended. -/
theorem no_lock_deadlock {maxWorkers : Nat} (hworkers : 1 ≤ maxWorkers)
    {w : Pool JobEffect JobEffect.Reply Raised Resource}
    (h : (coroutines maxWorkers).Reachable w) :
    (∀ i, ¬ Relation.TransGen w.WaitsFor i i) ∧
    (∀ i r, w.Waiting i r → ∃ j r', w.HoldsAt j r' ∧ ∀ r'', ¬ w.Waiting j r'') ∧
    ∀ j r, w.HoldsAt j r → ∃ p e next, w.processes[j]? = some p ∧ p.program = .call e next := by
  have hstart : ∀ p, Launched p →
      p.held = [] ∧ p.granted = none ∧ Ordered p.use Resource.rank p.program [] :=
    fun _ => Launched.ordered
  refine ⟨no_circular_wait hstart h, ?_, ?_⟩
  · intro i r hwaiting
    exact exists_running_holder hstart h (Resource.capacity_pos hworkers) Resource.rank_lt hwaiting
  · intro j r hholds
    exact exists_call_of_holdsAt hstart h hholds

/-- A task that has been started. -/
def startedTask : Process JobEffect JobEffect.Reply Raised Resource :=
  coroutine 0 (lit "/repo")
    (shared (runTask smallEngine (Text.lit "job-1") (Text.lit "task-1") (lit "/candidate")))

/-- Two tasks and one slot, which the first has been given. -/
def oneSlotTaken : Pool JobEffect JobEffect.Reply Raised Resource where
  free := Function.update (Resource.capacity 1) .slot 0
  processes := [{ startedTask with granted := some .slot }, startedTask]

theorem oneSlotTaken_reachable : (coroutines 1).Reachable oneSlotTaken := by
  have hlaunched : Launched startedTask :=
    .task 0 (lit "/repo") smallRunner (Text.lit "job-1") (Text.lit "task-1") (lit "/candidate")
  have hnone : (coroutines 1).Reachable { free := Resource.capacity 1 } :=
    Lts.System.reachable_init rfl
  have hone := hnone.step (l := none) ⟨startedTask, hlaunched, rfl⟩
  have htwo := hone.step (l := none) ⟨startedTask, hlaunched, rfl⟩
  have hgrant : startedTask.Step (Resource.capacity 1) { startedTask with granted := some .slot }
      (Function.update (Resource.capacity 1) .slot (Resource.capacity 1 .slot - 1)) :=
    .grant rfl rfl rfl Nat.one_pos
  exact htwo.step (l := some 0) ⟨startedTask, _, rfl, hgrant, rfl⟩

/-- The second task waits, and the first, which has the slot, does not. -/
theorem no_lock_deadlock_one_slot :
    oneSlotTaken.Waiting 1 .slot ∧ (∀ i, ¬ Relation.TransGen oneSlotTaken.WaitsFor i i) ∧
    ∃ j r, oneSlotTaken.HoldsAt j r ∧ ∀ r', ¬ oneSlotTaken.Waiting j r' := by
  have hwaiting : oneSlotTaken.Waiting 1 .slot := ⟨startedTask, rfl, rfl, rfl, rfl⟩
  have hfree := no_lock_deadlock (Nat.le_refl 1) oneSlotTaken_reachable
  exact ⟨hwaiting, hfree.1, hfree.2.1 1 .slot hwaiting⟩

end OmarchyYolo
