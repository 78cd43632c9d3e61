import OmarchyYolo.TaskExecution

/-!
# OmarchyYolo.QuietCalls — which calls the stages make

Most of what a coroutine calls touches neither the records of its task nor the
verdicts on its work. The stages are classified by the calls that they can come
to, whatever the replies.

* `Quiet` — calls that touch neither, `Setup` — those of the acquisition;
* `IntegrationCall` — those of the integration, under its handler.
-/

namespace OmarchyYolo

open Py PyJson Calls

/-- Calls that leave the task's row, and all the evidence but that of a commit. -/
def Quiet : Effect → Prop
  | .startAttempt _ | .finishAttempt _ _ _ _ | .updateTask _ _ | .runAgent _ _ _ _
  | .runGates _ _ _ | .reviewTask _ _ _ _ _ _ _ | .git _ (.merge _) | .git _ .unresolved => False
  | _ => True

/-- Calls that take no lock and give none back. -/
def Unlocked : Effect → Prop
  | .acquire _ | .release _ => False
  | _ => True

/-- Calls of a kind, the locks left alone. -/
def Lockless (Q : Effect → Prop) (e : Effect) : Prop := Q e ∧ Unlocked e

/-- The work of a thread, which the coroutine awaits. -/
def Effect.inThread : Effect → Bool
  | .git _ _ | .topology _ => true
  | _ => false

/-- Calls of a kind, in a thread. -/
def InThread (Q : Effect → Prop) (e : Effect) : Prop := Q e ∧ e.inThread = true

/-- Quiet calls, and updates of the task that leave its state. -/
def Setup (taskId : Text) (e : Effect) : Prop :=
  Quiet e ∨ ∃ fields : TaskFields, e = .updateTask taskId fields ∧ fields.state = none

section Quiet

variable {jobId : Text} {α : Type} {cwd path branch ref : Str} {cfg : EngineConfig}

theorem Lockless.imp {Q Q' : Effect → Prop} (h : ∀ e, Q e → Q' e) {e : Effect}
    (he : Lockless Q e) : Lockless Q' e := ⟨h e he.1, he.2⟩

theorem makes_of_lockless {Q : Effect → Prop} {p : Coroutine α} (h : p.Makes (Lockless Q)) :
    p.Makes Q := h.mono fun _ => And.left

theorem InThread.imp {Q Q' : Effect → Prop} (h : ∀ e, Q e → Q' e) {e : Effect}
    (he : InThread Q e) : InThread Q' e := ⟨h e he.1, he.2⟩

theorem unlocked_of_inThread {e : Effect} (h : e.inThread = true) : Unlocked e := by
  cases e with
  | acquire lock => cases h
  | release lock => cases h
  | _ => trivial

theorem lockless_of_inThread {Q : Effect → Prop} {p : Coroutine α} (h : p.Makes (InThread Q)) :
    p.Makes (Lockless Q) := h.mono fun _ he => ⟨he.1, unlocked_of_inThread he.2⟩

theorem makes_of_inThread {Q : Effect → Prop} {p : Coroutine α} (h : p.Makes (InThread Q)) :
    p.Makes Q := h.mono fun _ => And.left

theorem unlocked_of_lockless {Q : Effect → Prop} {p : Coroutine α} (h : p.Makes (Lockless Q)) :
    p.Makes Unlocked := h.mono fun _ => And.right

theorem suspend_quiet : suspend.Makes (Lockless Quiet) := makes_perform ⟨trivial, trivial⟩

theorem acquire_quiet {lock : Lock} : (perform (.acquire lock)).Makes Quiet := makes_perform trivial

theorem release_quiet {lock : Lock} : (perform (.release lock)).Makes Quiet := makes_perform trivial

theorem getJob_quiet : (perform (.getJob jobId)).Makes (Lockless Quiet) :=
  makes_perform ⟨trivial, trivial⟩

theorem getTask_quiet {taskId : Text} : (perform (.getTask taskId)).Makes (Lockless Quiet) :=
  makes_perform ⟨trivial, trivial⟩

theorem chooseRole_quiet {candidate : Str} {names : List Str} {role : AgentRole} :
    (perform (.chooseRole candidate names role)).Makes (Lockless Quiet) :=
  makes_perform ⟨trivial, trivial⟩

theorem recordEvent_quiet {kind : String} {payload : List (Str × Json NonFinite)}
    {task : Option Text} : (recordEvent jobId kind payload task).Makes (Lockless Quiet) :=
  makes_perform ⟨trivial, trivial⟩

theorem topology_quiet {command : TopologyCommand} :
    (topologyCommand command).Makes (InThread Quiet) := makes_perform ⟨trivial, rfl⟩

theorem pathExists_quiet : (pathExists path).Makes (InThread Quiet) := topology_quiet

theorem isSymlink_quiet : (isSymlink path).Makes (InThread Quiet) := topology_quiet

theorem gitFileExists_quiet : (gitFileExists path).Makes (InThread Quiet) := topology_quiet

theorem finishBeforeCancel_makes {Q : Effect → Prop} (hQ : Q .suspend) {p : Coroutine α}
    (h : p.Makes Q) : (finishBeforeCancel p).Makes Q :=
  h.attempt.bind fun _ => (makes_perform hQ).bind fun _ => makes_ofExcept

theorem finishBeforeCancel_lockless {Q : Effect → Prop} (hQ : Q .suspend) {p : Coroutine α}
    (h : p.Makes (InThread Q)) : (finishBeforeCancel p).Makes (Lockless Q) :=
  finishBeforeCancel_makes ⟨hQ, trivial⟩ (lockless_of_inThread h)

theorem withLock_makes {Q : Effect → Prop} {lock : Lock} (hacquire : Q (.acquire lock))
    (hrelease : Q (.release lock)) {p : Coroutine α} (h : p.Makes Q) : (withLock lock p).Makes Q :=
  (makes_perform hacquire).bind fun _ => h.attempt.bind fun _ =>
    (makes_perform hrelease).bind fun _ => makes_ofExcept

theorem exceptWhen_makes {Q : Effect → Prop} {caught : Raised → Bool} {p : Coroutine α}
    {handler : Raised → Coroutine α} (h : p.Makes Q) (hhandler : ∀ x, (handler x).Makes Q) :
    (exceptWhen caught p handler).Makes Q := by
  refine h.tryCatch fun x => ?_
  split_ifs
  · exact hhandler x
  · exact makes_raise

theorem liftExn_makes {Q : Effect → Prop} {r : Except Exn α} : (liftExn r).Makes Q := by
  cases r <;> trivial

theorem assertWorktree_quiet {expectedBranch : Option Str} :
    (gitCommand cwd (.assertWorktree expectedBranch)).Makes (InThread Quiet) :=
  makes_perform ⟨trivial, rfl⟩

theorem addAll_quiet : (gitCommand cwd .addAll).Makes (InThread Quiet) :=
  makes_perform ⟨trivial, rfl⟩

theorem head_quiet : (head cwd).Makes (InThread Quiet) := makes_perform ⟨trivial, rfl⟩

theorem isClean_quiet : (isClean cwd).Makes (InThread Quiet) := makes_perform ⟨trivial, rfl⟩

theorem commitAll_quiet {message : Str} : (commitAll cwd message).Makes (InThread Quiet) := by
  refine Program.Makes.bind (makes_perform ⟨trivial, rfl⟩) fun _ => ?_
  refine isClean_quiet.bind fun clean => ?_
  apply makes_ite head_quiet
  exact (makes_perform ⟨trivial, rfl⟩).bind fun _ =>
    (makes_perform ⟨trivial, rfl⟩).bind fun _ => head_quiet

theorem diffWorktree_quiet {base : Str} : (diffWorktree cwd base).Makes (InThread Quiet) :=
  (makes_perform ⟨trivial, rfl⟩).bind fun _ => makes_perform ⟨trivial, rfl⟩

theorem mergeInProgress_quiet : (mergeInProgress cwd).Makes (InThread Quiet) :=
  (makes_perform ⟨trivial, rfl⟩).bind fun _ => makes_perform ⟨trivial, rfl⟩

theorem abortMerge_quiet : (abortMerge cwd).Makes (InThread Quiet) := by
  refine Program.Makes.bind (makes_perform ⟨trivial, rfl⟩) fun _ => ?_
  refine mergeInProgress_quiet.bind fun _ => ?_
  exact makes_ite (makes_perform ⟨trivial, rfl⟩) makes_pure

theorem resetHard_quiet {commit : Str} : (resetHard cwd commit).Makes (InThread Quiet) :=
  (makes_perform ⟨trivial, rfl⟩).bind fun _ =>
    (makes_perform ⟨trivial, rfl⟩).bind fun _ => makes_perform ⟨trivial, rfl⟩

theorem rollback_quiet {preMerge : Str} : (rollback cwd preMerge).Makes (InThread Quiet) :=
  (exceptWhen_makes abortMerge_quiet fun _ => makes_pure).bind fun _ => resetHard_quiet

theorem branchExists_quiet : (branchExists branch).Makes (InThread Quiet) :=
  topology_quiet.bind fun _ => topology_quiet

theorem removeWorktree_quiet : (removeWorktree path).Makes (InThread Quiet) := by
  refine pathExists_quiet.bind fun _ => makes_ite ?_ topology_quiet
  refine isSymlink_quiet.bind fun _ => makes_ite makes_raise ?_
  exact (makes_perform ⟨trivial, rfl⟩).bind fun _ => topology_quiet

theorem deleteBranch_quiet : (deleteBranch branch).Makes (InThread Quiet) :=
  topology_quiet.bind fun _ => branchExists_quiet.bind fun _ => makes_ite topology_quiet makes_pure

theorem ensureWorktree_quiet : (ensureWorktree path branch ref).Makes (InThread Quiet) := by
  have hcreate : (branchExists branch >>= fun known =>
      if known then raiseGit (lit "refusing to overwrite existing branch: " ++ branch)
      else do
        topologyCommand (.addNewBranch branch path ref)
        gitCommand path (.assertWorktree (some branch))).Makes (InThread Quiet) :=
    branchExists_quiet.bind fun _ => makes_ite makes_raise
      (topology_quiet.bind fun _ => makes_perform ⟨trivial, rfl⟩)
  refine topology_quiet.bind fun _ => topology_quiet.bind fun _ => pathExists_quiet.bind fun _ => ?_
  refine makes_ite (isSymlink_quiet.bind fun _ => makes_ite ?_ ?_) hcreate
  · exact Program.Makes.bind makes_raise fun _ => hcreate
  · exact (makes_perform ⟨trivial, rfl⟩).bind fun _ =>
      removeWorktree_quiet.bind fun _ => hcreate

theorem ensureExistingBranchWorktree_quiet :
    (ensureExistingBranchWorktree path branch ref).Makes (InThread Quiet) := by
  have hadd : (topologyCommand (.addWorktree path branch) >>= fun _ =>
      gitCommand path (.assertWorktree (some branch))).Makes (InThread Quiet) :=
    topology_quiet.bind fun _ => makes_perform ⟨trivial, rfl⟩
  refine topology_quiet.bind fun _ => topology_quiet.bind fun _ => pathExists_quiet.bind fun _ => ?_
  refine makes_ite (isSymlink_quiet.bind fun _ => makes_ite makes_raise ?_) ?_
  · exact gitFileExists_quiet.bind fun _ => makes_ite (makes_perform ⟨trivial, rfl⟩) makes_raise
  · refine topology_quiet.bind fun _ => branchExists_quiet.bind fun _ => ?_
    exact makes_ite hadd (topology_quiet.bind fun _ => hadd)

theorem setup_of_quiet {taskId : Text} {p : Coroutine α} (h : p.Makes Quiet) :
    p.Makes (Setup taskId) := h.mono fun _ => Or.inl

theorem setup_of_lockless {taskId : Text} {p : Coroutine α} (h : p.Makes (Lockless Quiet)) :
    p.Makes (Setup taskId) := setup_of_quiet (makes_of_lockless h)

theorem updateTask_setup {taskId : Text} {fields : TaskFields} (h : fields.state = none) :
    (perform (.updateTask taskId fields)).Makes (Setup taskId) :=
  makes_perform (Or.inr ⟨fields, rfl, h⟩)

theorem recoverWorktree_setup {task : TaskRow} :
    (recoverWorktree cfg jobId task path).Makes (Setup task.id) := by
  refine Program.Makes.join makes_pure
    (setup_of_lockless (finishBeforeCancel_lockless trivial head_quiet)) fun _ => ?_
  refine Program.Makes.bind (setup_of_quiet (withLock_makes trivial trivial
    (withLock_makes trivial trivial
      (finishBeforeCancel_makes trivial
        (makes_of_inThread ensureExistingBranchWorktree_quiet))))) fun _ => ?_
  exact (updateTask_setup rfl).bind fun _ => (setup_of_lockless recordEvent_quiet).bind fun _ =>
    makes_pure

theorem createWorktree_setup {task : TaskRow} :
    (createWorktree cfg jobId task path).Makes (Setup task.id) := by
  refine Program.Makes.bind (setup_of_quiet (withLock_makes trivial trivial
    (withLock_makes trivial trivial ?_))) fun _ => ?_
  · refine (finishBeforeCancel_makes trivial (makes_of_inThread head_quiet)).bind fun _ => ?_
    exact (finishBeforeCancel_makes trivial (makes_of_inThread ensureWorktree_quiet)).bind
      fun _ => makes_pure
  · exact (updateTask_setup rfl).bind fun _ => (setup_of_lockless recordEvent_quiet).bind fun _ =>
      makes_pure

theorem acquireWorktree_setup {task : TaskRow} :
    (acquireWorktree cfg jobId task path).Makes (Setup task.id) := by
  refine Program.Makes.join (setup_of_lockless
    (finishBeforeCancel_lockless trivial branchExists_quiet)) makes_pure
    fun _ => ?_
  exact makes_ite recoverWorktree_setup createWorktree_setup

theorem preferredWorker_quiet {task : TaskRow} : (preferredWorker task).Makes (Lockless Quiet) := by
  unfold preferredWorker
  cases task.preferredAgent with
  | none => exact makes_pure
  | some preferred =>
    exact exceptWhen_makes ((makes_perform ⟨trivial, trivial⟩).bind fun _ => makes_pure)
      fun _ => makes_pure

theorem availableWorkers_quiet {names : List Str} :
    (availableWorkers names).Makes (Lockless Quiet) := by
  induction names with
  | nil => exact makes_pure
  | cons name names ih =>
    exact (makes_perform ⟨trivial, trivial⟩).bind fun _ => ih.bind fun _ => makes_pure

theorem chooseWorker_quiet {task : TaskRow} {attemptNumber : Int} :
    (chooseWorker cfg task attemptNumber).Makes (Lockless Quiet) := by
  refine preferredWorker_quiet.bind fun preferred => ?_
  cases preferred with
  | some name => exact makes_pure
  | none =>
    refine availableWorkers_quiet.bind fun available => ?_
    cases available with
    | nil => exact makes_perform ⟨trivial, trivial⟩
    | cons name names => exact makes_pure

theorem cleanupTask_quiet {task : Text} {checkout : TaskCheckout} :
    (cleanupTask jobId task checkout).Makes Quiet := by
  refine Program.Makes.tryCatch (withLock_makes trivial trivial ?_) fun x => ?_
  · exact makes_of_lockless ((finishBeforeCancel_lockless trivial removeWorktree_quiet).bind
      fun _ => finishBeforeCancel_lockless trivial deleteBranch_quiet)
  · exact makes_of_lockless (makes_ite recordEvent_quiet
      (recordEvent_quiet.bind fun _ => makes_raise))

end Quiet

/-! ## The integration -/

/-- Calls that write no record of the task or its attempts, and ask for no work and no
review. -/
def IntegrationCall : Effect → Prop
  | .startAttempt _ | .finishAttempt _ _ _ _ | .updateTask _ _ | .runAgent _ (.work _ _ _) _ _
  | .reviewTask _ _ _ _ _ _ _ => False
  | _ => True

/-- Quiet calls, and the repair of the candidate by an agent. -/
def RepairCall : Effect → Prop
  | .runAgent _ (.repair _ _) _ _ => True
  | e => Quiet e

/-- Quiet calls, and the review of the task by an agent. -/
def TaskReviewCall : Effect → Prop
  | .reviewTask _ _ _ _ _ _ _ => True
  | e => Quiet e

section IntegrationCalls

variable {jobId : Text} {α : Type} {cwd : Str} {cfg : EngineConfig} {task : TaskRow}

theorem Quiet.integrationCall {e : Effect} (h : Quiet e) : IntegrationCall e := by
  cases e with
  | runAgent name prompt cwd logPath => exact h.elim
  | _ => trivial

theorem Quiet.repairCall {e : Effect} (h : Quiet e) : RepairCall e := by
  cases e with
  | runAgent name prompt cwd logPath => exact h.elim
  | _ => exact h

theorem RepairCall.integrationCall {e : Effect} (h : RepairCall e) : IntegrationCall e := by
  cases e with
  | runAgent name prompt cwd logPath =>
    cases prompt with
    | work goal task context => exact h
    | _ => trivial
  | _ => exact Quiet.integrationCall h

theorem integrationCall_of_quiet {p : Coroutine α} (h : p.Makes (Lockless Quiet)) :
    p.Makes (Lockless IntegrationCall) :=
  h.mono fun _ => Lockless.imp fun _ => Quiet.integrationCall

theorem threadCall_of_quiet {p : Coroutine α} (h : p.Makes (InThread Quiet)) :
    p.Makes (InThread IntegrationCall) :=
  h.mono fun _ => InThread.imp fun _ => Quiet.integrationCall

theorem runGates_calls {owner : Option TaskRow} {final : Bool} {suffix : Str} :
    (runGates cfg jobId owner cwd final suffix).Makes (Lockless IntegrationCall) :=
  (makes_perform ⟨trivial, trivial⟩).bind fun _ =>
    (makes_perform ⟨trivial, trivial⟩).bind fun _ => makes_pure

theorem repairWith_calls {issue : Str} {taskId : Option Text} {cycle : Nat} {agentName : Str} :
    (repairWith cfg jobId cwd issue taskId cycle agentName).Makes (Lockless RepairCall) := by
  refine (makes_perform ⟨trivial, trivial⟩).bind fun _ => ?_
  refine Program.Makes.bind (makes_perform ⟨trivial, trivial⟩) fun _ => ?_
  refine makes_ite (Program.Makes.bind ?_ fun _ => ?_) makes_pure
  · exact (finishBeforeCancel_lockless trivial commitAll_quiet).mono fun _ =>
      Lockless.imp fun _ => Quiet.repairCall
  · exact (makes_perform ⟨trivial, trivial⟩).bind fun _ => makes_pure

theorem repairLoop_calls {issue : Str} {taskId : Option Text} {candidates : List Str}
    {cycle : Nat} {actualSeen : List Str} :
    (repairLoop cfg jobId cwd issue taskId candidates cycle actualSeen).Makes
      (Lockless RepairCall) := by
  induction candidates generalizing cycle actualSeen with
  | nil => exact makes_pure
  | cons candidate candidates ih =>
    refine makes_ite makes_pure (Program.Makes.bind (exceptWhen_makes ?_ fun _ => ?_)
      fun choice => ?_)
    · exact (makes_perform ⟨trivial, trivial⟩).bind fun _ => makes_pure
    · exact (makes_perform ⟨trivial, trivial⟩).bind fun _ => makes_pure
    cases choice with
    | none => exact ih
    | some agentName =>
      refine makes_ite ih (Program.Makes.bind (exceptWhen_makes repairWith_calls fun _ => ?_)
        fun _ => makes_ite makes_pure ih)
      exact (makes_perform ⟨trivial, trivial⟩).bind fun _ => makes_pure

theorem repairIntegration_calls {issue : Str} {taskId : Option Text} :
    (repairIntegration cfg jobId cwd issue taskId).Makes (Lockless RepairCall) := repairLoop_calls

theorem unresolvedFiles_calls : (unresolvedFiles cwd).Makes (InThread IntegrationCall) :=
  (makes_perform ⟨trivial, rfl⟩).bind fun _ => makes_perform ⟨trivial, rfl⟩

theorem merge_calls {branch : Str} : (merge cwd branch).Makes (InThread IntegrationCall) := by
  refine Program.Makes.bind (makes_perform ⟨trivial, rfl⟩) fun _ => ?_
  refine Program.Makes.bind (makes_perform ⟨trivial, rfl⟩) fun _ => ?_
  refine Program.Makes.bind (makes_perform ⟨trivial, rfl⟩) fun stderr => ?_
  cases (stderr : Option Str) with
  | none => exact makes_pure
  | some stderr => exact unresolvedFiles_calls.bind fun _ => makes_ite makes_raise makes_raise

theorem finishMerge_calls : (finishMerge cwd).Makes (InThread IntegrationCall) := by
  refine Program.Makes.bind (makes_perform ⟨trivial, rfl⟩) fun _ => ?_
  refine unresolvedFiles_calls.bind fun _ => makes_ite makes_raise ?_
  refine Program.Makes.bind (makes_perform ⟨trivial, rfl⟩) fun _ => ?_
  refine (threadCall_of_quiet mergeInProgress_quiet).bind fun _ => ?_
  refine makes_ite (makes_perform ⟨trivial, rfl⟩) ?_
  refine (threadCall_of_quiet isClean_quiet).bind fun _ => makes_ite makes_pure ?_
  exact (threadCall_of_quiet commitAll_quiet).bind fun _ => makes_pure

theorem tryFinishMerge_calls : (tryFinishMerge cwd).Makes (Lockless IntegrationCall) :=
  exceptWhen_makes
    ((finishBeforeCancel_lockless trivial finishMerge_calls).bind fun _ => makes_pure)
    fun _ => makes_pure

theorem tryFinishResolved_calls {agentName : Str} :
    (tryFinishResolved jobId task cwd agentName).Makes (Lockless IntegrationCall) := by
  refine exceptWhen_makes ?_ fun _ => makes_pure
  refine (finishBeforeCancel_lockless trivial finishMerge_calls).bind fun _ => ?_
  refine (finishBeforeCancel_lockless trivial unresolvedFiles_calls).bind fun _ => ?_
  exact makes_ite ((makes_perform ⟨trivial, trivial⟩).bind fun _ => makes_pure) makes_pure

theorem resolveLoop_calls {originalError : Str} {cycles : List Nat} :
    (resolveLoop cfg jobId task cwd originalError cycles).Makes (Lockless IntegrationCall) := by
  induction cycles with
  | nil => exact makes_pure
  | cons cycle cycles ih =>
    refine (finishBeforeCancel_lockless trivial unresolvedFiles_calls).bind fun _ => ?_
    refine Program.Makes.join tryFinishMerge_calls makes_pure fun _ => makes_ite makes_pure ?_
    refine (makes_perform ⟨trivial, trivial⟩).bind fun _ => ?_
    refine Program.Makes.bind (makes_perform ⟨trivial, trivial⟩) fun _ => ?_
    refine (makes_perform ⟨trivial, trivial⟩).bind fun _ => ?_
    exact Program.Makes.join tryFinishResolved_calls makes_pure fun _ => makes_ite makes_pure ih

theorem mergeOrResolve_calls :
    (mergeOrResolve cfg jobId task cwd).Makes (Lockless IntegrationCall) := by
  refine (finishBeforeCancel_lockless trivial merge_calls).attempt.bind fun outcome => ?_
  rcases outcome with (_ | message | _ | _ | _) | ⟨⟩
  · exact makes_raise
  · exact (makes_perform ⟨trivial, trivial⟩).bind fun _ => resolveLoop_calls
  all_goals first | exact makes_raise | exact makes_pure

theorem verifyIntegration_calls {preMerge : Str} :
    (verifyIntegration cfg jobId task cwd preMerge).Makes (Lockless IntegrationCall) := by
  refine runGates_calls.bind fun _ => makes_ite makes_pure (liftExn_makes.bind fun _ => ?_)
  refine (repairIntegration_calls.mono fun _ =>
    Lockless.imp fun _ => RepairCall.integrationCall).bind fun _ => ?_
  have hundo : ∀ issue : Str, (atomicToThread (resetHard cwd preMerge) >>= fun _ =>
      recordEvent jobId "integration.rolled_back" [(lit "task", .str task.logicalId.val)]
        task.id >>= fun _ => pure (false, issue)).Makes (Lockless IntegrationCall) := fun issue =>
    (integrationCall_of_quiet (finishBeforeCancel_lockless trivial resetHard_quiet)).bind fun _ =>
      (makes_perform ⟨trivial, trivial⟩).bind fun _ => makes_pure
  refine makes_ite (runGates_calls.bind fun _ => ?_) (hundo _)
  exact makes_pure.bind fun _ => makes_ite makes_pure (hundo _)

theorem integrateBody_calls {preMerge : Str} :
    (integrateBody cfg jobId task cwd preMerge).Makes (Lockless IntegrationCall) := by
  refine mergeOrResolve_calls.bind fun _ => makes_ite (verifyIntegration_calls.bind fun _ => ?_) ?_
  · refine makes_ite ?_ makes_pure
    refine (integrationCall_of_quiet (finishBeforeCancel_lockless trivial head_quiet)).bind
      fun _ => ?_
    exact (makes_perform ⟨trivial, trivial⟩).bind fun _ => makes_pure
  · exact (integrationCall_of_quiet (finishBeforeCancel_lockless trivial abortMerge_quiet)).bind
      fun _ => makes_pure

theorem Quiet.taskReviewCall {e : Effect} (h : Quiet e) : TaskReviewCall e := by
  cases e with
  | reviewTask name goal task diff gates cwd logPath => trivial
  | _ => exact h

theorem reviewLoop_calls {goal : Text} {diff : Str} {gates : List GateResult}
    {attemptNumber : Int} {candidates tried errors : List Str} :
    (reviewLoop cfg jobId task goal diff cwd gates attemptNumber candidates tried errors).Makes
      (Lockless TaskReviewCall) := by
  induction candidates generalizing tried errors with
  | nil => exact makes_pure
  | cons candidate candidates ih =>
    refine (chooseRole_quiet.mono fun _ => Lockless.imp fun _ => Quiet.taskReviewCall).attempt.bind
      fun (choice : Except Raised Str) => ?_
    cases choice with
    | error x => exact makes_ite ih makes_raise
    | ok agentName =>
      refine makes_ite ih (Program.Makes.bind (Program.Makes.attempt ?_) fun reviewed => ?_)
      · exact (makes_perform ⟨trivial, trivial⟩).bind fun _ =>
          (recordEvent_quiet.mono fun _ => Lockless.imp fun _ => Quiet.taskReviewCall).bind
            fun _ => makes_pure
      · cases reviewed with
        | ok review => exact makes_pure
        | error x => exact makes_ite ih makes_raise

theorem reviewTaskResilient_calls {goal : Text} {gates : List GateResult} {attemptNumber : Int} :
    (reviewTaskResilient cfg jobId task goal cwd gates attemptNumber).Makes
      (Lockless TaskReviewCall) :=
  ((finishBeforeCancel_lockless trivial diffWorktree_quiet).mono fun _ =>
    Lockless.imp fun _ => Quiet.taskReviewCall).bind
    fun _ => reviewLoop_calls

end IntegrationCalls

end OmarchyYolo
