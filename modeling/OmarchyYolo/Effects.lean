import OmarchyYolo.Database
import OmarchyYolo.Lib.Program

/-!
# OmarchyYolo.Effects — what the orchestrator calls

The orchestrator's coroutines are programs over the calls below: operations of
the database, agents, gates and reviewers, and commands of Git in a worktree.
What a call replies and how it changes the world is left to a handler.

* `Raised` — the exceptions, `Effect` — the calls, `Effect.Reply` — their replies;
* `atomicToThread`, `finishBeforeCancel` — the two ways of deferring a cancellation;
* `EngineConfig` — the configuration the programs read.
-/

namespace OmarchyYolo

open Py PyJson Calls

/-- An exception, with its text. -/
inductive Raised where
  | cancelledError
  | mergeConflict (message : Str)
  | gitError (message : Str)
  | yoloError (message : Str)
  /-- Any other exception. -/
  | error (message : Str)
deriving DecidableEq, Repr

namespace Raised

/-- `except Exception`. -/
def isException : Raised → Bool
  | cancelledError => false
  | _ => true

/-- `except YoloError`. -/
def isYoloError : Raised → Bool
  | mergeConflict _ | gitError _ | yoloError _ => true
  | _ => false

/-- `except GitError`; a merge conflict is one. -/
def isGitError : Raised → Bool
  | mergeConflict _ | gitError _ => true
  | _ => false

/-- `str(exc)`. -/
def message : Raised → Str
  | cancelledError => []
  | mergeConflict message | gitError message | yoloError message | error message => message

end Raised

/-! ## Calls -/

inductive AgentRole where
  | planner
  | worker
  | reviewer
  | integrator
deriving DecidableEq, Repr

/-- What an agent is asked: the arguments of `worker_prompt`, or those of the
integrator's template, with the issue of a merge by its parts. -/
inductive Prompt where
  | work (goal : Text) (task : TaskRow) (retryContext : Str)
  | resolve (goal : Text) (task : TaskRow) (originalError : Str) (unresolved : List Str)
  | repair (goal : Text) (issue : Str)
deriving DecidableEq, Repr

/-- The commands that `GitRepo` runs in a worktree. -/
inductive GitCommand where
  /-- `assert_worktree`. -/
  | assertWorktree (expectedBranch : Option Str)
  /-- `rev-parse HEAD`. -/
  | head
  /-- `status --porcelain`: whether it prints nothing. -/
  | isClean
  /-- `diff --name-only --diff-filter=U`. -/
  | unresolved
  /-- Whether `MERGE_HEAD` exists. -/
  | mergeHeadExists
  /-- `diff base..HEAD`. -/
  | diff (base : Str)
  /-- `add -A`. -/
  | addAll
  /-- `commit`, with the message of the merge if there is no other. -/
  | commit (message : Option Str)
  /-- `merge --no-ff`: the text it prints when it exits with an error. -/
  | merge (branch : Str)
  /-- `merge --abort`. -/
  | mergeAbort
  /-- `reset --hard`. -/
  | resetHard (commit : Str)
  /-- `clean -ffdx`. -/
  | clean
deriving DecidableEq, Repr

/-- The commands that change the repository's topology. -/
inductive TopologyCommand where
  /-- `check-ref-format --branch`. -/
  | validateBranchName (branch : Str)
  /-- `show-ref --verify refs/heads/...`. -/
  | branchExists (branch : Str)
  /-- `ensure_private_dir(path.parent)`. -/
  | ensureParent (path : Str)
  /-- `path.exists() or path.is_symlink()`. -/
  | pathExists (path : Str)
  /-- `path.is_symlink()`. -/
  | isSymlink (path : Str)
  /-- `(path / ".git").exists()`. -/
  | gitFileExists (path : Str)
  /-- `worktree add -b branch path ref`. -/
  | addNewBranch (branch path ref : Str)
  /-- `worktree add path branch`. -/
  | addWorktree (path branch : Str)
  /-- `worktree prune`. -/
  | prune
  /-- `branch -- branch ref`. -/
  | createBranch (branch ref : Str)
  /-- `worktree remove --force`, or what follows when it exits with an error. -/
  | removeWorktree (path : Str)
  /-- `branch -D`. -/
  | deleteBranch (branch : Str)
deriving DecidableEq, Repr

/-- The locks; a coroutine that waits for one may be cancelled. -/
inductive Lock where
  /-- `_merge_lock`. -/
  | merge
  /-- `repo_lock(repo.root)`. -/
  | repo
  /-- `worker_slot()`. -/
  | workerSlot
deriving DecidableEq, Repr

inductive Effect where
  | getJob (jobId : Text)
  | getTask (taskId : Text)
  | updateTask (taskId : Text) (fields : TaskFields)
  | startAttempt (args : NewAttempt)
  | finishAttempt (attemptId : Text) (state : Str) (returncode : Option Int) (summary : Str)
  | event (jobId : Text) (kind : Str) (payload : Members NonFinite) (taskId : Option Text)
  /-- `registry.available`. -/
  | available (role : AgentRole)
  /-- `registry.first_available`. -/
  | firstAvailable (names : List Str) (role : AgentRole)
  /-- `registry.choose_role`. -/
  | chooseRole (candidate : Str) (names : List Str) (role : AgentRole)
  /-- `registry.get(name).run`. -/
  | runAgent (name : Str) (prompt : Prompt) (cwd logPath : Str)
  /-- `gates.run`, of the configured or detected commands. -/
  | runGates (final : Bool) (cwd logPath : Str)
  /-- `reviewer.review_task`. -/
  | reviewTask (name : Str) (goal : Text) (task : TaskRow) (diff : Str)
      (gates : List GateResult) (cwd logPath : Str)
  | git (cwd : Str) (command : GitCommand)
  | topology (command : TopologyCommand)
  | acquire (lock : Lock)
  | release (lock : Lock)
  /-- An await at which a cancellation may arrive. -/
  | suspend

def GitCommand.Reply : GitCommand → Type
  | head | diff _ => Str
  | isClean | mergeHeadExists => Bool
  | unresolved => List Str
  | merge _ => Option Str
  | _ => Unit

def TopologyCommand.Reply : TopologyCommand → Type
  | branchExists _ | pathExists _ | isSymlink _ | gitFileExists _ => Bool
  | _ => Unit

def Effect.Reply : Effect → Type
  | getJob _ => JobRow
  | getTask _ => TaskRow
  | startAttempt _ => Text
  | available _ => List Str
  | firstAvailable _ _ | chooseRole _ _ _ => Str
  | runAgent _ _ _ _ => AgentResult
  | runGates _ _ _ => List GateResult
  | reviewTask _ _ _ _ _ _ _ => ReviewResult
  | git _ command => command.Reply
  | topology command => command.Reply
  | _ => Unit

/-- A coroutine. -/
abbrev Coroutine := Program Effect Effect.Reply Raised

section Operations

variable {α : Type}

def perform (e : Effect) : Coroutine e.Reply := Program.perform e

def gitCommand (cwd : Str) (command : GitCommand) : Coroutine command.Reply :=
  perform (Effect.git cwd command)

def topologyCommand (command : TopologyCommand) : Coroutine command.Reply :=
  perform (Effect.topology command)

def suspend : Coroutine Unit := perform Effect.suspend

/-- `try: p except E: handler`, for the exceptions of a class. -/
def exceptWhen (caught : Raised → Bool) (p : Coroutine α) (handler : Raised → Coroutine α) :
    Coroutine α :=
  p.tryCatch fun x => if caught x then handler x else .raise x

/-- `async with lock`. -/
def withLock (lock : Lock) (p : Coroutine α) : Coroutine α := do
  perform (.acquire lock)
  let outcome ← p.attempt
  perform (.release lock)
  .ofExcept outcome

/-- The exception of a function that is no coroutine; its text is that of a
`YoloError`, and is not modelled for the others. -/
def Raised.ofExn : Exn → Raised
  | .yoloError message _ => .yoloError message
  | .stateTransitionError message => .yoloError message
  | _ => .error []

def liftExn : Except Exn α → Coroutine α
  | .ok a => .ret a
  | .error e => .raise (.ofExn e)

/-- `finish_before_cancel`: a cancellation that arrives meanwhile is raised at the end,
whatever the outcome. -/
def finishBeforeCancel (p : Coroutine α) : Coroutine α := do
  let outcome ← p.attempt
  suspend
  .ofExcept outcome

/-- `atomic_to_thread`, of a function that a thread runs. -/
def atomicToThread (p : Coroutine α) : Coroutine α := finishBeforeCancel p

/-- `asyncio.to_thread`, of a function that changes nothing: a cancellation may leave
the thread behind. -/
def toThread (p : Coroutine α) : Coroutine α := finishBeforeCancel p

/-- An event without task. -/
def recordEvent (jobId : Text) (kind : String) (payload : List (Str × Json NonFinite))
    (taskId : Option Text := none) : Coroutine Unit :=
  perform (Effect.event jobId (lit kind) (.ofList payload) taskId)

end Operations

/-! ## Configuration -/

structure EngineConfig where
  branchPrefix : Str
  worktreesDir : Str
  logsDir : Str
  workerAgents : List Str
  reviewerAgent : Str
  integratorAgent : Str
  maxAttempts : Nat
  maxFinalCycles : Nat
  cleanupWorktrees : Bool
deriving DecidableEq, Repr

/-- Two workers, and two attempts. -/
def smallEngine : EngineConfig where
  branchPrefix := lit "yolo"
  worktreesDir := lit "/worktrees"
  logsDir := lit "/logs"
  workerAgents := [lit "claude", lit "codex"]
  reviewerAgent := lit "codex"
  integratorAgent := lit "claude"
  maxAttempts := 2
  maxFinalCycles := 2
  cleanupWorktrees := true

end OmarchyYolo
