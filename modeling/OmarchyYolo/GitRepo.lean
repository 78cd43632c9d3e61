import OmarchyYolo.Effects

/-!
# OmarchyYolo.GitRepo — the operations on worktrees

The methods of `GitRepo` that the task loop and the integration call, as
sequences of Git commands. Each command may raise `GitError`, with its effect
done, half done or not begun.
-/

namespace OmarchyYolo

open Py Calls

/-- `", ".join(...)`. -/
def joinNames (names : List Str) : Str := List.intercalate (lit ", ") names

def raiseGit {α : Type} (message : Str) : Coroutine α := .raise (.gitError message)

/-- What the `HEAD` of a worktree is. -/
inductive Head where
  | branch (name : Str)
  | detached (commit : Str)
deriving DecidableEq, Repr

/-- The commands that may change a worktree. -/
def GitCommand.writes : GitCommand → Bool
  | .addAll | .commit _ | .merge _ | .mergeAbort | .resetHard _ | .clean => true
  | _ => false

/-! ## Contents of a worktree -/

section Worktree

variable (cwd : Str)

/-- `head`. -/
def head : Coroutine Str := gitCommand cwd .head

/-- `is_clean`. -/
def isClean : Coroutine Bool := gitCommand cwd .isClean

/-- `commit_all`. -/
def commitAll (message : Str) : Coroutine Str := do
  gitCommand cwd (.assertWorktree none)
  if ← isClean cwd then head cwd
  else do
    gitCommand cwd .addAll
    gitCommand cwd (.commit (some message))
    head cwd

/-- `diff`. -/
def diffWorktree (base : Str) : Coroutine Str := do
  gitCommand cwd (.assertWorktree none)
  gitCommand cwd (.diff base)

/-- `unresolved_files`. -/
def unresolvedFiles : Coroutine (List Str) := do
  gitCommand cwd (.assertWorktree none)
  gitCommand cwd .unresolved

/-- `merge_in_progress`. -/
def mergeInProgress : Coroutine Bool := do
  gitCommand cwd (.assertWorktree none)
  gitCommand cwd .mergeHeadExists

/-- `merge`. -/
def merge (branch : Str) : Coroutine Unit := do
  gitCommand cwd (.assertWorktree none)
  topologyCommand (.validateBranchName branch)
  match ← gitCommand cwd (.merge branch) with
  | none => return ()
  | some stderr => do
    let unresolved ← unresolvedFiles cwd
    if unresolved ≠ [] then
      .raise (.mergeConflict (lit "merge conflict: " ++ joinNames unresolved))
    else raiseGit (lit "merge failed: " ++ strip stderr)

/-- `finish_merge`. -/
def finishMerge : Coroutine Unit := do
  gitCommand cwd (.assertWorktree none)
  let unresolved ← unresolvedFiles cwd
  if unresolved ≠ [] then
    .raise (.mergeConflict (lit "unresolved merge files remain: " ++ joinNames unresolved))
  else do
    gitCommand cwd .addAll
    if ← mergeInProgress cwd then gitCommand cwd (.commit none)
    else if ← isClean cwd then return ()
    else do
      let _ ← commitAll cwd (lit "yolo: resolve integration")

/-- `abort_merge`. -/
def abortMerge : Coroutine Unit := do
  gitCommand cwd (.assertWorktree none)
  if ← mergeInProgress cwd then gitCommand cwd .mergeAbort
  else return ()

/-- `reset_hard`. -/
def resetHard (commit : Str) : Coroutine Unit := do
  gitCommand cwd (.assertWorktree none)
  gitCommand cwd (.resetHard commit)
  gitCommand cwd .clean

end Worktree

/-! ## Worktrees and branches -/

section Topology

def pathExists (path : Str) : Coroutine Bool := topologyCommand (.pathExists path)

def isSymlink (path : Str) : Coroutine Bool := topologyCommand (.isSymlink path)

def gitFileExists (path : Str) : Coroutine Bool := topologyCommand (.gitFileExists path)

/-- `branch_exists`. -/
def branchExists (branch : Str) : Coroutine Bool := do
  topologyCommand (.validateBranchName branch)
  topologyCommand (.branchExists branch)

/-- `remove_worktree`. -/
def removeWorktree (path : Str) : Coroutine Unit := do
  if ← pathExists path then
    if ← isSymlink path then
      raiseGit (lit "refusing symlink at worktree path: " ++ path)
    else do
      gitCommand path (.assertWorktree none)
      topologyCommand (.removeWorktree path)
  else topologyCommand .prune

/-- `ensure_worktree`. -/
def ensureWorktree (path branch ref : Str) : Coroutine Unit := do
  topologyCommand (.validateBranchName branch)
  topologyCommand (.ensureParent path)
  if ← pathExists path then
    if ← isSymlink path then
      raiseGit (lit "refusing symlink at worktree path: " ++ path)
    else do
      gitCommand path (.assertWorktree none)
      removeWorktree path
  if ← branchExists branch then
    raiseGit (lit "refusing to overwrite existing branch: " ++ branch)
  else do
    topologyCommand (.addNewBranch branch path ref)
    gitCommand path (.assertWorktree (some branch))

/-- `ensure_existing_branch_worktree`. -/
def ensureExistingBranchWorktree (path branch ref : Str) : Coroutine Unit := do
  topologyCommand (.validateBranchName branch)
  topologyCommand (.ensureParent path)
  if ← pathExists path then
    if ← isSymlink path then
      raiseGit (lit "refusing symlink at worktree path: " ++ path)
    else if ← gitFileExists path then
      gitCommand path (.assertWorktree (some branch))
    else raiseGit (lit "refusing to delete unrelated directory at worktree path: " ++ path)
  else do
    topologyCommand .prune
    if ← branchExists branch then pure () else topologyCommand (.createBranch branch ref)
    topologyCommand (.addWorktree path branch)
    gitCommand path (.assertWorktree (some branch))

/-- `delete_branch`. -/
def deleteBranch (branch : Str) : Coroutine Unit := do
  topologyCommand (.validateBranchName branch)
  if ← branchExists branch then topologyCommand (.deleteBranch branch) else return ()

end Topology

end OmarchyYolo
