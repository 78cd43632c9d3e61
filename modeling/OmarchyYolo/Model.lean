import OmarchyYolo.Lib.PyStr

/-!
# OmarchyYolo.Model — states and results

The enumerations of the durable model and the records that agents, gates,
planner and reviewer exchange.
-/

namespace OmarchyYolo

open Py

/-! ## States -/

inductive JobState where
  | queued
  | planning
  | running
  | stopping
  | stopped
  | completed
  | failed
deriving DecidableEq, Repr

inductive TaskState where
  | pending
  | running
  | reviewing
  | integrating
  | completed
  | failed
  | blocked
  | stopped
deriving DecidableEq, Repr

inductive AttemptState where
  | running
  | passed
  | failed
  | cancelled
deriving DecidableEq, Repr

/-- The stored text of a state. -/
def JobState.value : JobState → String
  | .queued => "queued"
  | .planning => "planning"
  | .running => "running"
  | .stopping => "stopping"
  | .stopped => "stopped"
  | .completed => "completed"
  | .failed => "failed"

def TaskState.value : TaskState → String
  | .pending => "pending"
  | .running => "running"
  | .reviewing => "reviewing"
  | .integrating => "integrating"
  | .completed => "completed"
  | .failed => "failed"
  | .blocked => "blocked"
  | .stopped => "stopped"

def AttemptState.value : AttemptState → String
  | .running => "running"
  | .passed => "passed"
  | .failed => "failed"
  | .cancelled => "cancelled"

def JobState.all : List JobState :=
  [.queued, .planning, .running, .stopping, .stopped, .completed, .failed]

def TaskState.all : List TaskState :=
  [.pending, .running, .reviewing, .integrating, .completed, .failed, .blocked, .stopped]

def AttemptState.all : List AttemptState :=
  [.running, .passed, .failed, .cancelled]

/-- `JobState(text)`: `none` when it raises `ValueError`. -/
def JobState.ofValue? (text : Str) : Option JobState :=
  JobState.all.find? fun state => lit state.value == text

/-- `TaskState(text)`. -/
def TaskState.ofValue? (text : Str) : Option TaskState :=
  TaskState.all.find? fun state => lit state.value == text

/-- `AttemptState(text)`. -/
def AttemptState.ofValue? (text : Str) : Option AttemptState :=
  AttemptState.all.find? fun state => lit state.value == text

/-- How far acceptance has come; the column's check constraint admits no other text. -/
inductive AcceptancePhase where
  | none
  | accepted
  | applying
  | published
deriving DecidableEq, Repr

/-- Whether the job is to be applied to the source branch. -/
inductive SourceApplyIntent where
  | requested
  | notRequested
deriving DecidableEq, Repr

/-- What became of the source branch; `none` until the job is published. -/
inductive SourceApplyOutcome where
  | none
  | applied
  | skipped
  | notRequested
deriving DecidableEq, Repr

def AcceptancePhase.value : AcceptancePhase → String
  | .none => "none"
  | .accepted => "accepted"
  | .applying => "applying"
  | .published => "published"

def SourceApplyIntent.value : SourceApplyIntent → String
  | .requested => "requested"
  | .notRequested => "not-requested"

def SourceApplyOutcome.value : SourceApplyOutcome → String
  | .none => ""
  | .applied => "applied"
  | .skipped => "skipped"
  | .notRequested => "not-requested"

/-! ## Results -/

structure PlannedTask where
  logicalId : Str
  title : Str
  description : Str
  dependsOn : List Str := []
  acceptance : List Str := []
  preferredAgent : Option Str := none
  risk : Str := lit "medium"
deriving DecidableEq, Repr

structure ReviewResult where
  verdict : Str
  summary : Str
  findings : List Str := []
deriving DecidableEq, Repr

def ReviewResult.passed (r : ReviewResult) : Bool := r.verdict == lit "pass"

structure AgentResult where
  returncode : Int
  stdout : Str
  stderr : Str
deriving DecidableEq, Repr

def AgentResult.ok (r : AgentResult) : Bool := r.returncode == 0

structure GateResult where
  command : Str
  returncode : Int
  stdout : Str
  stderr : Str
  timedOut : Bool := false
deriving DecidableEq, Repr

def GateResult.ok (r : GateResult) : Bool := r.returncode == 0 && !r.timedOut

end OmarchyYolo
