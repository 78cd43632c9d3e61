import OmarchyYolo.Model
import OmarchyYolo.Util

/-!
# OmarchyYolo.StateMachine — the reference state machine

The three transition tables and the validators that the store calls: of one
transition, and of a job together with its tasks and running attempts.
-/

namespace OmarchyYolo

open Py

/-! ## Transitions -/

/-- `JOB_TRANSITIONS`. -/
def jobTransitions : JobState → List JobState
  | .queued => [.queued, .planning, .running, .stopping, .failed]
  | .planning => [.planning, .running, .queued, .stopping, .failed]
  | .running => [.running, .queued, .stopping, .completed, .failed]
  | .stopping => [.stopping, .stopped, .queued, .completed, .failed]
  | .stopped => [.stopped, .queued]
  | .failed => [.failed, .queued]
  | .completed => [.completed]

/-- `TASK_TRANSITIONS`. -/
def taskTransitions : TaskState → List TaskState
  | .pending => [.pending, .running, .blocked, .stopped, .failed]
  | .running => [.running, .reviewing, .pending, .failed, .stopped]
  | .reviewing => [.reviewing, .integrating, .pending, .failed, .stopped]
  | .integrating => [.integrating, .pending, .completed, .failed, .stopped]
  | .completed => [.completed]
  | .failed => [.failed, .pending]
  | .blocked => [.blocked, .pending, .failed, .stopped]
  | .stopped => [.stopped, .pending]

/-- `ATTEMPT_TRANSITIONS`. -/
def attemptTransitions : AttemptState → List AttemptState
  | .running => [.running, .passed, .failed, .cancelled]
  | .passed => [.passed]
  | .failed => [.failed]
  | .cancelled => [.cancelled]

/-- `item in INFLIGHT_TASK_STATES`. -/
def TaskState.inflight (state : TaskState) : Bool :=
  state ∈ [TaskState.running, TaskState.reviewing, TaskState.integrating]

/-- `state in TERMINAL_JOB_STATES`. -/
def JobState.terminal (state : JobState) : Bool :=
  state ∈ [JobState.stopped, JobState.completed, JobState.failed]

theorem mem_jobTransitions_self (state : JobState) : state ∈ jobTransitions state := by
  cases state <;> decide

theorem mem_taskTransitions_self (state : TaskState) : state ∈ taskTransitions state := by
  cases state <;> decide

theorem mem_attemptTransitions_self (state : AttemptState) :
    state ∈ attemptTransitions state := by
  cases state <;> decide

/-- A job in no terminal state can be queued again. -/
theorem queued_mem_jobTransitions {state : JobState} (h : state.terminal = false) :
    JobState.queued ∈ jobTransitions state := by
  cases state <;> revert h <;> decide

/-- A job in no terminal state can be stopped. -/
theorem stopping_mem_jobTransitions {state : JobState} (h : state.terminal = false) :
    JobState.stopping ∈ jobTransitions state := by
  cases state <;> revert h <;> decide

/-- Work in flight can be closed in any of the three ways settling closes it. -/
theorem inflight_taskTransitions {state target : TaskState} (h : state.inflight = true)
    (htarget : target ∈ [TaskState.pending, TaskState.failed, TaskState.stopped]) :
    target ∈ taskTransitions state := by
  cases state <;> cases target <;> revert h htarget <;> decide

/-- Everything but completed work can be scheduled again. -/
theorem pending_mem_taskTransitions {state : TaskState} (h : state ≠ .completed) :
    TaskState.pending ∈ taskTransitions state := by
  cases state <;> first | exact absurd rfl h | decide

/-! ## Validators -/

def stateTransitionError {α : Type} (message : Str) : Except Exn α :=
  .error (.stateTransitionError message)

/-- `if condition: raise StateTransitionError(message)`. -/
def forbidIf (condition : Prop) [Decidable condition] (message : Str) : Except Exn Unit :=
  if condition then stateTransitionError message else .ok ()

@[simp] theorem forbidIf_eq_ok {condition : Prop} [Decidable condition] {message : Str}
    {u : Unit} : forbidIf condition message = .ok u ↔ ¬ condition := by
  unfold forbidIf
  split_ifs with h
  · exact ⟨nofun, fun h' => absurd h h'⟩
  · exact ⟨fun _ => h, fun _ => rfl⟩

/-- What the three transition validators share. -/
def validateTransition {S : Type} [DecidableEq S] (table : S → List S) (value : S → String)
    (kind : String) (source destination : S) : Except Exn Unit :=
  forbidIf (destination ∉ table source)
    (lit ("illegal " ++ kind ++ " state transition: ") ++ lit (value source) ++ lit " -> " ++
      lit (value destination))

def validateJobTransition : JobState → JobState → Except Exn Unit :=
  validateTransition jobTransitions JobState.value "job"

def validateTaskTransition : TaskState → TaskState → Except Exn Unit :=
  validateTransition taskTransitions TaskState.value "task"

def validateAttemptTransition : AttemptState → AttemptState → Except Exn Unit :=
  validateTransition attemptTransitions AttemptState.value "attempt"

theorem validateTransition_eq_ok {S : Type} [DecidableEq S] {table : S → List S}
    {value : S → String} {kind : String} {source destination : S} {u : Unit} :
    validateTransition table value kind source destination = .ok u ↔
      destination ∈ table source := by
  simp [validateTransition]

@[simp] theorem validateJobTransition_eq_ok {source destination : JobState} {u : Unit} :
    validateJobTransition source destination = .ok u ↔ destination ∈ jobTransitions source :=
  validateTransition_eq_ok

@[simp] theorem validateTaskTransition_eq_ok {source destination : TaskState} {u : Unit} :
    validateTaskTransition source destination = .ok u ↔ destination ∈ taskTransitions source :=
  validateTransition_eq_ok

@[simp] theorem validateAttemptTransition_eq_ok {source destination : AttemptState} {u : Unit} :
    validateAttemptTransition source destination = .ok u ↔
      destination ∈ attemptTransitions source :=
  validateTransition_eq_ok

/-- What `validate_job_snapshot` validates: a job, the states of its tasks, and
the states of the tasks that own a running attempt. -/
structure JobSnapshot where
  state : JobState
  tasks : List TaskState
  runningOwners : List TaskState
  stopRequested : Bool
  acceptancePhase : Option AcceptancePhase
deriving DecidableEq, Repr

/-- `validate_job_snapshot`. -/
def validateJobSnapshot (snapshot : JobSnapshot) : Except Exn Unit := do
  let { state, tasks, runningOwners, stopRequested, acceptancePhase } := snapshot
  forbidIf (state = .completed ∧ ∃ item ∈ tasks, item ≠ .completed)
    (lit "completed job contains a non-completed task")
  forbidIf (state ∈ [JobState.queued, .stopped, .failed] ∧ ∃ item ∈ tasks, item.inflight = true)
    (lit state.value ++ lit " job contains an in-flight task")
  forbidIf (state = .stopped ∧ stopRequested = false)
    (lit "stopped job must preserve stop_requested")
  forbidIf (state = .completed ∧ stopRequested = true)
    (lit "completed job cannot retain stop_requested")
  forbidIf (runningOwners ≠ [] ∧ state ∉ [JobState.running, .stopping])
    (lit state.value ++ lit " job cannot retain a running attempt")
  forbidIf (∃ owner ∈ runningOwners, owner.inflight = false)
    (lit "running attempt belongs to a task that is not in flight")
  match acceptancePhase with
  | none => return
  | some phase => do
    forbidIf (phase ∈ [AcceptancePhase.accepted, .applying, .published] ∧
        ∃ item ∈ tasks, item ≠ .completed)
      (lit "acceptance phase " ++ lit phase.value ++ lit " contains a non-completed task")
    forbidIf (phase ∈ [AcceptancePhase.accepted, .applying, .published] ∧ runningOwners ≠ [])
      (lit "acceptance phase " ++ lit phase.value ++ lit " cannot retain a running attempt")
    forbidIf (phase ∈ [AcceptancePhase.accepted, .applying] ∧
        state ∉ [JobState.running, .stopping])
      (lit "acceptance phase " ++ lit phase.value ++ lit " requires running or stopping job state")
    forbidIf (phase = .published ∧ state ≠ .completed)
      (lit "published acceptance requires completed job state")
    forbidIf (state = .completed ∧ phase ≠ .published)
      (lit "completed job requires published acceptance phase")

/-! ## What a validated snapshot satisfies -/

/-- The conditions `validate_job_snapshot` checks for a durable job. -/
structure JobSnapshot.Valid (state : JobState) (tasks runningOwners : List TaskState)
    (stopRequested : Bool) (phase : AcceptancePhase) : Prop where
  completed_tasks : state = .completed → ∀ item ∈ tasks, item = .completed
  settled_tasks : state ∈ [JobState.queued, .stopped, .failed] →
    ∀ item ∈ tasks, item.inflight = false
  stopped_stop : state = .stopped → stopRequested = true
  completed_stop : state = .completed → stopRequested = false
  running_state : runningOwners ≠ [] → state ∈ [JobState.running, .stopping]
  running_inflight : ∀ owner ∈ runningOwners, owner.inflight = true
  accepted_tasks : phase ≠ .none → ∀ item ∈ tasks, item = .completed
  accepted_running : phase ≠ .none → runningOwners = []
  accepted_state : phase ∈ [AcceptancePhase.accepted, .applying] →
    state ∈ [JobState.running, .stopping]
  published_iff : phase = .published ↔ state = .completed

theorem AcceptancePhase.mem_begun {phase : AcceptancePhase} :
    phase ∈ [AcceptancePhase.accepted, .applying, .published] ↔ phase ≠ .none := by
  cases phase <;> decide

theorem validateJobSnapshot_eq_ok {state : JobState} {tasks runningOwners : List TaskState}
    {stopRequested : Bool} {phase : AcceptancePhase} {u : Unit} :
    validateJobSnapshot ⟨state, tasks, runningOwners, stopRequested, some phase⟩ = .ok u ↔
      JobSnapshot.Valid state tasks runningOwners stopRequested phase := by
  simp only [validateJobSnapshot, bind_ok_iff, forbidIf_eq_ok, AcceptancePhase.mem_begun,
    exists_const, not_and, not_exists, Decidable.not_not, Bool.not_eq_false, Bool.not_eq_true,
    ne_eq]
  constructor
  · rintro ⟨h₁, h₂, h₃, h₄, h₅, h₆, h₇, h₈, h₉, h₁₀, h₁₁⟩
    exact ⟨h₁, h₂, h₃, h₄, h₅, h₆, h₇, h₈, h₉, h₁₀, h₁₁⟩
  · intro h
    exact ⟨h.completed_tasks, h.settled_tasks, h.stopped_stop, h.completed_stop, h.running_state,
      h.running_inflight, h.accepted_tasks, h.accepted_running, h.accepted_state,
      h.published_iff.mp, h.published_iff.mpr⟩

end OmarchyYolo
