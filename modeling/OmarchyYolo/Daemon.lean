import Mathlib.Data.List.AList
import OmarchyYolo.Lib.Follows
import OmarchyYolo.StoreInvariants

/-!
# OmarchyYolo.Daemon — the runners of a daemon

The daemon runs `run_job` of a job in an `asyncio.Task` of its own, and
remembers the task in `runners` until a callback forgets it. A request is
handled without interruption between two `await`s: what it does up to the next
`await` is one function here, and one step of the daemon.

* `Daemon.spawn`, `Daemon.consume` — the map from jobs to their runners;
* `Daemon.stop`, `Daemon.resume`, `Daemon.resumed` — the requests;
* `daemon` — requests, recovery, runners and callbacks in any order;
* `one_live_runner` — a job has at most one runner that is not done.
-/

namespace OmarchyYolo

open Py PyJson Sql Txn Lts

/-! ## Runners -/

/-- An `asyncio.Task` of `run_job`. -/
structure Runner where
  jobId : Str
  done : Bool := false
  /-- `cancel()` has been called. -/
  cancelRequested : Bool := false
  /-- The done callback has not run yet. -/
  watched : Bool := true
deriving DecidableEq, Repr

/-- The runners that have been created, by reference, and `self.runners`. -/
structure Daemon where
  tasks : List Runner := []
  runners : AList fun _ : Str => Nat := ∅

namespace Daemon

/-- `task.done()`. -/
def done (self : Daemon) (task : Nat) : Bool := (self.tasks[task]?.map Runner.done).getD true

/-- `self.runners.get(job_id)`, if it is a runner that is not done. -/
def liveRunner? (self : Daemon) (jobId : Str) : Option Nat :=
  (self.runners.lookup jobId).filter fun task => !self.done task

/-- `_spawn`. -/
def spawn (self : Daemon) (jobId : Str) : Daemon :=
  if (self.liveRunner? jobId).isSome then self
  else
    { tasks   := self.tasks ++ [{ jobId := jobId }]
      runners := self.runners.insert jobId self.tasks.length }

/-- `task.cancel()`. -/
def cancel (self : Daemon) (task : Nat) : Daemon :=
  { self with tasks := self.tasks.modify task fun runner =>
    { runner with cancelRequested := true } }

/-- The coroutine of a runner has ended. -/
def finish (self : Daemon) (task : Nat) : Daemon :=
  { self with tasks := self.tasks.modify task fun runner => { runner with done := true } }

/-- `consume`, the done callback of a runner. -/
def consume (self : Daemon) (jobId : Str) (task : Nat) : Daemon where
  tasks   := self.tasks.modify task fun runner => { runner with watched := false }
  runners :=
    if self.runners.lookup jobId = some task then self.runners.erase jobId else self.runners

/-! ## Requests -/

/-- `_submit` after its last `await`; `newId` is the result of `new_id("job")`. -/
def submitted (self : Daemon) (newId : Text) (now : Timestamp) (args : NewJob) :
    StoreDb Daemon := do
  let job ← createJob newId now args
  return self.spawn job.id.val

/-- The end of `stop`: a runner settles its job itself. -/
def stopRunner (self : Daemon) (jobId : Str) (clock : Nat → Timestamp) : StoreDb Daemon :=
  match self.liveRunner? jobId with
  | some task => return self.cancel task
  | none => do
    settleInflight jobId .stopped (lit "cancelled") (lit "stopped by user request") (clock 2)
    updateJob jobId { state := some (lit JobState.stopped.value) } (clock 3)
    jobEvent jobId "job.stopped" (clock 4)
    return self

/-- `stop` in `dispatch`, up to `_status`; `clock n` is the clock when it is read for the `n`-th
time. -/
def stop (self : Daemon) (jobId : Str) (clock : Nat → Timestamp) : StoreDb Daemon := do
  let job ← getJob jobId
  if job.state = .completed then
    throw (.yoloError (lit "completed jobs are immutable") [])
  else if job.state = .stopped then
    return self
  else if job.state = .failed then
    throw (.yoloError (lit "failed job is already inactive; use resume to retry it") [])
  else if job.state = .stopping then
    self.stopRunner jobId clock
  else do
    requestStop jobId (clock 0) (clock 1)
    self.stopRunner jobId clock

/-- `resume` in `dispatch`, up to its `await`: the runner that it waits for, if it does. -/
def resume (self : Daemon) (jobId : Str) : StoreDb (Option Nat) := do
  let job ← getJob jobId
  if job.state = .completed then
    throw (.yoloError (lit "completed jobs are immutable; submit a new goal instead") [])
  else if job.state ∈ [JobState.running, .planning] then
    throw (.yoloError (lit "job is already active") [])
  else
    match self.liveRunner? jobId with
    | some task =>
      if job.state = .stopping then return some task
      else throw (.yoloError (lit "job still has an active runner") [])
    | none => return none

/-- The rest of `resume`, up to `_status`. Where it has not waited, `get_job` returns the job
that it has. -/
def resumed (self : Daemon) (jobId : Str) (clock : Nat → Timestamp) : StoreDb Daemon := do
  let job ← getJob jobId
  if job.state = .queued then
    return self.spawn jobId
  else if job.state ∉ [JobState.failed, .stopped, .stopping] then
    throw (.yoloError (lit "job in state '" ++ lit job.state.value ++ lit "' cannot be resumed") [])
  else do
    prepareResume jobId (clock 0) (clock 1)
    return self.spawn jobId

/-- What `start` does once the server listens. -/
def recover (self : Daemon) (maxVariables : Nat) (now : Timestamp) (at' : Text → Timestamp) :
    StoreDb Daemon := do
  let jobIds ← recoverIncomplete maxVariables now at'
  return jobIds.foldl (fun self jobId => self.spawn jobId.val) self

end Daemon

/-! ## Steps -/

/-- The database, the daemon, and the requests to resume that wait for a runner. -/
structure DaemonState where
  store : Store
  daemon : Daemon := {}
  waiting : List (Str × Nat) := []

/-- What happens next. Between requests, the coroutines of the runners write to the database. -/
inductive DaemonEvent (F : Type) where
  | submit (newId : Text) (now : Timestamp) (args : NewJob)
  | stop (jobId : Str) (clock : Nat → Timestamp)
  | resume (jobId : Str) (clock : Nat → Timestamp)
  /-- `wait_for` ends with the runner, or because the request is cancelled. -/
  | resumeWaited (request : Str × Nat) (clock : Nat → Timestamp)
  /-- `wait_for` ends with a `TimeoutError`. -/
  | resumeTimedOut (request : Str × Nat)
  | status (jobId : Str)
  | recover (maxVariables : Nat) (now : Timestamp) (at' : Text → Timestamp)
  | write (op : Operation F)
  | finish (task : Nat)
  | consume (task : Nat)
  /-- The process ends and another is started. -/
  | restart

namespace DaemonState

/-- The daemon after a request; one that raises has changed the database at most. -/
def after (w : DaemonState) (request : StoreDb Daemon) : DaemonState :=
  match request w.store with
  | .ok daemon store => { w with store := store, daemon := daemon }
  | .error _ store => { w with store := store }

/-- `resume`, up to an `await` or to its end. -/
def resume (w : DaemonState) (jobId : Str) (clock : Nat → Timestamp) : DaemonState :=
  match w.daemon.resume jobId w.store with
  | .ok (some task) store => { w with store := store, waiting := w.waiting ++ [(jobId, task)] }
  | .ok none store => { w with store := store }.after (w.daemon.resumed jobId clock)
  | .error _ store => { w with store := store }

/-- Timers and callbacks run when they are due; the database refuses what it refuses. -/
def Enabled (w : DaemonState) {F : Type} : DaemonEvent F → Prop
  | .resumeWaited request _ => request ∈ w.waiting
  | .resumeTimedOut request => request ∈ w.waiting
  | .finish task => w.daemon.done task = false
  | .consume task => w.daemon.done task = true ∧
      (w.daemon.tasks[task]?.map Runner.watched).getD false = true
  | _ => True

/-- The job of a runner. -/
def jobOf (w : DaemonState) (task : Nat) : Str := (w.daemon.tasks[task]?.map Runner.jobId).getD []

def run {F : Type} [PyFloat F] (sha256 : Str → Str) (w : DaemonState) :
    DaemonEvent F → DaemonState
  | .submit newId now args => w.after (w.daemon.submitted newId now args)
  | .stop jobId clock => w.after (w.daemon.stop jobId clock)
  | .resume jobId clock => w.resume jobId clock
  | .resumeWaited request clock =>
    { w with waiting := w.waiting.erase request }.after (w.daemon.resumed request.1 clock)
  | .resumeTimedOut request => { w with waiting := w.waiting.erase request }
  | .status _ => w
  | .recover maxVariables now at' => w.after (w.daemon.recover maxVariables now at')
  | .write op => w.after (do op.run sha256; return w.daemon)
  | .finish task => { w with daemon := w.daemon.finish task }
  | .consume task => { w with daemon := w.daemon.consume (w.jobOf task) task }
  | .restart => { store := w.store }

end DaemonState

/-- The daemon on a database, until it shuts down. -/
def daemon (F : Type) [PyFloat F] (sha256 : Str → Str) : System DaemonState (DaemonEvent F) where
  init w := ∃ s, w = { store := s }
  step w e w' := w.Enabled e ∧ w' = w.run sha256 e

/-! ## One runner -/

/-- A runner of a job that is not done. -/
def Daemon.Live (self : Daemon) (jobId : Str) (task : Nat) : Prop :=
  ∃ runner, self.tasks[task]? = some runner ∧ runner.jobId = jobId ∧ runner.done = false

/-- `runners` has the runners that are not done. -/
def Daemon.Mapped (self : Daemon) : Prop :=
  ∀ jobId task, self.Live jobId task → self.runners.lookup jobId = some task

namespace Daemon

variable {self : Daemon} {jobId other : Str} {task : Nat}

theorem Mapped.liveRunner? (h : self.Mapped) (hlive : self.Live jobId task) :
    self.liveRunner? jobId = some task := by
  obtain ⟨runner, hrunner, -, hdone⟩ := id hlive
  have hnot : self.done task = false := by
    rw [done, hrunner]
    exact hdone
  rw [Daemon.liveRunner?, h jobId task hlive, Option.filter_some, hnot]
  rfl

/-- A runner that is live after a change to one of them has been live before. -/
theorem Live.of_modify {self' : Daemon} {f : Runner → Runner} {changed : Nat}
    (hself : self'.tasks = self.tasks.modify changed f)
    (hjob : ∀ runner, (f runner).jobId = runner.jobId)
    (hdone : ∀ runner, (f runner).done = false → runner.done = false)
    (h : self'.Live jobId task) : self.Live jobId task := by
  obtain ⟨runner, hrunner, hid, hlive⟩ := h
  rw [hself, List.getElem?_modify] at hrunner
  obtain ⟨before, hbefore, rfl⟩ := Option.map_eq_some_iff.mp hrunner
  refine ⟨before, hbefore, ?_, ?_⟩
  · split_ifs at hid
    · rwa [hjob] at hid
    · exact hid
  · split_ifs at hlive
    · exact hdone before hlive
    · exact hlive

/-- `_spawn` has no effect where a runner is live, and creates the only one where none is. -/
theorem Mapped.spawn (h : self.Mapped) (jobId : Str) : (self.spawn jobId).Mapped := by
  unfold Daemon.spawn
  split_ifs with hlive
  · exact h
  intro other task hother
  obtain ⟨runner, hrunner, hid, hdone⟩ := hother
  show (self.runners.insert jobId self.tasks.length).lookup other = some task
  have hget : (self.tasks ++ [{ jobId := jobId }])[task]? = some runner := hrunner
  rcases Nat.lt_trichotomy task self.tasks.length with hlt | rfl | hgt
  · -- a runner that has been there: it is of another job
    rw [List.getElem?_append_left hlt] at hget
    have hold : self.Live other task := ⟨runner, hget, hid, hdone⟩
    have hne : other ≠ jobId := by
      rintro rfl
      rw [h.liveRunner? hold] at hlive
      exact hlive rfl
    rw [AList.lookup_insert_ne hne]
    exact h other task hold
  · rw [List.getElem?_concat_length] at hget
    cases hget
    obtain rfl : jobId = other := hid
    exact AList.lookup_insert _
  · rw [List.getElem?_eq_none (by rw [List.length_append, List.length_singleton]; omega)] at hget
    cases hget

theorem Mapped.cancel (h : self.Mapped) (task : Nat) : (self.cancel task).Mapped := by
  intro jobId other hlive
  have hsame : (self.cancel task).tasks =
    self.tasks.modify task fun runner => { runner with cancelRequested := true } := rfl
  exact h jobId other (hlive.of_modify hsame (fun _ => rfl) fun _ hdone => hdone)

theorem Mapped.finish (h : self.Mapped) (task : Nat) : (self.finish task).Mapped := by
  intro jobId other hlive
  have hsame : (self.finish task).tasks =
    self.tasks.modify task fun runner => { runner with done := true } := rfl
  exact h jobId other (hlive.of_modify hsame (fun _ => rfl) fun _ hdone => absurd hdone nofun)

/-- The callback forgets a runner that is done, and no other. -/
theorem Mapped.consume (h : self.Mapped) (hdone : ∀ other, ¬ self.Live other task)
    (jobId : Str) : (self.consume jobId task).Mapped := by
  intro other task' hlive
  have hsame : (self.consume jobId task).tasks =
    self.tasks.modify task fun runner => { runner with watched := false } := rfl
  have hold : self.Live other task' := hlive.of_modify hsame (fun _ => rfl) fun _ hdone => hdone
  have hlookup := h other task' hold
  show (if self.runners.lookup jobId = some task then self.runners.erase jobId
    else self.runners).lookup other = some task'
  split_ifs with hown
  · have hne : other ≠ jobId := by
      rintro rfl
      obtain rfl : task = task' := Option.some.inj (hown.symm.trans hlookup)
      exact hdone other hold
    rw [AList.lookup_erase_ne hne, hlookup]
  · exact hlookup

/-! ## What the requests make of the runners -/

section Requests

variable (h : self.Mapped) (clock : Nat → Timestamp)
include h

theorem Mapped.submitted (newId : Text) (now : Timestamp) (args : NewJob) :
    Replies Mapped (self.submitted newId now args) :=
  .bind fun job => .pure (h.spawn job.id.val)

theorem Mapped.stopRunner (jobId : Str) : Replies Mapped (self.stopRunner jobId clock) := by
  unfold Daemon.stopRunner
  cases self.liveRunner? jobId with
  | some task => exact .pure (h.cancel task)
  | none => exact .bind fun _ => .bind fun _ => .bind fun _ => .pure h

theorem Mapped.stop (jobId : Str) : Replies Mapped (self.stop jobId clock) :=
  .bind fun _ => .ite (.throw _) <| .ite (.pure h) <| .ite (.throw _) <|
    .ite (h.stopRunner clock jobId) <| .bind fun _ => h.stopRunner clock jobId

theorem Mapped.resumed (jobId : Str) : Replies Mapped (self.resumed jobId clock) :=
  .bind fun _ => .ite (.pure (h.spawn jobId)) <| .ite (.throw _) <|
    .bind fun _ => .pure (h.spawn jobId)

theorem Mapped.recover (maxVariables : Nat) (now : Timestamp) (at' : Text → Timestamp) :
    Replies Mapped (self.recover maxVariables now at') := by
  apply Replies.bind
  intro jobIds
  apply Replies.pure
  clear now at'
  induction jobIds generalizing self with
  | nil => exact h
  | cons jobId jobIds ih => exact ih (h.spawn jobId.val)

end Requests

end Daemon

/-! ## Any order -/

section Order

variable {F : Type} [PyFloat F] {sha256 : Str → Str} {w w' : DaemonState}

theorem DaemonState.after_mapped (h : w.daemon.Mapped) {request : StoreDb Daemon}
    (hrequest : Replies Daemon.Mapped request) : (w.after request).daemon.Mapped := by
  unfold DaemonState.after
  cases hrun : request w.store with
  | ok daemon store => exact hrequest _ _ _ hrun
  | error e store => exact h

theorem DaemonState.resume_mapped (h : w.daemon.Mapped) (jobId : Str)
    (clock : Nat → Timestamp) : (w.resume jobId clock).daemon.Mapped := by
  unfold DaemonState.resume
  cases w.daemon.resume jobId w.store with
  | error e store => exact h
  | ok task? store =>
    cases task? with
    | some task => exact h
    | none =>
      exact DaemonState.after_mapped (w := { w with store := store }) h (h.resumed clock jobId)

theorem step_mapped {e : DaemonEvent F} (h : w.daemon.Mapped) (hready : w.Enabled e) :
    (w.run sha256 e).daemon.Mapped := by
  cases e with
  | submit newId now args => exact DaemonState.after_mapped h (h.submitted newId now args)
  | stop jobId clock => exact DaemonState.after_mapped h (h.stop clock jobId)
  | resume jobId clock => exact DaemonState.resume_mapped h jobId clock
  | resumeWaited request clock =>
    exact DaemonState.after_mapped (w := { w with waiting := w.waiting.erase request }) h
      (h.resumed clock request.1)
  | resumeTimedOut request => exact h
  | status jobId => exact h
  | recover maxVariables now at' =>
    exact DaemonState.after_mapped h (h.recover maxVariables now at')
  | write op => exact DaemonState.after_mapped h (.bind fun _ => .pure h)
  | finish task => exact h.finish task
  | consume task =>
    apply h.consume
    rintro other ⟨runner, hrunner, -, hnot⟩
    have hdone : w.daemon.done task = true := hready.1
    rw [Daemon.done, hrunner, Option.map_some, Option.getD_some, hnot] at hdone
    cases hdone
  | restart =>
    rintro jobId task ⟨runner, hrunner, -⟩
    cases hrunner

theorem reachable_mapped (h : (daemon F sha256).Reachable w) : w.daemon.Mapped := by
  have hinit : ∀ w, (daemon F sha256).init w → w.daemon.Mapped := by
    rintro w ⟨s, rfl⟩ jobId task ⟨runner, hrunner, -⟩
    cases hrunner
  have hstep : ∀ w e w', (daemon F sha256).Reachable w → w.daemon.Mapped →
      (daemon F sha256).step w e w' → w'.daemon.Mapped := by
    rintro w e w' - hmapped ⟨hready, rfl⟩
    exact step_mapped hmapped hready
  exact h.invariant hinit hstep

/-- In any order of requests, recovery, runners and callbacks: a job has at most one runner that
is not done, and while it has one, `runners` maps the job to it. -/
theorem one_live_runner (h : (daemon F sha256).Reachable w) (jobId : Str) :
    (∀ task task', w.daemon.Live jobId task → w.daemon.Live jobId task' → task = task') ∧
      ∀ task, w.daemon.Live jobId task → w.daemon.runners.lookup jobId = some task := by
  have hmapped := reachable_mapped h
  constructor
  · intro task task' hlive hlive'
    exact Option.some.inj ((hmapped jobId task hlive).symm.trans (hmapped jobId task' hlive'))
  · exact hmapped jobId

end Order

/-! ## Two requests to resume -/

instance DaemonState.decidableEnabled (w : DaemonState) {F : Type} :
    (e : DaemonEvent F) → Decidable (w.Enabled e)
  | .resumeWaited request _ => inferInstanceAs (Decidable (request ∈ w.waiting))
  | .resumeTimedOut request => inferInstanceAs (Decidable (request ∈ w.waiting))
  | .finish task => inferInstanceAs (Decidable (w.daemon.done task = false))
  | .consume task => inferInstanceAs (Decidable (w.daemon.done task = true ∧
      (w.daemon.tasks[task]?.map Runner.watched).getD false = true))
  | .submit .. | .stop .. | .resume .. | .status .. | .recover .. | .write .. | .restart =>
    inferInstanceAs (Decidable True)

/-- The step of an event, where it is due. -/
def DaemonState.next {F : Type} [PyFloat F] (sha256 : Str → Str) (w : DaemonState)
    (e : DaemonEvent F) : Option DaemonState :=
  if w.Enabled e then some (w.run sha256 e) else none

theorem daemon_next_step {F : Type} [PyFloat F] {sha256 : Str → Str} (w : DaemonState)
    (e : DaemonEvent F) (w' : DaemonState) (h : w.next sha256 e = some w') :
    (daemon F sha256).Step w w' := by
  unfold DaemonState.next at h
  split_ifs at h with hready
  exact ⟨e, hready, (Option.some.inj h).symm⟩

/-- A job is submitted and stopped, and two clients ask for it to be resumed while its runner is
still stopping it; the runner ends, and both requests go on before its callback runs. -/
def demoResumed : List (DaemonEvent NonFinite) :=
  [.submit (Text.lit "job-1") 1
    { repo := lit "/repo", goal := lit "Add the parser", baseBranch := lit "main"
      baseCommit := lit "c0", integrationBranch := lit "yolo/job-1/integration"
      autoApply := false },
   .stop (lit "job-1") fun _ => 2,
   .resume (lit "job-1") fun _ => 3,
   .resume (lit "job-1") fun _ => 3,
   .write (.call (.updateJob (lit "job-1") { state := some (lit "stopped") } 4)),
   .finish 0,
   .resumeWaited (lit "job-1", 0) fun _ => 5,
   .resumeWaited (lit "job-1", 0) fun _ => 5,
   .consume 0]

/-- The job has one runner, and it is not the one that has ended. -/
theorem one_live_runner_resumed : ∃ w, (daemon NonFinite demoDigest).Reachable w ∧
    w.daemon.Live (lit "job-1") 1 ∧ w.daemon.runners.lookup (lit "job-1") = some 1 := by
  have hrun : (demoResumed.foldlM (DaemonState.next demoDigest) { store := Store.empty }).map
      (fun w => w.daemon.tasks) = some
        [{ jobId := lit "job-1", done := true, cancelRequested := true, watched := false },
         { jobId := lit "job-1" }] := by
    decide +kernel
  obtain ⟨w, hw, htasks⟩ := Option.map_eq_some_iff.mp hrun
  have hreach : (daemon NonFinite demoDigest).Reachable w :=
    ⟨_, ⟨_, rfl⟩, System.steps_of_foldlM daemon_next_step hw⟩
  have hlive : w.daemon.Live (lit "job-1") 1 := by
    refine ⟨{ jobId := lit "job-1" }, ?_, rfl, rfl⟩
    rw [htasks]
    rfl
  exact ⟨w, hreach, hlive, (one_live_runner hreach (lit "job-1")).2 1 hlive⟩

end OmarchyYolo
