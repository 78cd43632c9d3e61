import OmarchyYolo.Daemon
import OmarchyYolo.RecoveryExact
import OmarchyYolo.StatusBound

/-!
# OmarchyYolo.StopRefusal — what a refused stop leaves behind

A stop writes in up to four transactions. The first one asks for nothing but the
state of the job; the second one wants a job that has not been accepted, and the
third one a job that has been asked to stop. What has been committed before a
refusal stays.

* `Daemon.StopReply` — what the request raises or answers, and the store after it;
* `Store.SameJob` — the rows of a job are as they were;
* `Tellable` — the status of a job is within the ceiling of a reply in some round;
* `StopSafe` — the jobs and runners for which no refusal comes too late;
* `stop_goesThrough` — the stops that are not refused, and the store they leave;
* `stop_refusal_iff`: a request that raises changes nothing exactly for these.
-/

namespace OmarchyYolo

open Py PyJson Sql Txn Lts

/-! ## The request -/

/-- The rows of a job are the same. -/
structure Store.SameJob (s s' : Store) (jobId : Text) : Prop where
  job : s'.job? jobId = s.job? jobId
  tasks : s'.tasksOf jobId = s.tasksOf jobId
  attempts : s'.attemptsOf jobId = s.attemptsOf jobId
  dossier : s'.dossier? jobId = s.dossier? jobId
  events : s'.eventsOf jobId = s.eventsOf jobId

theorem Store.SameJob.refl (s : Store) (jobId : Text) : s.SameJob s jobId :=
  ⟨rfl, rfl, rfl, rfl, rfl⟩

section Request

variable {F : Type} [PyFloat F] (seconds : Seconds F) (context : StatusContext F)

/-- `stop` in `dispatch`: it raises, or answers with the status of the job. -/
inductive Daemon.StopReply (self : Daemon) (s : Store) (jobId : Str) (clock : Nat → Timestamp) :
    Except Exn (Option (Status F)) → Store → Prop
  | refused {e : Exn} {s' : Store} (stops : self.stop jobId clock s = .error e s') :
      StopReply self s jobId clock (.error e) s'
  | replied {self' : Daemon} {s' : Store} {reply : Except Exn (Option (Status F))}
      (stops : self.stop jobId clock s = .ok self' s')
      (status : StatusReply seconds context s' jobId reply) :
      StopReply self s jobId clock reply s'

end Request

/-! ## The stores of a stop -/

def JobRow.stopping (now : Timestamp) (job : JobRow) : JobRow :=
  { job with state := .stopping, stopRequested := true, updatedAt := now }

def JobRow.stopped (now : Timestamp) (job : JobRow) : JobRow :=
  { job with state := .stopped, updatedAt := now }

def stopNote : Text := Text.lit "stopped by user request"

section Stores

variable (s : Store) (jobId : Text) (clock : Nat → Timestamp)

/-- An event of a job without task and payload. -/
def Store.note (kind : String) (now : Timestamp) : Option Store :=
  s.insertEvent? jobId none (Text.lit kind) (Text.lit "\x7b\x7d") now

/-- The job of a state is stopping, as it has been asked to. -/
def Store.asked (state : JobState) : Store :=
  s.updateJobs (fun j => j.id == jobId && j.state == state) (JobRow.stopping (clock 0))
    fun _ => rfl

/-- The work of the job in flight is cancelled. -/
def Store.settled (now : Timestamp) : Store :=
  (s.updateAttempts (runningOf [jobId]) (closeAttempt .cancelled now stopNote)
    (closeAttempt_key .cancelled now stopNote)).updateTasks (inflightOf [jobId])
    (settleTask .stopped now stopNote) (settleTask_key .stopped now stopNote)

/-- The stopping job has stopped. -/
def Store.ended : Store :=
  s.updateJobs (fun j => j.id == jobId && j.state == .stopping) (JobRow.stopped (clock 3))
    fun _ => rfl

end Stores

/-! ## Transactions that succeed -/

section Succeed

variable {s : Store} {job : JobRow} {clock : Nat → Timestamp}

theorem mem_updateJobs {p : JobRow → Bool} {f : JobRow → JobRow} (keeps : ∀ j, (f j).id = j.id)
    (hjob : job ∈ s.jobs) (hp : p job = true) : f job ∈ (s.updateJobs p f keeps).jobs :=
  @Table.mem_update_of_pos _ _ s.jobs p f keeps job hjob hp

theorem matches_own (job : JobRow) : (job.id == job.id && job.state == job.state) = true := by
  rw [beq_self_eq_true, beq_self_eq_true]
  rfl

/-- `update_job` with the state of its only row. -/
theorem updateJob_ok {fields : JobFields} {texts : JobTexts} {target : JobState} {now : Timestamp}
    (hjob : job ∈ s.jobs) (hunsupported : fields.unsupported = []) (hgiven : fields.isEmpty = false)
    (hfrozen : fields.frozen = [])
    (htarget : targetState JobState.ofValue? "JobState" job.state fields.state = .ok target)
    (htransition : target ∈ jobTransitions job.state) (hopen : target ≠ .completed)
    (htexts : fields.bindTexts = .ok texts)
    (hvalid : (s.updateJobs (fun j => j.id == job.id && j.state == job.state)
      (fields.write texts target now) (fields.write_id texts target now)).JobValid
      (fields.write texts target now job)) :
    updateJob job.id.val fields now s = .ok ()
      (s.updateJobs (fun j => j.id == job.id && j.state == job.state)
        (fields.write texts target now) (fields.write_id texts target now)) := by
  have hone : (s.jobs.select fun j => j.id == job.id && j.state == job.state).length = 1 := by
    have hselect : (s.jobs.select fun j => j.id == job.id && j.state == job.state) = [job] := by
      apply Table.select_eq_singleton hjob (matches_own job)
      intro j hj
      exact eq_of_beq (Bool.and_eq_true_iff.mp hj).1
    rw [hselect]
    rfl
  have hmem : fields.write texts target now job ∈
      (s.updateJobs (fun j => j.id == job.id && j.state == job.state)
        (fields.write texts target now) (fields.write_id texts target now)).jobs :=
    mem_updateJobs (fields.write_id texts target now) hjob (matches_own job)
  have hwritten := Store.Validated.of_valid hmem hvalid
  unfold updateJob
  rw [if_neg (by rw [hunsupported]; exact not_not_intro rfl), if_neg (by rw [hgiven]; exact nofun),
    transaction_ok_iff]
  simp only [tx_bind_ok_iff, lift_ok_iff, bindText_eq_ok, selectJob_ok_iff, orRaise_ok_iff,
    forbidIf_eq_ok, validateJobTransition_eq_ok, updateJobs_ok_iff, validateSnapshot_ok_iff,
    not_and, Decidable.not_not]
  exact ⟨job.id, s, ⟨rfl, rfl⟩, _, s, rfl, job, s, ⟨Store.job?_eq_some hjob, rfl⟩, (), s,
    ⟨fun _ => hfrozen, rfl⟩, target, s, ⟨htarget, rfl⟩, (), s, ⟨htransition, rfl⟩, (), s,
    ⟨fun hcompleted => absurd hcompleted hopen, rfl⟩, texts, s, ⟨htexts, rfl⟩, _, _, rfl, (), _,
    ⟨hone, rfl⟩, rfl, hwritten⟩

/-- An event of a job. -/
theorem jobEvent_note {kind : String} (now : Timestamp) (hjob : job ∈ s.jobs)
    (hkind : (lit kind).take 128 = lit kind) :
    ∃ s', s.note job.id kind now = some s' ∧ jobEvent job.id.val kind now s = .ok () s' := by
  obtain ⟨s', hevent⟩ := jobEvent_ok ⟨job, hjob, rfl⟩ kind now
  refine ⟨s', ?_, hevent⟩
  obtain ⟨_, t, hins, hret⟩ := db_bind_ok_iff.mp hevent
  cases hret
  obtain ⟨id, task, kind', payload, hid, htask, hkind', hpayload, hins⟩ := event_cases hins
  cases Text.ext hid
  cases Option.map_eq_none_iff.mp htask
  have hkind : kind' = Text.lit kind := Text.ext (hkind'.trans hkind)
  have hpayload : payload = Text.lit "\x7b\x7d" := Text.ext hpayload
  rwa [hkind, hpayload] at hins

/-- A job that is asked to stop is valid. -/
theorem asked_valid (hvalid : s.JobValid job) (hopen : job.state.terminal = false) :
    (s.asked job.id clock job.state).JobValid (job.stopping (clock 0)) where
  completed_tasks := nofun
  settled_tasks hstate := by
    revert hstate
    exact (by decide : JobState.stopping ∉ [JobState.queued, .stopped, .failed]) |>.elim
  stopped_stop := nofun
  completed_stop := nofun
  running_state _ _ _ _ := (by decide : JobState.stopping ∈ [JobState.running, .stopping])
  running_inflight := hvalid.running_inflight
  accepted_tasks := hvalid.accepted_tasks
  accepted_running := hvalid.accepted_running
  accepted_state _ := (by decide : JobState.stopping ∈ [JobState.running, .stopping])
  published_iff := by
    refine iff_of_false ?_ nofun
    intro hpublished
    rw [hvalid.published_iff.mp hpublished] at hopen
    cases hopen

variable (clock) in
theorem requestStop_ok (hjob : job ∈ s.jobs) (hvalid : s.JobValid job)
    (hopen : job.state.terminal = false) :
    ∃ s', (s.asked job.id clock job.state).note job.id "job.stop_requested" (clock 1) = some s' ∧
      requestStop job.id.val (clock 0) (clock 1) s = .ok () s' := by
  let fields : JobFields :=
    { stopRequested := some true, state := some (lit JobState.stopping.value) }
  have hupdate : updateJob job.id.val fields (clock 0) s =
      .ok () (s.asked job.id clock job.state) := by
    have hgiven : fields.isEmpty = false := by
      decide
    exact @updateJob_ok s job fields ⟨none, none, none⟩ .stopping (clock 0) hjob rfl hgiven rfl rfl
      (stopping_mem_jobTransitions hopen) nofun rfl (asked_valid hvalid hopen)
  have hmem : job.stopping (clock 0) ∈ (s.asked job.id clock job.state).jobs :=
    mem_updateJobs (f := JobRow.stopping (clock 0)) (fun _ => rfl) hjob (matches_own job)
  have hkind : (lit "job.stop_requested").take 128 = lit "job.stop_requested" := by
    decide
  obtain ⟨s', hnote, hevent⟩ := jobEvent_note (clock 1) hmem hkind
  refine ⟨s', hnote, ?_⟩
  rw [requestStop, db_bind_of_ok hupdate]
  exact hevent

/-- A task of the job after settling is not in flight. -/
theorem settled_tasks {now : Timestamp} {t : TaskRow}
    (ht : t ∈ (s.settled job.id now).tasks) (hown : t.jobId = job.id) :
    t.state.inflight = false := by
  obtain ⟨t₀, -, rfl⟩ := (@Table.mem_update _ _ s.tasks _ _ (settleTask_key .stopped now stopNote)
    t).mp ht
  by_cases hp : inflightOf [job.id] t₀ = true
  · rw [Table.setWhere_pos hp]
    rfl
  · rw [Table.setWhere_neg hp] at hown ⊢
    have hin : [job.id].contains t₀.jobId = true := by
      rw [hown]
      exact List.elem_cons_self
    rw [inflightOf, hin, Bool.true_and, Bool.not_eq_true] at hp
    exact hp

/-- An attempt of the job after settling is not running. -/
theorem settled_attempts {now : Timestamp} {a : AttemptRow}
    (ha : a ∈ (s.settled job.id now).attempts) (hown : a.jobId = job.id) : a.state ≠ .running := by
  obtain ⟨a₀, -, rfl⟩ := (@Store.mem_updateAttempts s _ _
    (closeAttempt_key .cancelled now stopNote) a).mp ha
  by_cases hp : runningOf [job.id] a₀ = true
  · rw [Table.setWhere_pos hp, closeAttempt_state]
    exact nofun
  · rw [Table.setWhere_neg hp] at hown ⊢
    have hin : [job.id].contains a₀.jobId = true := by
      rw [hown]
      exact List.elem_cons_self
    rw [runningOf, hin, Bool.true_and, beq_iff_eq] at hp
    exact hp

/-- A stopping job whose work has been settled is valid. -/
theorem settled_valid {now : Timestamp} (hvalid : s.JobValid job) (hstate : job.state = .stopping)
    (hphase : job.acceptancePhase = .none) : (s.settled job.id now).JobValid job where
  completed_tasks hcompleted := by
    rw [hstate] at hcompleted
    cases hcompleted
  settled_tasks _ _ ht hown := settled_tasks ht hown
  stopped_stop := hvalid.stopped_stop
  completed_stop := hvalid.completed_stop
  running_state a ha hown hrunning := absurd hrunning (settled_attempts ha hown)
  running_inflight a ha hown hrunning := absurd hrunning (settled_attempts ha hown)
  accepted_tasks hbegun := absurd hphase hbegun
  accepted_running hbegun := absurd hphase hbegun
  accepted_state := hvalid.accepted_state
  published_iff := hvalid.published_iff

theorem settleInflight_ok (now : Timestamp) (hjob : job ∈ s.jobs) (hvalid : s.JobValid job)
    (hstate : job.state = .stopping) (hphase : job.acceptancePhase = .none) :
    settleInflight job.id.val .stopped (lit "cancelled") (lit "stopped by user request") now s =
      .ok () (s.settled job.id now) := by
  have hwritten : (s.settled job.id now).Validated job.id :=
    Store.Validated.of_valid (s := s.settled job.id now) hjob (settled_valid hvalid hstate hphase)
  have hnote : stopNote.val = lastChars 8000 (lit "stopped by user request") := by
    decide
  have hsettled : settledAttemptState (lit "cancelled") = some .cancelled := by
    decide
  have hallowed : TaskState.stopped ∈ [TaskState.pending, .failed, .stopped] := by
    decide
  rw [settleInflight, transaction_ok_iff]
  simp only [tx_bind_ok_iff, lift_ok_iff, bindText_eq_ok, raiseIf_ok_iff, selectJob_ok_iff,
    orRaise_ok_iff, forbidIf_eq_ok, updateTasks_ok_iff, updateAttempts_ok_iff,
    validateSnapshot_ok_iff, Decidable.not_not, ne_eq]
  exact ⟨(), s, ⟨hallowed, rfl⟩, .cancelled, s, ⟨hsettled, rfl⟩, job.id, s, ⟨rfl, rfl⟩, _, s, rfl,
    job, s, ⟨Store.job?_eq_some hjob, rfl⟩, (), s, ⟨hphase, rfl⟩, stopNote, s, ⟨hnote, rfl⟩, _, _,
    rfl, _, _, rfl, rfl, hwritten⟩

/-- An accepted job is not settled. -/
theorem settleInflight_accepted (taskState : TaskState) (attemptState summary : Str)
    (now : Timestamp) (hjob : job ∈ s.jobs) (hphase : job.acceptancePhase ≠ .none) :
    ∃ e, settleInflight job.id.val taskState attemptState summary now s = .error e s := by
  cases hrun : settleInflight job.id.val taskState attemptState summary now s with
  | error e s' =>
    rw [atomic_transaction _ s e s' hrun]
    exact ⟨e, rfl⟩
  | ok u s' =>
    obtain ⟨job', hjob', -, -, hid, -, -, hnone, -⟩ := settleInflight_cases hrun
    rw [Store.eq_of_id hjob' hjob (Text.ext hid)] at hnone
    exact absurd hnone hphase

variable (clock) in
/-- A stopping job that has been asked to stop has stopped, once its work is settled. -/
theorem ended_ok (now : Timestamp) (hjob : job ∈ s.jobs) (hstate : job.state = .stopping)
    (hphase : job.acceptancePhase = .none)
    (hasked : job.stopRequested = true) :
    ∃ t s', ((s.settled job.id now).ended job.id clock).note job.id "job.stopped" (clock 4) =
        some s' ∧
      updateJob job.id.val { state := some (lit JobState.stopped.value) } (clock 3)
        (s.settled job.id now) = .ok () t ∧
      jobEvent job.id.val "job.stopped" (clock 4) t = .ok () s' := by
  let fields : JobFields := { state := some (lit JobState.stopped.value) }
  have hgiven : fields.isEmpty = false := by
    decide
  have htransition : JobState.stopped ∈ jobTransitions job.state := by
    rw [hstate]
    decide
  have hstopped : ((s.settled job.id now).updateJobs
      (fun j => j.id == job.id && j.state == job.state) (JobRow.stopped (clock 3))
      -- the job stopped, after its work in flight has been settled
      fun _ => rfl).JobValid (job.stopped (clock 3)) := by
    constructor
    -- the conditions of `JobValid`, in order: no task is in flight, no attempt runs
    · exact nofun
    · exact fun _ t ht hown => settled_tasks ht hown
    · exact fun _ => hasked
    · exact nofun
    · exact fun a ha hown hrunning => absurd hrunning (settled_attempts ha hown)
    · exact fun a ha hown hrunning => absurd hrunning (settled_attempts ha hown)
    · exact fun hbegun => absurd hphase hbegun
    · exact fun hbegun => absurd hphase hbegun
    -- the job has accepted nothing
    · intro hopen
      rw [show (job.stopped (clock 3)).acceptancePhase = .none from hphase] at hopen
      exact absurd hopen (by decide)
    · refine iff_of_false ?_ nofun
      rw [show (job.stopped (clock 3)).acceptancePhase = .none from hphase]
      exact nofun
  have hupdate := @updateJob_ok (s.settled job.id now) job fields ⟨none, none, none⟩ .stopped
    (clock 3) hjob rfl hgiven rfl rfl htransition nofun rfl hstopped
  have hmem : job.stopped (clock 3) ∈ ((s.settled job.id now).updateJobs
      (fun j => j.id == job.id && j.state == job.state) (JobRow.stopped (clock 3))
      fun _ => rfl).jobs :=
    mem_updateJobs (f := JobRow.stopped (clock 3)) (fun _ => rfl) hjob (matches_own job)
  have hkind : (lit "job.stopped").take 128 = lit "job.stopped" := by
    decide
  obtain ⟨s', hnote, hevent⟩ := jobEvent_note (clock 4) hmem hkind
  -- the update and its event, in one transaction each
  refine ⟨_, s', ?_, hupdate, hevent⟩
  rw [hstate] at hnote
  exact hnote

/-- A stopping job that has not been asked to stop cannot have stopped. -/
theorem ended_unasked (now : Timestamp) (hjob : job ∈ s.jobs) (hasked : job.stopRequested = false) :
    ∃ e, updateJob job.id.val { state := some (lit JobState.stopped.value) } now s =
      .error e s := by
  cases hrun : updateJob job.id.val { state := some (lit JobState.stopped.value) } now s with
  | error e s' =>
    rw [updateJob_atomic _ _ _ s e s' hrun]
    exact ⟨e, rfl⟩
  | ok u s' =>
    rcases updateJob_cases hrun with ⟨hempty, -⟩ | ⟨id, found, texts, target, hid, hfound, -,
      htarget, -, -, htexts, rfl, row, hrow, hvalid⟩
    · exact absurd hempty (by decide)
    · -- the row that has been written would be a stopped job without a request
      cases Text.ext hid
      rw [Store.job?_eq_some hjob] at hfound
      cases hfound
      cases htarget
      cases htexts
      have hmem : job.stopped now ∈ (s.updateJobs (fun j => j.id == job.id && j.state == job.state)
          (JobRow.stopped now) fun _ => rfl).jobs :=
        mem_updateJobs (f := JobRow.stopped now) (fun _ => rfl) hjob (matches_own job)
      have hown := Store.job?_eq_some hmem
      have hsame : row = job.stopped now := Option.some.inj (hrow.symm.trans hown)
      rw [hsame] at hvalid
      have hstop : job.stopRequested = true := hvalid.stopped_stop rfl
      rw [hasked] at hstop
      cases hstop

end Succeed

/-! ## What a stop does -/

section Cases

variable {self : Daemon} {s : Store} {job : JobRow} (clock : Nat → Timestamp)

/-- A runner settles its job itself. -/
theorem stopRunner_live {task : Nat} {jobId : Str} (hlive : self.liveRunner? jobId = some task) :
    self.stopRunner jobId clock s = .ok (self.cancel task) s := by
  unfold Daemon.stopRunner
  rw [hlive]
  rfl

/-- An accepted job without a runner is refused. -/
theorem stopRunner_accepted (hnone : self.liveRunner? job.id.val = none) (hjob : job ∈ s.jobs)
    (hphase : job.acceptancePhase ≠ .none) :
    ∃ e, self.stopRunner job.id.val clock s = .error e s := by
  obtain ⟨e, hsettle⟩ := settleInflight_accepted .stopped (lit "cancelled")
    (lit "stopped by user request") (clock 2) hjob hphase
  refine ⟨e, ?_⟩
  unfold Daemon.stopRunner
  rw [hnone]
  exact db_bind_of_error hsettle

/-- A job that has not been asked to stop is refused, after its work has been settled. -/
theorem stopRunner_unasked (hnone : self.liveRunner? job.id.val = none) (hjob : job ∈ s.jobs)
    (hvalid : s.JobValid job) (hstate : job.state = .stopping)
    (hphase : job.acceptancePhase = .none) (hasked : job.stopRequested = false) :
    ∃ e, self.stopRunner job.id.val clock s = .error e (s.settled job.id (clock 2)) := by
  have hsettle := settleInflight_ok (clock 2) hjob hvalid hstate hphase
  obtain ⟨e, hupdate⟩ := ended_unasked (s := s.settled job.id (clock 2)) (clock 3) hjob hasked
  refine ⟨e, ?_⟩
  unfold Daemon.stopRunner
  rw [hnone]
  show (settleInflight _ _ _ _ _ >>= _) s = _
  rw [db_bind_of_ok hsettle]
  exact db_bind_of_error hupdate

/-- Any other job has stopped. -/
theorem stopRunner_asked (hnone : self.liveRunner? job.id.val = none) (hjob : job ∈ s.jobs)
    (hvalid : s.JobValid job) (hstate : job.state = .stopping)
    (hphase : job.acceptancePhase = .none) (hasked : job.stopRequested = true) :
    ∃ s', ((s.settled job.id (clock 2)).ended job.id clock).note job.id "job.stopped" (clock 4) =
        some s' ∧
      self.stopRunner job.id.val clock s = .ok self s' := by
  have hsettle := settleInflight_ok (clock 2) hjob hvalid hstate hphase
  obtain ⟨t, s', hnote, hupdate, hevent⟩ :=
    ended_ok clock (clock 2) hjob hstate hphase hasked
  refine ⟨s', hnote, ?_⟩
  unfold Daemon.stopRunner
  rw [hnone]
  show (settleInflight _ _ _ _ _ >>= _) s = _
  rw [db_bind_of_ok hsettle, db_bind_of_ok hupdate, db_bind_of_ok hevent]
  rfl

variable (self) in
/-- A job in a terminal state is refused, or is as it has been. -/
theorem stop_terminal (hjob : job ∈ s.jobs) (hterminal : job.state.terminal = true) :
    (∃ e, self.stop job.id.val clock s = .error e s) ∨
      self.stop job.id.val clock s = .ok self s := by
  have hget := getJob_ok (Store.job?_eq_some hjob)
  have hstop : self.stop job.id.val clock s = _ := db_bind_of_ok hget
  rw [hstop]
  cases hstate : job.state with
  | completed => exact .inl ⟨_, rfl⟩
  | stopped => exact .inr rfl
  | failed => exact .inl ⟨_, rfl⟩
  | _ =>
    rw [hstate] at hterminal
    cases hterminal

theorem stop_stopping (hjob : job ∈ s.jobs) (hstate : job.state = .stopping) :
    self.stop job.id.val clock s = self.stopRunner job.id.val clock s := by
  have hget := getJob_ok (Store.job?_eq_some hjob)
  have hstop : self.stop job.id.val clock s = _ := db_bind_of_ok hget
  rw [hstop, hstate]
  rfl

variable (self) in
/-- Any other job is asked to stop first. -/
theorem stop_active (hjob : job ∈ s.jobs) (hvalid : s.JobValid job)
    (hopen : job.state.terminal = false) (hstate : job.state ≠ .stopping) :
    ∃ t, (s.asked job.id clock job.state).note job.id "job.stop_requested" (clock 1) = some t ∧
      self.stop job.id.val clock s = self.stopRunner job.id.val clock t := by
  have hget := getJob_ok (Store.job?_eq_some hjob)
  obtain ⟨t, hnote, hrequest⟩ := requestStop_ok clock hjob hvalid hopen
  refine ⟨t, hnote, ?_⟩
  have hstop : self.stop job.id.val clock s = _ := db_bind_of_ok hget
  rw [hstop]
  cases hjobState : job.state with
  | stopping => exact absurd hjobState hstate
  | completed | stopped | failed =>
    rw [hjobState] at hopen
    cases hopen
  | _ => exact db_bind_of_ok hrequest

end Cases

/-! ## Which refusals come too late -/

section Refusals

variable {F : Type} [PyFloat F] {sha256 : Str → Str} {seconds : Seconds F}
  {context : StatusContext F} {self self' : Daemon} {s s' : Store} {job : JobRow}
  {clock : Nat → Timestamp} {e : Exn}

/-- The stop goes through, and has something to write. -/
def Daemon.Stops (self : Daemon) (job : JobRow) : Prop :=
  job.state.terminal = false ∧
    (job.acceptancePhase = .none ∨ (self.liveRunner? job.id.val).isSome = true) ∧
    (job.state = .stopping → self.liveRunner? job.id.val = none ∧ job.stopRequested = true)

/-- The store that it leaves. -/
def Daemon.afterStop (self : Daemon) (s : Store) (job : JobRow) (clock : Nat → Timestamp) :
    Option Store :=
  (if job.state = .stopping then some s
    else (s.asked job.id clock job.state).note job.id "job.stop_requested" (clock 1)).bind fun t =>
  match self.liveRunner? job.id.val with
  | some _ => some t
  | none => ((t.settled job.id (clock 2)).ended job.id clock).note job.id "job.stopped" (clock 4)

/-- The status of a job takes at most as many bytes as an answer may, in one of its rounds. -/
def Tellable (seconds : Seconds F) (context : StatusContext F) (s : Store) (jobId : Text) : Prop :=
  ∀ job, StatusJob s jobId.val job → s.Groups job.id context.groups →
    ∀ events, recentEvents seconds.stamp s job.id 12 = some events →
      ∃ round ∈ (fullStatus seconds context s job events).rounds,
        round.encodedSize seconds.stamp ≤ maxStatusResponseBytes

/-- No refusal comes after a commit. -/
structure StopSafe (seconds : Seconds F) (context : StatusContext F) (daemon : Daemon) (s : Store)
    (job : JobRow) (clock : Nat → Timestamp) : Prop where
  /-- An accepted job that is not stopping yet has its runner. -/
  accepted : job.state.terminal = false → job.state ≠ .stopping → job.acceptancePhase ≠ .none →
    (daemon.liveRunner? job.id.val).isSome = true
  /-- A job that is stopping without a request has its runner, or no work in flight. -/
  unasked : job.state = .stopping → job.stopRequested = false → job.acceptancePhase = .none →
    daemon.liveRunner? job.id.val = none →
      ∀ t ∈ s.tasks, t.jobId = job.id → t.state.inflight = false
  /-- With the rows as the stop leaves them, the status is within the ceiling. -/
  answered : daemon.Stops job → ∀ s', daemon.afterStop s job clock = some s' →
    Tellable seconds context s' job.id

/-- The request changes nothing when it raises. -/
def StopAtomic (seconds : Seconds F) (context : StatusContext F) (self : Daemon) (s : Store)
    (job : JobRow) (clock : Nat → Timestamp) : Prop :=
  ∀ e s', self.StopReply seconds context s job.id.val clock (.error e) s' → s.SameJob s' job.id

/-- An event of a job is recorded by an operation. -/
theorem jobEvent_steps (jobId : Str) (kind : String) (now : Timestamp) :
    FollowsDb (database F sha256).Steps (jobEvent jobId kind now) := by
  intro s r s' h
  refine .single ⟨.event jobId (lit kind) .nil none now, ?_⟩
  exact h

/-- A stop is a run of operations. -/
theorem stop_steps (self : Daemon) (jobId : Str) :
    FollowsDb (database F sha256).Steps (self.stop jobId clock) := by
  have hrunner : FollowsDb (database F sha256).Steps (self.stopRunner jobId clock) := by
    unfold Daemon.stopRunner
    split
    · exact .pure _
    · refine .bind ?_ fun _ => .bind ?_ fun _ => .bind (jobEvent_steps jobId _ _) fun _ => .pure _
      · intro s r s' h
        exact .single ⟨.call (.settleInflight jobId .stopped _ _ _), h⟩
      · intro s r s' h
        exact .single ⟨.call (.updateJob jobId { state := some (lit JobState.stopped.value) }
          (clock 3)), h⟩
  refine .bind (getJob_follows jobId) fun job => ?_
  refine .ite (.throw _) (.ite (.pure _) (.ite (.throw _) (.ite hrunner ?_)))
  refine .bind ?_ fun _ => hrunner
  intro s r s' h
  exact .single ⟨.call (.requestStop jobId (clock 0) (clock 1)), h⟩

/-- No operation deletes a job. -/
theorem job_stays (h : (database F sha256).Reachable s) (hsteps : (database F sha256).Steps s s')
    (hjob : job ∈ s.jobs) : ∃ j ∈ s'.jobs, j.id = job.id := by
  induction hsteps with
  | refl => exact ⟨job, hjob, rfl⟩
  | tail hbefore hstep ih =>
    rcases ih with ⟨j, hj, hid⟩
    rcases hstep with ⟨op, hop⟩
    obtain ⟨_, hprogress, -⟩ := Operation.run_progress (reachable_sound (h.steps hbefore)).valid hop
    obtain ⟨j', hj', hkey, -⟩ := hprogress.jobs.forward hj
    exact ⟨j', hj', hkey.trans hid⟩

/-- The status of a job of a reachable store raises exactly if it is too large. -/
theorem tellable_iff (h : (database F sha256).Reachable s) {jobId : Text}
    (hjob : ∃ j ∈ s.jobs, j.id = jobId) :
    Tellable seconds context s jobId ↔
      ∀ e, ¬StatusReply seconds context s jobId.val (.error e) := by
  -- tellable: each reply has a round of the status within the ceiling
  constructor
  · intro htell e hreply
    have hanswers : ∀ job, StatusJob s jobId.val job → s.Groups job.id context.groups →
        (jobStatus seconds context s job).map some ≠ .error e := by
      intro job hshown hgroups herror
      obtain ⟨events, hevents⟩ := exists_recentEvents h seconds.stamp job.id 12
      obtain ⟨status, hstatus⟩ :=
        boundStatusResponse_ok_iff.mpr (htell job hshown hgroups events hevents)
      rw [jobStatus, hevents] at herror
      dsimp only at herror
      rw [hstatus] at herror
      cases herror
    generalize hr : (Except.error e : Except Exn (Option (Status F))) = r at hreply
    cases hreply with
    -- the job is named, or is the latest one
    | named some_id found groups =>
      obtain ⟨-, id, hid, hfound⟩ := getJob_cases found
      obtain ⟨hmem, rfl⟩ := Store.mem_of_job? hfound
      refine hanswers _ ⟨hmem, ?_⟩ groups hr.symm
      rw [if_neg some_id]
      exact hid
    | unknown some_id missing =>
      -- the job is there
      rcases hjob with ⟨j, hj, rfl⟩
      rw [getJob_ok (Store.job?_eq_some hj)] at missing
      cases missing
    | latest no_id found last groups =>
      refine hanswers _ ⟨found, ?_⟩ groups hr.symm
      rw [if_pos no_id]
      exact last
    | idle => cases hr
  -- conversely, a job that is shown is answered, so some round fits
  · intro hanswered job hshown hgroups events hevents
    by_contra hlarge
    have hreply : StatusReply seconds context s jobId.val
        ((jobStatus seconds context s job).map some) := by
      rcases hshown with ⟨hmem, hid⟩
      by_cases hempty : jobId.val = []
      · rw [if_pos hempty] at hid
        exact .latest hempty hmem hid hgroups
      · rw [if_neg hempty] at hid
        rw [← hid] at hempty ⊢
        exact .named hempty (getJob_ok (Store.job?_eq_some hmem)) hgroups
    -- the ceiling is exceeded: the reply would be the error
    rw [jobStatus, hevents] at hreply
    dsimp only at hreply
    cases hbound : boundStatusResponse seconds.stamp (fullStatus seconds context s job events) with
    | ok status => exact hlarge (boundStatusResponse_ok_iff.mp ⟨status, hbound⟩)
    | error e =>
      rw [hbound] at hreply
      exact hanswered e hreply

theorem stopAtomic_of_error (hstop : self.stop job.id.val clock s = .error e s') :
    StopAtomic seconds context self s job clock ↔ s.SameJob s' job.id := by
  constructor
  · intro h
    exact h e s' (.refused hstop)
  · intro hsame e' t hreply
    cases hreply with
    | refused stops =>
      cases hstop.symm.trans stops
      exact hsame
    | replied stops status => cases hstop.symm.trans stops

theorem stopAtomic_of_same (hstop : self.stop job.id.val clock s = .ok self' s) :
    StopAtomic seconds context self s job clock := by
  intro e t hreply
  cases hreply with
  | refused stops => cases hstop.symm.trans stops
  | replied stops status =>
    cases hstop.symm.trans stops
    exact .refl s job.id

/-- After a change the status must be told. -/
theorem stopAtomic_of_changed (h : (database F sha256).Reachable s) (hjob : job ∈ s.jobs)
    (hstop : self.stop job.id.val clock s = .ok self' s') (hchanged : ¬s.SameJob s' job.id) :
    StopAtomic seconds context self s job clock ↔ Tellable seconds context s' job.id := by
  have hsteps : (database F sha256).Steps s s' := stop_steps self job.id.val s self' s' hstop
  rw [tellable_iff (h.steps hsteps) (job_stays h hsteps hjob)]
  constructor
  · intro h e hreply
    exact hchanged (h e s' (.replied hstop hreply))
  · intro hanswered e t hreply
    cases hreply with
    | refused stops => cases hstop.symm.trans stops
    | replied stops status =>
      cases hstop.symm.trans stops
      exact absurd status (hanswered e)

/-- A job of another state is another row. -/
theorem not_sameJob {row : JobRow} (hjob : job ∈ s.jobs) (hrow : row ∈ s'.jobs)
    (hid : row.id = job.id) (hstate : row.state ≠ job.state) : ¬s.SameJob s' job.id := by
  intro hsame
  have hfound := hsame.job
  rw [← hid, Store.job?_eq_some hrow, hid, Store.job?_eq_some hjob] at hfound
  cases hfound
  exact hstate rfl

/-- Without work in flight there is nothing to settle. -/
theorem settled_eq_self {now : Timestamp} (hvalid : s.JobValid job)
    (hidle : ∀ t ∈ s.tasks, t.jobId = job.id → t.state.inflight = false) :
    s.settled job.id now = s := by
  have htasks : (s.settled job.id now).tasks = s.tasks := by
    apply Table.ext
    show s.tasks.rows.map _ = s.tasks.rows
    refine (List.map_congr_left ?_).trans (List.map_id s.tasks.rows)
    intro t ht
    apply Table.setWhere_neg
    intro hp
    rw [inflightOf, Bool.and_eq_true, List.contains_iff_mem, List.mem_singleton] at hp
    rw [hidle t ht hp.1] at hp
    cases hp.2
  have hattempts : (s.settled job.id now).attempts = s.attempts := by
    apply Table.ext
    show s.attempts.rows.map _ = s.attempts.rows
    refine (List.map_congr_left ?_).trans (List.map_id s.attempts.rows)
    intro a ha
    apply Table.setWhere_neg
    intro hp
    rw [runningOf, Bool.and_eq_true, List.contains_iff_mem, List.mem_singleton, beq_iff_eq] at hp
    -- the task of a running attempt would be in flight
    obtain ⟨t, ht, hid, hown⟩ := s.attemptTask a ha
    have hinflight := hvalid.running_inflight a ha hp.1 hp.2 t ht hid hown
    rw [hidle t ht (hown.trans hp.1)] at hinflight
    cases hinflight
  exact Store.ext rfl htasks hattempts rfl rfl

/-- Settling changes the rows of the job exactly if there is work in flight. -/
theorem sameJob_settled_iff {now : Timestamp} (hvalid : s.JobValid job) :
    s.SameJob (s.settled job.id now) job.id ↔
      ∀ t ∈ s.tasks, t.jobId = job.id → t.state.inflight = false := by
  constructor
  · intro hsame t ht hown
    have hmem : t ∈ (s.settled job.id now).tasksOf job.id := by
      rw [hsame.tasks]
      exact Store.mem_tasksOf.mpr ⟨ht, hown⟩
    exact settled_tasks (Store.mem_tasksOf.mp hmem).1 hown
  · intro hidle
    rw [settled_eq_self hvalid hidle]
    exact .refl s job.id

/-- A job that has stopped is another row. -/
theorem not_sameJob_ended {row : JobRow} {t : Store} {now : Timestamp} (hjob : job ∈ s.jobs)
    (hrow : row ∈ t.jobs) (hstate : row.state = .stopping) (hid : row.id = job.id)
    (hdiffers : job.state ≠ .stopped)
    (h : ((t.settled job.id now).ended job.id clock).note job.id "job.stopped" (clock 4) =
      some s') : ¬s.SameJob s' job.id := by
  have hmatches : (row.id == job.id && row.state == .stopping) = true := by
    rw [hid, hstate, beq_self_eq_true, beq_self_eq_true]
    rfl
  have hended : row.stopped (clock 3) ∈ ((t.settled job.id now).ended job.id clock).jobs :=
    mem_updateJobs (s := t.settled job.id now) (f := JobRow.stopped (clock 3)) (fun _ => rfl) hrow
      hmatches
  rw [← (Store.insertEvent?_eq_some h).2.jobs] at hended
  exact not_sameJob hjob hended hid hdiffers.symm

/-- A stop that goes through leaves the rows of `afterStop`, and the job is another row. -/
theorem stop_goesThrough (h : (database F sha256).Reachable s) (hjob : job ∈ s.jobs)
    (hstops : self.Stops job) :
    ∃ self' s', self.stop job.id.val clock s = .ok self' s' ∧
      self.afterStop s job clock = some s' ∧ ¬s.SameJob s' job.id := by
  -- a valid job: what the stop writes is valid too
  have hvalid := (reachable_sound h).valid job hjob
  rcases hstops with ⟨hopen, hphase, hstopping⟩
  have hdiffers : job.state ≠ .stopped := by
    intro heq
    rw [heq] at hopen
    cases hopen
  by_cases hstate : job.state = .stopping
  · -- the request has been made, and there is no runner to settle it
    rcases hstopping hstate with ⟨hlive, hasked⟩
    have hnone : job.acceptancePhase = .none := by
      rcases hphase with hphase | hsome
      · exact hphase
      · rw [hlive] at hsome
        cases hsome
    obtain ⟨s', hafter, hended⟩ := stopRunner_asked clock hlive hjob hvalid hstate hnone hasked
    refine ⟨self, s', (stop_stopping clock hjob hstate).trans hended, ?_, ?_⟩
    -- the reply of `stop` and the closed form are the same transactions
    · rw [Daemon.afterStop, if_pos hstate, Option.bind_some, hlive]
      exact hafter
    · exact not_sameJob_ended hjob hjob hstate rfl hdiffers hafter
  · -- the request is made first
    obtain ⟨t, hnote, hstop⟩ := stop_active self clock hjob hvalid hopen hstate
    have honly := (Store.insertEvent?_eq_some hnote).2
    have hrow : job.stopping (clock 0) ∈ t.jobs := by
      rw [honly.jobs]
      exact mem_updateJobs (f := JobRow.stopping (clock 0)) (fun _ => rfl) hjob (matches_own job)
    have hstore : self.afterStop s job clock = match self.liveRunner? job.id.val with
        | some _ => some t
        | none => ((t.settled job.id (clock 2)).ended job.id clock).note job.id "job.stopped"
            (clock 4) := by
      rw [Daemon.afterStop, if_neg hstate, hnote, Option.bind_some]
    -- with a live runner the request is all, without one the job is ended here
    cases hlive : self.liveRunner? job.id.val with
    | some task =>
      rw [hlive] at hstore
      exact ⟨_, t, hstop.trans (stopRunner_live clock hlive), hstore,
        not_sameJob hjob hrow rfl (Ne.symm hstate)⟩
    | none =>
      -- a job that is accepted would have a live runner here
      have hnone : job.acceptancePhase = .none := by
        rcases hphase with hphase | hsome
        · exact hphase
        · rw [hlive] at hsome
          cases hsome
      -- the snapshot is valid after the request, which is what settling needs
      have htvalid : t.JobValid (job.stopping (clock 0)) :=
        (asked_valid hvalid hopen).events honly
      obtain ⟨s', hafter, hended⟩ := @stopRunner_asked self t (job.stopping (clock 0)) clock hlive
        hrow htvalid rfl hnone rfl
      rw [hlive] at hstore
      exact ⟨self, s', hstop.trans hended, hstore.trans hafter,
        not_sameJob_ended hjob hrow rfl rfl hdiffers hafter⟩

/-- A stop that goes through has to be answered. -/
theorem stopAtomic_of_stops (h : (database F sha256).Reachable s) (hjob : job ∈ s.jobs)
    (hstops : self.Stops job) :
    StopAtomic seconds context self s job clock ↔ StopSafe seconds context self s job clock := by
  obtain ⟨self', s', hstop, hstore, hchanged⟩ :=
    @stop_goesThrough _ _ _ self s job clock h hjob hstops
  rw [stopAtomic_of_changed h hjob hstop hchanged]
  constructor
  · intro htell
    refine ⟨?_, ?_, ?_⟩
    · intro _ _ hbegun
      rcases hstops.2.1 with hphase | hlive
      · exact absurd hphase hbegun
      · exact hlive
    · intro hstate hunasked
      have hasked := (hstops.2.2 hstate).2
      rw [hunasked] at hasked
      cases hasked
    · intro _ t ht
      rw [hstore] at ht
      cases ht
      exact htell
  · intro hsafe
    exact hsafe.answered hstops s' hstore

/-- A job in a terminal state is left alone. -/
theorem stopAtomic_terminal (hjob : job ∈ s.jobs) (hterminal : job.state.terminal = true) :
    StopAtomic seconds context self s job clock := by
  rcases stop_terminal self clock hjob hterminal with ⟨e, hstop⟩ | hstop
  · exact (stopAtomic_of_error hstop).mpr (.refl s job.id)
  · exact stopAtomic_of_same hstop

/-- A job that is stopping, and is not stopped by the request. -/
theorem stopAtomic_stopping (h : (database F sha256).Reachable s) (hjob : job ∈ s.jobs)
    (hstate : job.state = .stopping) (hstops : ¬self.Stops job) :
    StopAtomic seconds context self s job clock ↔
      (job.stopRequested = false → job.acceptancePhase = .none →
        self.liveRunner? job.id.val = none →
          ∀ t ∈ s.tasks, t.jobId = job.id → t.state.inflight = false) := by
  have hvalid := (reachable_sound h).valid job hjob
  have hstop : self.stop job.id.val clock s = self.stopRunner job.id.val clock s :=
    stop_stopping clock hjob hstate
  have hopen : job.state.terminal = false := by
    rw [hstate]
    rfl
  cases hlive : self.liveRunner? job.id.val with
  | some task =>
    -- the runner is cancelled, and the store is not touched
    rw [stopRunner_live clock hlive] at hstop
    refine iff_of_true (stopAtomic_of_same hstop) ?_
    intro _ _ hnone
    cases hnone
  | none =>
    by_cases hphase : job.acceptancePhase = .none
    · have hasked : job.stopRequested = false := by
        rw [← Bool.not_eq_true]
        intro hasked
        exact hstops ⟨hopen, .inl hphase, fun _ => ⟨hlive, hasked⟩⟩
      -- the work in flight is settled before the request is refused
      obtain ⟨e, hrefused⟩ := stopRunner_unasked clock hlive hjob hvalid hstate hphase hasked
      rw [stopAtomic_of_error (hstop.trans hrefused), sameJob_settled_iff hvalid]
      constructor
      · intro hidle _ _ _
        exact hidle
      · intro hsafe
        exact hsafe hasked hphase rfl
    -- an accepted job is refused before anything is written
    · obtain ⟨e, hrefused⟩ := stopRunner_accepted clock hlive hjob hphase
      refine iff_of_true ((stopAtomic_of_error (hstop.trans hrefused)).mpr (.refl s job.id)) ?_
      intro _ hnone
      exact absurd hnone hphase

/-- Any other job that is not stopped by the request has been accepted, and has no runner. -/
theorem not_stopAtomic_active (h : (database F sha256).Reachable s) (hjob : job ∈ s.jobs)
    (hopen : job.state.terminal = false) (hstate : job.state ≠ .stopping)
    (hbegun : job.acceptancePhase ≠ .none) (hlive : self.liveRunner? job.id.val = none) :
    ¬StopAtomic seconds context self s job clock := by
  have hvalid := (reachable_sound h).valid job hjob
  obtain ⟨t, hnote, hstop⟩ := stop_active self clock hjob hvalid hopen hstate
  have hrow : job.stopping (clock 0) ∈ t.jobs := by
    rw [(Store.insertEvent?_eq_some hnote).2.jobs]
    exact mem_updateJobs (f := JobRow.stopping (clock 0)) (fun _ => rfl) hjob (matches_own job)
  obtain ⟨e, hrefused⟩ := @stopRunner_accepted self t (job.stopping (clock 0)) clock hlive hrow
    hbegun
  rw [stopAtomic_of_error (hstop.trans hrefused)]
  exact not_sameJob hjob hrow rfl (Ne.symm hstate)

/-- A request to stop a job of a reachable store that raises has changed no row of the job,
exactly for the jobs and runners for which no refusal comes after a commit. -/
theorem stop_refusal_iff (h : (database F sha256).Reachable s) (hjob : job ∈ s.jobs) :
    StopAtomic seconds context self s job clock ↔ StopSafe seconds context self s job clock := by
  by_cases hstops : self.Stops job
  · exact stopAtomic_of_stops h hjob hstops
  · have hanswered : self.Stops job → ∀ s', self.afterStop s job clock = some s' →
        Tellable seconds context s' job.id := fun hgoes => absurd hgoes hstops
    by_cases hterminal : job.state.terminal = true
    · refine iff_of_true (stopAtomic_terminal hjob hterminal) ⟨?_, ?_, hanswered⟩
      · intro hopen
        rw [hterminal] at hopen
        cases hopen
      · intro hstate
        rw [hstate] at hterminal
        cases hterminal
    · by_cases hstate : job.state = .stopping
      · rw [stopAtomic_stopping h hjob hstate hstops]
        constructor
        · intro hidle
          exact ⟨fun _ hother => absurd hstate hother, fun _ => hidle, hanswered⟩
        · intro hsafe
          exact hsafe.unasked hstate
      · -- it would be stopped without an acceptance, or with a runner
        have hopen : job.state.terminal = false := Bool.not_eq_true _ ▸ hterminal
        have hbegun : job.acceptancePhase ≠ .none := by
          intro hnone
          exact hstops ⟨hopen, .inl hnone, fun hstopping => absurd hstopping hstate⟩
        have hlive : self.liveRunner? job.id.val = none := by
          rw [← Option.not_isSome_iff_eq_none]
          intro hlive
          exact hstops ⟨hopen, .inr hlive, fun hstopping => absurd hstopping hstate⟩
        refine iff_of_false (not_stopAtomic_active h hjob hopen hstate hbegun hlive) ?_
        intro hsafe
        have hsome := hsafe.accepted hopen hstate hbegun
        rw [hlive] at hsome
        cases hsome

end Refusals

/-! ## An accepted job without a runner -/

/-- A job without tasks is accepted. -/
def acceptedRun : List (Operation WholeFloat) :=
  [.call (.createJob (Text.lit "job-1") 1
    { repo := lit "/repo", goal := lit "Add the parser", baseBranch := lit "main"
      baseCommit := lit "c0", integrationBranch := lit "yolo/job-1/integration"
      autoApply := false }),
   .call (.updateJob (lit "job-1") { state := some (lit "running") } 2),
   .call (.prepareAcceptedJob (lit "job-1")
    { acceptedCommit := lit "c1", finalSummary := lit "Added the parser"
      sourceApplyIntent := lit "not-requested"
      dossier := { schemaVersion := 1, sha256 := demoDigest [], content := lit "dossier" } } 3 4)]

/-- What a request to stop commits before it is refused. -/
def acceptedStop : List (Operation WholeFloat) := [.call (.requestStop (lit "job-1") 5 6)]

/-- The job before and after that request. -/
theorem acceptedRun_jobs : ∃ s t, (database WholeFloat demoDigest).Reachable s ∧
    (database WholeFloat demoDigest).Reachable t ∧
    (∃ job ∈ s.jobs, job.state = .running ∧ job.acceptancePhase = .accepted) ∧
    ∃ job ∈ t.jobs, job.state = .stopping ∧ job.acceptancePhase = .accepted := by
  have hrun : ((runOperations demoDigest acceptedRun Store.empty).bind fun s =>
      (runOperations demoDigest acceptedStop s).map fun t =>
        (s.jobs.rows.map fun j => (j.state, j.acceptancePhase),
          t.jobs.rows.map fun j => (j.state, j.acceptancePhase))) =
      some ([(.running, .accepted)], [(.stopping, .accepted)]) := by
    decide +kernel
  obtain ⟨s, hs, hrun⟩ := Option.bind_eq_some_iff.mp hrun
  obtain ⟨t, ht, hrows⟩ := Option.map_eq_some_iff.mp hrun
  obtain ⟨hbefore, hafter⟩ := Prod.mk.inj hrows
  have hreach := runOperations_reachable hs
  have hfound : ∀ {u : Store} {state : JobState},
      u.jobs.rows.map (fun j => (j.state, j.acceptancePhase)) = [(state, .accepted)] →
      ∃ job ∈ u.jobs, job.state = state ∧ job.acceptancePhase = .accepted := by
    intro u state hu
    have hmem : (state, AcceptancePhase.accepted) ∈
        u.jobs.rows.map fun j => (j.state, j.acceptancePhase) := by
      rw [hu]
      exact List.mem_cons_self
    obtain ⟨job, hjob, hpair⟩ := List.mem_map.mp hmem
    exact ⟨job, hjob, (Prod.mk.inj hpair).1, (Prod.mk.inj hpair).2⟩
  exact ⟨s, t, hreach, hreach.steps (runOperations_steps ht), hfound hbefore, hfound hafter⟩

/-- Without a runner the job is asked to stop, and the request is refused. -/
theorem accepted_stop_changes :
    ¬∀ s, (database WholeFloat demoDigest).Reachable s → ∀ job ∈ s.jobs,
      ∀ (self : Daemon) (clock : Nat → Timestamp),
        StopAtomic demoSeconds demoContext self s job clock := by
  intro h
  obtain ⟨s, -, hreach, -, ⟨job, hjob, hstate, hphase⟩, -⟩ := acceptedRun_jobs
  have hopen : job.state.terminal = false := by
    rw [hstate]
    rfl
  have hactive : job.state ≠ .stopping := by
    rw [hstate]
    exact nofun
  have hbegun : job.acceptancePhase ≠ .none := by
    rw [hphase]
    exact nofun
  exact not_stopAtomic_active hreach hjob hopen hactive hbegun rfl
    (h s hreach job hjob {} fun _ => 5)

/-- The task of `demoTaskRun` as a stop leaves it. -/
def cancelledTask : TaskRow :=
  { demoStatusTask with state := .stopped, lastError := stopNote, updatedAt := 7 }

def cancelledAttempt : AttemptRow :=
  { demoStatusAttempt with state := .cancelled, finishedAt := some 7, summary := stopNote }

def stoppedJob : JobRow := (demoStatusJob.stopping 5).stopped 8

def cancelledContext : StatusContext WholeFloat :=
  { demoContext with groups := [(Text.lit "codex", .cancelled)] }

/-- Without a runner, the stop itself cancels the work in flight. -/
theorem demoTaskRun_stop : ∃ s t, (database WholeFloat demoDigest).Reachable s ∧
    s.jobs.rows = [demoStatusJob] ∧
    ({} : Daemon).afterStop s demoStatusJob (fun n => 5 + n) = some t ∧
    t.jobs.rows = [stoppedJob] ∧ t.tasks.rows = [cancelledTask] ∧
    t.attempts.rows = [cancelledAttempt] := by
  have hrun : ((runOperations demoDigest demoTaskRun Store.empty).bind fun s =>
      (({} : Daemon).afterStop s demoStatusJob fun n => 5 + n).map fun t =>
        (s.jobs.rows, t.jobs.rows, t.tasks.rows, t.attempts.rows)) =
      some ([demoStatusJob], [stoppedJob], [cancelledTask], [cancelledAttempt]) := by
    decide +kernel
  obtain ⟨s, hs, hrun⟩ := Option.bind_eq_some_iff.mp hrun
  obtain ⟨t, ht, hrows⟩ := Option.map_eq_some_iff.mp hrun
  rw [Prod.mk.injEq, Prod.mk.injEq, Prod.mk.injEq] at hrows
  exact ⟨s, t, runOperations_reachable hs, hrows.1, ht, hrows.2⟩

/-- The status of the job that has been stopped is within the ceiling. -/
theorem tellable_cancelled {t : Store} (h : (database WholeFloat demoDigest).Reachable t)
    (hjobs : t.jobs.rows = [stoppedJob])
    (htasks : t.tasks.rows = [cancelledTask]) (hattempts : t.attempts.rows = [cancelledAttempt]) :
    Tellable demoSeconds cancelledContext t stoppedJob.id := by
  intro job hshown hgroups events _
  -- the job of the example is the one that is shown
  have hjob : job = stoppedJob := by
    rw [← List.mem_singleton, ← hjobs]
    exact hshown.1
  subst hjob
  have htasksOf : t.tasksOf stoppedJob.id = [cancelledTask] := by
    rw [(reachable_sound h).tasks.tasksOf_eq, Table.select, htasks]
    decide +kernel
  have hattemptsOf : t.attemptsOf stoppedJob.id = [cancelledAttempt] := by
    rw [Store.attemptsOf, Table.select, hattempts]
    decide +kernel
  -- its texts are within the limits, and its identifiers are drawn
  have hlimits : StatusLimits t stoppedJob := by
    constructor
    · rw [htasksOf]
      decide
    · rw [htasksOf]
      decide +kernel
    · rw [htasksOf]
      decide +kernel
    · decide +kernel
    · decide +kernel
    · decide +kernel
    · decide +kernel
    · rw [hattemptsOf]
      decide +kernel
    · rw [hattemptsOf]
      decide +kernel
  have hdrawn : DrawnRows t stoppedJob := by
    constructor
    · exact ⟨List.replicate 12 0, by decide +kernel⟩
    · rw [htasksOf]
      intro task htask
      rw [List.mem_singleton.mp htask]
      exact ⟨List.replicate 12 0, by decide +kernel⟩
    · decide +kernel
    · rw [hattemptsOf]
      decide
  -- so the last round fits, whatever events there are
  refine ⟨_, ?_, finalRound_fits (reachable_sound h).tasks (reachable_bounded h) demoSeconds_short
    ⟨by decide +kernel, by decide +kernel⟩ hshown.1 hlimits hdrawn hgroups events⟩
  rw [Status.rounds]
  simp

/-- An accepted job is changed by the first request and not by the second one; a job with a task
in flight is stopped and told of. -/
theorem stop_refusal_accepted : ∃ (s t u : Store) (job job' : JobRow),
    (job ∈ s.jobs ∧ job.state = .running ∧ job.acceptancePhase = .accepted ∧
      ¬StopAtomic demoSeconds demoContext {} s job fun _ => 5) ∧
    (job' ∈ t.jobs ∧ job'.state = .stopping ∧ job'.acceptancePhase = .accepted ∧
      StopAtomic demoSeconds demoContext {} t job' fun _ => 7) ∧
    demoStatusJob ∈ u.jobs ∧ ({} : Daemon).Stops demoStatusJob ∧
      StopAtomic demoSeconds cancelledContext {} u demoStatusJob fun n => 5 + n := by
  obtain ⟨s, t, hs, ht, ⟨job, hjob, hstate, hphase⟩, job', hjob', hstate', hphase'⟩ :=
    acceptedRun_jobs
  obtain ⟨u, v, hu, hrow, hafter, hstopped⟩ := demoTaskRun_stop
  have hown : demoStatusJob ∈ u.jobs := by
    rw [← Table.mem_rows, hrow]
    exact List.mem_cons_self
  have hstops : ({} : Daemon).Stops demoStatusJob := ⟨rfl, .inl rfl, nofun⟩
  refine ⟨s, t, u, job, job', ⟨hjob, hstate, hphase, ?_⟩, ⟨hjob', hstate', hphase', ?_⟩, hown,
    hstops, ?_⟩
  -- an accepted job that runs has no live runner: the stop is refused, and leaves a trace
  · rw [stop_refusal_iff hs hjob]
    intro hsafe
    have hlive := hsafe.accepted (by rw [hstate]; rfl) (by rw [hstate]; exact nofun)
      (by rw [hphase]; exact nofun)
    exact absurd hlive nofun
  -- the same in `stopping`: the stop is refused before it writes
  · rw [stop_refusal_iff ht hjob']
    refine ⟨fun _ hother => absurd hstate' hother, ?_, ?_⟩
    · intro _ _ hnone
      rw [hphase'] at hnone
      cases hnone
    · rintro ⟨-, hnone | hlive, -⟩
      · rw [hphase'] at hnone
        cases hnone
      · exact absurd hlive nofun
  -- a job that has accepted nothing is stopped
  · rw [stop_refusal_iff hu hown]
    refine ⟨fun _ _ hbegun => absurd rfl hbegun, nofun, ?_⟩
    intro _ t' ht'
    rw [hafter] at ht'
    cases ht'
    -- the store that the stop leaves is reachable
    obtain ⟨self', v', hstop, hstore, -⟩ := stop_goesThrough hu hown hstops
    rw [hafter] at hstore
    cases hstore
    exact tellable_cancelled (hu.steps (stop_steps {} _ u self' v hstop)) hstopped.1 hstopped.2.1
      hstopped.2.2

end OmarchyYolo
