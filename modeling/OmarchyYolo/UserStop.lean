import OmarchyYolo.ApplyOutcome

/-!
# OmarchyYolo.UserStop — a stop stays in force until the job is resumed

`request_stop` writes a flag and a state. The flag is read by the runner before the
final review and in the handler that settles the job, and by recovery after a crash;
it falls with the journal of an acceptance, which a stop cannot take back, and with a
resume.

* `JobRow.Halted`, `JobRow.Overtaken` — a job whose stop is in force, or has come too late;
* `JobRow.Abides` — what an operation short of a resume makes of a row;
* `Store.StopStays` — a halted job stays so, and gets no attempt;
* `stoppable` — the runners of a job, and what others do while they await something;
* `user_stop_stays`: in every run without a resume.
-/

namespace OmarchyYolo

open Py PyJson Calls Lts Sql Txn

/-! ## Rows -/

/-- The states in which a stop leaves a job. -/
def haltedStates : List JobState := [.stopping, .stopped, .failed]

/-- A stop of the job is in force. -/
structure JobRow.Halted (j : JobRow) : Prop where
  phase : j.acceptancePhase = .none
  stop : j.stopRequested = true
  state : j.state ∈ haltedStates

/-- The job has been accepted while it was being stopped, and will be completed. -/
structure JobRow.Overtaken (j : JobRow) : Prop where
  phase : j.acceptancePhase ≠ .none
  state : j.state ∈ [JobState.stopping, .completed]

/-- What an operation short of a resume makes of a row. -/
structure JobRow.Abides (j j' : JobRow) : Prop where
  moved : j'.state ∈ jobTransitions j.state ∨ j'.state = .stopped
  /-- The job goes back into the queue only where no stop is asked for. -/
  requeued : j.stopRequested = true → j'.state = .queued → j.state = .queued
  /-- The flag falls with an acceptance only, -/
  kept : j.stopRequested = true → j'.stopRequested = true ∨ j'.acceptancePhase ≠ .none
  /-- and rises with the state of a stop only. -/
  raised : j'.stopRequested = true → j.stopRequested = true ∨ j'.state ∈ haltedStates

theorem JobRow.Abides.refl (j : JobRow) : j.Abides j where
  moved := Or.inl (mem_jobTransitions_self j.state)
  requeued _ hstate := hstate
  kept hstop := Or.inl hstop
  raised hstop := Or.inl hstop

/-- A move that leaves the flag alone, and not into the queue. -/
theorem JobRow.Abides.of_moved {j j' : JobRow} (hmoved : j'.state ∈ jobTransitions j.state)
    (hqueue : j'.state = .queued → j.state = .queued)
    (hstop : j'.stopRequested = j.stopRequested) : j.Abides j' where
  moved := Or.inl hmoved
  requeued _ := hqueue
  kept h := Or.inl (hstop.trans h)
  raised h := Or.inl (hstop.symm.trans h)

/-- Where a halted job is after one operation, if it has not been accepted. -/
theorem haltedStates_moved {state state' : JobState} (hstate : state ∈ haltedStates)
    (hmoved : state' ∈ jobTransitions state ∨ state' = .stopped) (hqueue : state' ≠ .queued)
    (hcompleted : state' ≠ .completed) : state' ∈ haltedStates := by
  rcases hmoved with hmoved | rfl
  · have hall : ∀ state ∈ haltedStates, ∀ state' ∈ jobTransitions state,
        state' ≠ .queued → state' ≠ .completed → state' ∈ haltedStates := by
      decide
    exact hall state hstate state' hmoved hqueue hcompleted
  · decide

/-- And where it is if it has. -/
theorem overtakenStates_moved {state state' : JobState}
    (hstate : state ∈ haltedStates ∨ state = .completed)
    (hmoved : state' ∈ jobTransitions state ∨ state' = .stopped)
    (haccepted : state' ∈ [JobState.running, .stopping, .completed]) :
    state' ∈ [JobState.stopping, .completed] := by
  rcases hmoved with hmoved | rfl
  · have hall : ∀ state ∈ JobState.completed :: haltedStates, ∀ state' ∈ jobTransitions state,
        state' ∈ [JobState.running, .stopping, .completed] →
          state' ∈ [JobState.stopping, .completed] := by
      decide
    refine hall state ?_ state' hmoved haccepted
    rcases hstate with hstate | rfl
    · exact List.mem_cons_of_mem _ hstate
    · exact List.mem_cons_self
  · revert haccepted
    decide

/-- The states of an accepted job. -/
theorem Store.JobValid.state_accepted {s : Store} {j : JobRow} (h : s.JobValid j)
    (hphase : j.acceptancePhase ≠ .none) :
    j.state ∈ [JobState.running, .stopping, .completed] := by
  by_cases hpublished : j.acceptancePhase = .published
  · rw [h.published_iff.mp hpublished]
    decide
  · have hjournaled : j.acceptancePhase ∈ [AcceptancePhase.accepted, .applying] := by
      cases hj : j.acceptancePhase with
      | none => exact absurd hj hphase
      | published => exact absurd hj hpublished
      | accepted => decide
      | applying => decide
    rcases List.mem_pair.mp (h.accepted_state hjournaled) with hstate | hstate
    · rw [hstate]
      decide
    · rw [hstate]
      decide

theorem Store.JobValid.not_completed {s : Store} {j : JobRow} (h : s.JobValid j)
    (hphase : j.acceptancePhase = .none) : j.state ≠ .completed := by
  intro hstate
  have hpublished := h.published_iff.mpr hstate
  rw [hphase] at hpublished
  cases hpublished

/-- A halted job stays halted, or is accepted. -/
theorem JobRow.Halted.step {s' : Store} {j j' : JobRow} (h : j.Halted) (habides : j.Abides j')
    (hvalid : s'.JobValid j') : j'.Halted ∨ j'.Overtaken := by
  have hqueue : j'.state ≠ .queued := by
    intro hqueued
    have hstate := h.state
    rw [habides.requeued h.stop hqueued] at hstate
    exact absurd hstate (by decide)
  by_cases hphase : j'.acceptancePhase = .none
  · left
    refine ⟨hphase, ?_, ?_⟩
    · exact (habides.kept h.stop).resolve_right fun hne => hne hphase
    · exact haltedStates_moved h.state habides.moved hqueue (hvalid.not_completed hphase)
  · right
    exact ⟨hphase, overtakenStates_moved (Or.inl h.state) habides.moved
      (hvalid.state_accepted hphase)⟩

/-- An acceptance that has won stays. -/
theorem JobRow.Overtaken.step {s' : Store} {j j' : JobRow} (h : j.Overtaken)
    (habides : j.Abides j') (hvalid : s'.JobValid j') (hphase : j'.acceptancePhase ≠ .none) :
    j'.Overtaken := by
  refine ⟨hphase, overtakenStates_moved ?_ habides.moved (hvalid.state_accepted hphase)⟩
  rcases List.mem_pair.mp h.state with hstate | hstate
  · left
    rw [hstate]
    decide
  · exact Or.inr hstate

/-! ## Operations -/

/-- The rows of the job abide, and new ones ask for no stop. -/
def StopStep (jobId : Text) : Table JobRow → Table JobRow → Prop :=
  Table.Evolves (fun j j' => j.id = jobId → j.Abides j') fun j => j.stopRequested = false

/-- What may be written of the job: a stop is asked for as `request_stop` does, none is taken
back, and the job goes into the queue only where none is asked for. -/
structure JobFields.Respects (jobId : Text) (s : Store) (fields : JobFields) : Prop where
  lowers : fields.stopRequested ≠ some false
  raises : fields.stopRequested = some true → fields.state = some (lit JobState.stopping.value)
  queues : fields.state = some (lit JobState.queued.value) →
    ∀ j ∈ s.jobs, j.id = jobId → j.stopRequested = false

/-- The operation resumes the job. -/
def Operation.Resumes {F : Type} (jobId : Text) : Operation F → Prop
  | .call (.prepareResume id _ _) | .call (.clearStop id _ _)
  | .crashedResume id _ => id = jobId.val
  | _ => False

/-- The operation respects a stop of the job. -/
def Operation.Respects {F : Type} (jobId : Text) (s : Store) (op : Operation F) : Prop :=
  match op with
  | .call (.updateJob id fields _) => id = jobId.val → fields.Respects jobId s
  | op => ¬ op.Resumes jobId

section Operations

variable {F : Type} [PyFloat F] {sha256 : Str → Str} {jobId : Text} {s s' : Store}

theorem StopStep.refl (t : Table JobRow) : StopStep jobId t t :=
  Table.Evolves.refl fun j _ _ => .refl j

theorem StopStep.of_same (h : s'.jobs = s.jobs) : StopStep jobId s.jobs s'.jobs := by
  rw [h]
  exact .refl s.jobs

theorem StopStep.update {t : Table JobRow} {p : JobRow → Bool} {f : JobRow → JobRow}
    (keeps : ∀ j, Row.key (f j) = Row.key j)
    (h : ∀ j ∈ t, p j = true → j.id = jobId → j.Abides (f j)) :
    StopStep jobId t (t.update p f keeps) :=
  Table.Evolves.update keeps h fun j _ _ => .refl j

/-- The text of a state names it alone. -/
theorem targetState_queued {state target : JobState} {text : Option Str}
    (h : targetState JobState.ofValue? "JobState" state text = .ok target)
    (htarget : target = .queued) :
    text = some (lit JobState.queued.value) ∨ state = .queued := by
  cases text with
  | none =>
    right
    rw [← targetState_none h, htarget]
  | some text =>
    left
    have hvalue := targetState_some h
    rw [htarget] at hvalue
    have hfound := List.find?_some hvalue
    rw [beq_iff_eq] at hfound
    rw [hfound]

theorem targetState_stopping {state target : JobState}
    (h : targetState JobState.ofValue? "JobState" state (some (lit JobState.stopping.value)) =
      .ok target) : target = .stopping := by
  have hvalue := targetState_some h
  have hstopping : JobState.ofValue? (lit JobState.stopping.value) = some .stopping := by
    decide
  rw [hstopping] at hvalue
  injection hvalue with hsame
  exact hsame.symm

theorem updateJob_stopStep {id : Str} {fields : JobFields} {now : Timestamp}
    (hfields : id = jobId.val → fields.Respects jobId s)
    (h : updateJob id fields now s = .ok () s') : StopStep jobId s.jobs s'.jobs := by
  rcases updateJob_cases h with
    ⟨-, rfl⟩ | ⟨id, job, texts, target, rfl, hjob, -, htarget, hmoved, -, -, rfl, -⟩
  -- without fields nothing is written
  · exact .refl s'.jobs
  refine StopStep.update (fields.write_id texts target now) ?_
  intro j hj hp hid
  rw [Bool.and_eq_true, beq_iff_eq, beq_iff_eq] at hp
  have hown : id.val = jobId.val := congrArg Text.val (hp.1.symm.trans hid)
  have hrespects := hfields hown
  have hwritten : (fields.write texts target now j).stopRequested =
      fields.stopRequested.getD j.stopRequested := rfl
  -- the fields of the stop step, in order
  constructor
  -- the state moves along an edge of the state machine
  · left
    rw [hp.2]
    exact hmoved
  -- only `queues` could put the job back in the queue, and it asks for a lowered flag
  · intro hstop hqueued
    rcases targetState_queued htarget hqueued with htext | hstate
    · have hclear := hrespects.queues htext j hj hid
      rw [hstop] at hclear
      cases hclear
    · exact hp.2.trans hstate
  -- the flag is not lowered by these fields
  · intro hstop
    left
    rw [hwritten]
    cases hflag : fields.stopRequested with
    | none => exact hstop
    | some flag =>
      cases flag with
      | true => rfl
      | false => exact absurd hflag hrespects.lowers
  -- a flag that is raised comes with a state that halts
  · intro hstop
    rw [hwritten] at hstop
    cases hflag : fields.stopRequested with
    | none =>
      rw [hflag] at hstop
      exact Or.inl hstop
    | some flag =>
      rw [hflag] at hstop
      have hset : flag = true := hstop
      rw [hset] at hflag
      rw [hrespects.raises hflag] at htarget
      right
      show target ∈ haltedStates
      rw [targetState_stopping htarget]
      decide

theorem Activated.stopStep {job : JobRow} {target : TaskState} {now : Timestamp} {t : Store}
    (h : Activated job target now s t) : StopStep jobId s.jobs t.jobs := by
  rcases h with rfl | ⟨-, hstate, rfl⟩
  · exact .refl t.jobs
  refine StopStep.update (f := fun j => { j with state := .running, updatedAt := now })
    (fun _ => rfl) ?_
  intro j _ hp _
  rw [Bool.and_eq_true, beq_iff_eq, beq_iff_eq] at hp
  refine .of_moved ?_ (fun hqueued => ?_) rfl
  · show JobState.running ∈ jobTransitions j.state
    rw [hp.2]
    rcases List.mem_pair.mp hstate with hstate | hstate
    · rw [hstate]
      decide
    · rw [hstate]
      decide
  · cases hqueued

/-- Recovery puts a job back into the queue only where no stop is asked for. -/
theorem recovered_stopStep (now : Timestamp) :
    StopStep jobId s.jobs (s.recovered now).jobs := by
  apply Table.Evolves.of_map (s.recovered_jobs now)
  intro j hj
  have hfate : s.interrupted.job now j = _ := s.interrupted_job hj
  refine ⟨?_, fun _ => ?_⟩
  · rw [hfate]
    split_ifs <;> rfl
  · rw [hfate]
    split_ifs with hterminal hphase hactive
    · exact .refl j
    · refine ⟨Or.inl (mem_jobTransitions_self j.state), fun _ hstate => hstate, fun _ => ?_, ?_⟩
      · right
        show j.acceptancePhase ≠ .none
        intro hnone
        rw [hnone] at hphase
        exact absurd hphase (by decide)
      · intro hstop
        cases hstop
    · refine ⟨Or.inl (queued_mem_jobTransitions (eq_false_of_ne_true hterminal)), ?_, ?_, ?_⟩
      · intro hstop
        rw [hactive.1] at hstop
        cases hstop
      · intro hstop
        rw [hactive.1] at hstop
        cases hstop
      · intro hstop
        cases hstop
    · refine ⟨Or.inr rfl, fun _ hqueued => ?_, fun _ => Or.inl rfl, fun _ => Or.inr ?_⟩
      · cases hqueued
      · show JobState.stopped ∈ haltedStates
        decide

/-- An acceptance that is journaled lets the flag fall, and no other. -/
theorem Journaled.stopStep {job : JobRow} {args : Acceptance} {intent : SourceApplyIntent}
    {now : Timestamp} (h : Journaled job args intent now s s') :
    StopStep jobId s.jobs s'.jobs := by
  obtain ⟨row, t, commit, summary, -, hupsert, -, -, happend⟩ := h.writes
  have hjobs := (Store.upsertDossier?_eq_some hupsert).2.jobs
  rw [happend.1.jobs, ← hjobs]
  refine StopStep.update (acceptJob_id commit summary intent now) ?_
  intro j _ _ _
  refine ⟨Or.inl (mem_jobTransitions_self j.state), fun _ hstate => hstate, fun _ => ?_, ?_⟩
  · right
    show AcceptancePhase.accepted ≠ .none
    decide
  · intro hstop
    cases hstop

theorem Published.stopStep {job : JobRow} {args : Publication} {outcome : SourceApplyOutcome}
    {now : Timestamp} (h : Published job args outcome now s s') :
    StopStep jobId s.jobs s'.jobs := by
  obtain ⟨summary, reason, -, -, happend⟩ := h.writes
  rw [happend.1.jobs]
  refine StopStep.update (completeJob_id summary reason outcome now) ?_
  intro j _ hp _
  simp only [Bool.and_eq_true, beq_iff_eq] at hp
  refine ⟨Or.inl ?_, fun _ hqueued => ?_, fun _ => Or.inr ?_, fun hstop => ?_⟩
  · show JobState.completed ∈ jobTransitions j.state
    rw [hp.1.2]
    exact h.state
  · cases hqueued
  · show AcceptancePhase.published ≠ .none
    decide
  · cases hstop

/-- A new job asks for no stop. -/
theorem createJob_stopStep {newId : Text} {now : Timestamp} {args : NewJob} {reply : JobRow}
    (h : createJob newId now args s = .ok reply s') : StopStep jobId s.jobs s'.jobs := by
  rw [createJob, db_bind_ok_iff] at h
  obtain ⟨_, u, htx, hget⟩ := h
  obtain ⟨rfl, -⟩ := getJob_cases hget
  rw [transaction_ok_iff] at htx
  simp only [tx_bind_ok_iff, lift_ok_iff, bindText_eq_ok, insertJob, writeOrRaise_ok_iff,
    validateSnapshot_ok_iff] at htx
  obtain ⟨repo, _, ⟨-, rfl⟩, goal, _, ⟨-, rfl⟩, branch, _, ⟨-, rfl⟩, commit, _, ⟨-, rfl⟩,
    integration, _, ⟨-, rfl⟩, _, t, hinsert, _, _, hevents, hret, -⟩ := htx
  cases hret
  obtain ⟨jobs, keeps, hjobs, rfl⟩ := Store.insertJob?_eq_some hinsert
  rw [(insertJobEvents_ok hevents).1.jobs]
  exact .insert hjobs (fun j _ _ => .refl j) rfl

/-- The resume of another job. -/
theorem resumed_stopStep {job : JobRow} {now : Timestamp} (hother : job.id ≠ jobId) :
    StopStep jobId s.jobs (s.resumed job now).jobs := by
  refine StopStep.update (resumeJob_id now) ?_
  intro j _ hp hid
  simp only [Bool.and_eq_true, beq_iff_eq] at hp
  exact absurd (hp.1.1.symm.trans hid) hother

omit [PyFloat F] in
/-- No operation but a resume takes a stop back. -/
theorem Call.run_stopStep {call : Call} (h : call.run sha256 s = .ok () s')
    (hcall : (Operation.call (F := F) call).Respects jobId s) :
    StopStep jobId s.jobs s'.jobs := by
  -- by the call: those that write no job keep its row
  cases call with
  | createJob =>
    exact createJob_stopStep (dropReply_ok_iff.mp h).choose_spec
  | addTasks =>
    obtain ⟨job, -, -, -, -, honly, -⟩ := addTasks_cases (dropReply_ok_iff.mp h).choose_spec
    exact .of_same honly.jobs
  | updateJob => exact updateJob_stopStep hcall h
  | updateTask =>
    rcases updateTask_cases h with
      -- activation is the one change of the job a task update makes
      ⟨-, rfl⟩ | ⟨id, task, job, columns, target, t, -, -, -, -, -, -, hactivated, -, -, rfl, -⟩
    · exact .refl s'.jobs
    · exact hactivated.stopStep
  | startAttempt =>
    obtain ⟨task, job, attempt, -, -, -, -, -, -, -, -, -, -, -, -, -, -, -, hinsert, -⟩ :=
      startAttempt_cases (dropReply_ok_iff.mp h).choose_spec
    exact .of_same (Store.insertAttempt?_eq_some hinsert).2.jobs
  | finishAttempt =>
    obtain ⟨attempt, target, returncode, summary, -, -, -, -, -, -, rfl, -⟩ := finishAttempt_cases h
    exact .refl s.jobs
  | settleInflight =>
    obtain ⟨job, -, settled, note, -, -, -, -, -, rfl, -⟩ := settleInflight_cases h
    exact .refl s.jobs
  | prepareResume =>
    -- `hcall` excludes a resumption of this job
    obtain ⟨job, -, rfl, -, -, -, hevent⟩ := prepareResume_cases h
    rw [(jobEvent_onlyEvents hevent).jobs]
    exact resumed_stopStep fun hid => hcall (congrArg Text.val hid)
  | retryFailedTasks =>
    obtain ⟨job, -, -, -, -, rfl, -⟩ := retryFailedTasks_cases h
    exact .refl s.jobs
  | recoverIncomplete =>
    -- recovery puts the job back as stopped, or keeps what it finds
    obtain ⟨t, hrows, honly, -⟩ := recoverIncomplete_rows (dropReply_ok_iff.mp h).choose_spec
    obtain ⟨-, rfl, -⟩ := recoverRows_cases hrows
    rw [honly.jobs]
    exact recovered_stopStep _
  | requestStop =>
    obtain ⟨t, hupdate, honly⟩ := requestStop_rows h
    rw [honly.jobs]
    -- a stop request raises the flag, and moves to `stopping` or stays
    refine updateJob_stopStep (fun _ => ⟨?_, fun _ => rfl, ?_⟩) hupdate
    · decide
    · intro hqueued
      have hother : some (lit JobState.stopping.value) ≠ some (lit JobState.queued.value) := by
        decide
      exact absurd hqueued hother
  | clearStop =>
    obtain ⟨t, hupdate, honly⟩ := clearStop_rows h
    rw [honly.jobs]
    -- `hcall` excludes lowering the flag of this job
    exact updateJob_stopStep (fun hown => absurd hown hcall) hupdate
  | stageDossier =>
    obtain ⟨-, -, -, -, -, -, row, -, hupsert⟩ := stageDossier_cases sha256 h
    exact .of_same (Store.upsertDossier?_eq_some hupsert).2.jobs
  | prepareAcceptedJob =>
    obtain ⟨job, -, intent, -, -, -, -, hcases⟩ := prepareAcceptedJob_cases sha256 h
    rcases hcases with ⟨-, -, rfl⟩ | hjournal
    · exact .refl s'.jobs
    -- the same acceptance again writes nothing
    · exact hjournal.stopStep
  | markApplyStarted =>
    obtain ⟨job, -, -, -, -, hcases⟩ := markApplyStarted_cases h
    rcases hcases with ⟨-, rfl⟩ | ⟨-, happend, -⟩
    -- an application that has started moves no state
    · exact .refl s'.jobs
    · rw [happend.1.jobs]
      refine StopStep.update (startApply_id _) ?_
      intro j _ _ _
      exact .of_moved (mem_jobTransitions_self j.state) (fun hstate => hstate) rfl
  | publishCompletedJob =>
    obtain ⟨job, -, dossier, -, outcome, -, -, -, -, hcases⟩ := publishCompletedJob_cases sha256 h
    rcases hcases with ⟨-, -, -, -, rfl⟩ | ⟨-, hpublish⟩
    -- the same publication again writes nothing
    · exact .refl s'.jobs
    · exact hpublish.stopStep

theorem Operation.run_stopStep {op : Operation F} (h : op.run sha256 s = .ok () s')
    (hop : op.Respects jobId s) : StopStep jobId s.jobs s'.jobs := by
  cases op with
  | call call => exact Call.run_stopStep h hop
  | event =>
    obtain ⟨reply, hevent⟩ := dropReply_ok_iff.mp h
    exact .of_same (event_onlyEvents hevent).jobs
  | crashedResume =>
    obtain ⟨job, -, rfl, -, -, heq, -⟩ := resumeRows_cases (transaction_ok_iff.mp h)
    cases heq
    exact resumed_stopStep fun hid => hop (congrArg Text.val hid)
  | crashedRecovery =>
    obtain ⟨groups, hrows⟩ := dropReply_ok_iff.mp h
    obtain ⟨-, rfl, -⟩ := recoverRows_cases (transaction_ok_iff.mp hrows)
    exact recovered_stopStep _

/-! ## Attempts -/

/-- No attempt is started. -/
def Store.StartsNone (s s' : Store) : Prop :=
  Table.Evolves (fun _ _ => True) (fun _ => False) s.attempts s'.attempts

theorem Store.StartsNone.of_same (h : s'.attempts = s.attempts) : s.StartsNone s' := by
  rw [Store.StartsNone, h]
  exact .refl fun _ _ => trivial

instance : IsPreorder Store Store.StartsNone where
  refl _ := .of_same rfl
  trans _ _ _ h h' := Table.Evolves.trans h h' (fun _ _ _ _ _ _ => trivial)
    (fun _ _ hfalse _ => hfalse) fun _ hfalse => hfalse

/-- Only the insertion of an attempt starts one. -/
theorem allows_startsNone :
    Allows Store.StartsNone (fun _ _ => True) (fun _ => True) (fun _ => True) where
  jobs p f keeps _ s r h := by
    rw [updateJobs_ok_iff.mp h]
    exact .of_same rfl
  tasks p f keeps _ s r h := by
    rw [updateTasks_ok_iff.mp h]
    exact .of_same rfl
  attempts p f keeps _ s r h := by
    rw [updateAttempts_ok_iff.mp h]
    exact Table.Evolves.update keeps (fun _ _ _ => trivial) fun _ _ => trivial
  dossiers p keeps s r h := by
    rw [updateDossiers_ok_iff.mp h]
    exact .of_same rfl
  job row _ s r h := by
    obtain ⟨jobs, keeps, -, heq⟩ := Store.insertJob?_eq_some (writeOrRaise_ok_iff.mp h)
    rw [heq]
    exact .of_same rfl
  task row _ s r h := by
    have honly := (Store.insertTask?_eq_some (writeOrRaise_ok_iff.mp h)).2
    exact .of_same honly.attempts
  dossier row _ s r h := by
    have honly := (Store.upsertDossier?_eq_some (writeOrRaise_ok_iff.mp h)).2
    exact .of_same honly.attempts
  event jobId taskId kind payload now _ s r h := by
    obtain ⟨payload', -, hinsert⟩ := insertEvent_ok h
    have honly := (Store.insertEvent?_eq_some hinsert).2
    exact .of_same honly.attempts
  kept _ _ _ := trivial
  moved _ _ := trivial
  settled _ _ _ := trivial
  bare := trivial

/-- An attempt is started in a running job only. -/
theorem Operation.run_attempts {op : Operation F} (h : op.run sha256 s = .ok () s') {j : JobRow}
    (hj : j ∈ s.jobs) (hid : j.id = jobId) (hstate : j.state ≠ .running) {a : AttemptRow}
    (ha : a ∈ s'.attempts) (hown : a.jobId = jobId) :
    ∃ a₀ ∈ s.attempts, a₀.id = a.id ∧ a₀.jobId = jobId := by
  by_cases hstarts : op.Starts
  · obtain ⟨newId, now, args, rfl⟩ := hstarts
    obtain ⟨task, job, attempt, -, hjob, -, howner, -, hrunning, -, -, -, -, hjobId, -, -, -, -,
      hinsert, -⟩ := startAttempt_cases (dropReply_ok_iff.mp h).choose_spec
    obtain ⟨hrow, -⟩ := Store.insertAttempt?_eq_some hinsert
    rcases (Table.mem_insert? hrow).mp ha with hold | rfl
    · exact ⟨a, hold, rfl, hown⟩
    · -- the attempt is one of another job, which is running
      have hsame : j.id = job.id := hid.trans (hown.symm.trans (hjobId.trans howner))
      rw [Store.eq_of_id hj hjob hsame] at hstate
      exact absurd hrunning hstate
  · have hnone : s.StartsNone s' := operation_follows allows_startsNone op (fun _ _ => trivial)
      (fun _ _ _ => trivial) (fun _ _ => trivial) (fun hop => absurd hop hstarts)
      (fun _ => trivial) _ _ _ h
    rcases Table.Evolves.backward hnone ha with ⟨a₀, ha₀, hkey, -⟩ | hfalse
    · have hsame : a.id = a₀.id := congrArg Prod.fst hkey
      have howner : a.jobId = a₀.jobId := congrArg (fun key => key.2.1) hkey
      exact ⟨a₀, ha₀, hsame.symm, howner.symm.trans hown⟩
    · exact hfalse.elim

/-! ## A stop that stays -/

/-- A stop that is in force stays so, unless the job is accepted; an acceptance that has won
stays; and no attempt of the job is started. -/
structure Store.StopStays (jobId : Text) (s s' : Store) : Prop where
  halted : ∀ j ∈ s.jobs, j.id = jobId → j.Halted →
    ∃ j' ∈ s'.jobs, j'.id = jobId ∧ (j'.Halted ∨ j'.Overtaken)
  overtaken : ∀ j ∈ s.jobs, j.id = jobId → j.Overtaken →
    ∃ j' ∈ s'.jobs, j'.id = jobId ∧ j'.Overtaken
  attempts : ∀ j ∈ s.jobs, j.id = jobId → j.Halted ∨ j.Overtaken →
    ∀ a ∈ s'.attempts, a.jobId = jobId → ∃ a₀ ∈ s.attempts, a₀.id = a.id ∧ a₀.jobId = jobId

instance : IsPreorder Store (Store.StopStays jobId) where
  refl s :=
    ⟨fun j hj hid h => ⟨j, hj, hid, Or.inl h⟩, fun j hj hid h => ⟨j, hj, hid, h⟩,
      fun _ _ _ _ a ha hown => ⟨a, ha, rfl, hown⟩⟩
  trans s t u h h' := by
    have hover : ∀ j ∈ s.jobs, j.id = jobId → j.Overtaken →
        ∃ j' ∈ u.jobs, j'.id = jobId ∧ j'.Overtaken := by
      intro j hj hid hj'
      obtain ⟨j₁, hj₁, hid₁, hover₁⟩ := h.overtaken j hj hid hj'
      exact h'.overtaken j₁ hj₁ hid₁ hover₁
    refine ⟨fun j hj hid hhalted => ?_, hover, fun j hj hid hstop a ha hown => ?_⟩
    · obtain ⟨j₁, hj₁, hid₁, hhalted₁ | hover₁⟩ := h.halted j hj hid hhalted
      · exact h'.halted j₁ hj₁ hid₁ hhalted₁
      · obtain ⟨j₂, hj₂, hid₂, hover₂⟩ := h'.overtaken j₁ hj₁ hid₁ hover₁
        exact ⟨j₂, hj₂, hid₂, Or.inr hover₂⟩
    · have hmiddle : ∃ j₁ ∈ t.jobs, j₁.id = jobId ∧ (j₁.Halted ∨ j₁.Overtaken) := by
        rcases hstop with hhalted | hover₀
        · exact h.halted j hj hid hhalted
        · obtain ⟨j₁, hj₁, hid₁, hover₁⟩ := h.overtaken j hj hid hover₀
          exact ⟨j₁, hj₁, hid₁, Or.inr hover₁⟩
      obtain ⟨j₁, hj₁, hid₁, hstop₁⟩ := hmiddle
      obtain ⟨a₁, ha₁, hsame₁, hown₁⟩ := h'.attempts j₁ hj₁ hid₁ hstop₁ a ha hown
      obtain ⟨a₀, ha₀, hsame₀, hown₀⟩ := h.attempts j hj hid hstop a₁ ha₁ hown₁
      exact ⟨a₀, ha₀, hsame₀.trans hsame₁, hown₀⟩

/-- A stop that is asked for is in force, until the job is accepted. -/
def Store.StopsHold (jobId : Text) (s : Store) : Prop :=
  ∀ j ∈ s.jobs, j.id = jobId → j.stopRequested = true → j.acceptancePhase = .none → j.Halted

/-- An operation that respects a stop of the job. -/
theorem Operation.run_stopStays (hs : s.Sound sha256) {op : Operation F}
    (h : op.run sha256 s = .ok () s') (hop : op.Respects jobId s) : s.StopStays jobId s' := by
  have hs' := Operation.run_sound hs h
  have hstep := Operation.run_stopStep h hop
  refine ⟨fun j hj hid hhalted => ?_, fun j hj hid hover => ?_, fun j hj hid hstop a ha hown => ?_⟩
  · obtain ⟨j', hj', hkey, habides⟩ := hstep.forward hj
    have hid' : j'.id = jobId := Eq.trans hkey hid
    exact ⟨j', hj', hid', hhalted.step (habides hid) (hs'.valid j' hj')⟩
  · obtain ⟨j', hj', hkey, habides⟩ := hstep.forward hj
    have hid' : j'.id = jobId := Eq.trans hkey hid
    obtain ⟨j'', hj'', hlater⟩ := operation_later hs h hj hover.phase
    obtain rfl : j'' = j' := Store.eq_of_id hj'' hj' (hlater.id.trans (hid.trans hid'.symm))
    exact ⟨j'', hj'', hid', hover.step (habides hid) (hs'.valid j'' hj'')
      (laterPhases_ne_none hlater.phase)⟩
  · refine Operation.run_attempts h hj hid (fun hrunning => ?_) ha hown
    rcases hstop with hhalted | hover
    · have hstate := hhalted.state
      rw [hrunning] at hstate
      exact absurd hstate (by decide)
    · have hstate := hover.state
      rw [hrunning] at hstate
      exact absurd hstate (by decide)

theorem Operation.run_stopsHold (hs : s.Sound sha256) (hhold : s.StopsHold jobId)
    {op : Operation F} (h : op.run sha256 s = .ok () s') (hop : op.Respects jobId s) :
    s'.StopsHold jobId := by
  have hs' := Operation.run_sound hs h
  intro j' hj' hid' hstop hphase
  have hfrom : (∃ j ∈ s.jobs, Row.key j' = Row.key j ∧ (j.id = jobId → j.Abides j')) ∨
      j'.stopRequested = false := (Operation.run_stopStep h hop).backward hj'
  rcases hfrom with ⟨j, hj, hkey, habides⟩ | hfresh
  · have hsame : j'.id = j.id := hkey
    have hid : j.id = jobId := hsame.symm.trans hid'
    have hopen : j.acceptancePhase = .none := by
      by_contra hne
      obtain ⟨j'', hj'', hlater⟩ := operation_later hs h hj hne
      obtain rfl : j'' = j' := Store.eq_of_id hj'' hj' (hlater.id.trans hsame.symm)
      exact laterPhases_ne_none hlater.phase hphase
    rcases (habides hid).raised hstop with hbefore | hstate
    · rcases (hhold j hj hid hbefore hopen).step (habides hid) (hs'.valid j' hj') with
        hhalted | hover
      · exact hhalted
      · exact absurd hphase hover.phase
    · exact ⟨hphase, hstop, hstate⟩
  · rw [hstop] at hfresh
    cases hfresh

/-- A resumed job asks for no stop. -/
theorem resumed_asksNothing {job : JobRow} {now : Timestamp} (hjob : job ∈ s.jobs)
    (hphase : job.acceptancePhase = .none) {j' : JobRow} (hj' : j' ∈ (s.resumed job now).jobs)
    (hid : j'.id = job.id) : j'.stopRequested = false := by
  have hmem : j' ∈ s.jobs.update
      (fun j => j.id == job.id && j.state == job.state && j.acceptancePhase == .none)
      (resumeJob now) (resumeJob_id now) := hj'
  obtain ⟨j, hj, rfl⟩ := Table.mem_update.mp hmem
  have hkey : (Table.setWhere
      (fun j : JobRow => j.id == job.id && j.state == job.state && j.acceptancePhase == .none)
      (resumeJob now) j).id = j.id :=
    Table.key_setWhere (f := resumeJob now) (resumeJob_id now) j
  obtain rfl : j = job := Store.eq_of_id hj hjob (hkey.symm.trans hid)
  rw [Table.setWhere_pos]
  · rfl
  · simp only [hphase, beq_self_eq_true, Bool.and_self]

/-- Nor does one whose flag is cleared. -/
theorem updateJob_asksNothing {id : Str} {fields : JobFields} {now : Timestamp}
    (h : updateJob id fields now s = .ok () s') (hfields : fields.stopRequested = some false)
    {j' : JobRow} (hj' : j' ∈ s'.jobs) (hid' : j'.id.val = id) : j'.stopRequested = false := by
  rcases updateJob_cases h with
    ⟨hempty, -⟩ | ⟨key, job, texts, target, rfl, hjob, -, -, -, -, -, rfl, -⟩
  · rw [JobFields.isEmpty, beq_iff_eq] at hempty
    rw [hempty] at hfields
    cases hfields
  · have hmem : j' ∈ s.jobs.update (fun j => j.id == key && j.state == job.state)
        (fields.write texts target now) (fields.write_id texts target now) := hj'
    obtain ⟨j, hj, rfl⟩ := Table.mem_update.mp hmem
    have hkey : (Table.setWhere (fun j : JobRow => j.id == key && j.state == job.state)
        (fields.write texts target now) j).id = j.id :=
      Table.key_setWhere (f := fields.write texts target now) (fields.write_id texts target now) j
    obtain ⟨hmemJob, hidJob⟩ := Store.mem_of_job? hjob
    obtain rfl : j = job :=
      Store.eq_of_id hj hmemJob (hkey.symm.trans ((Text.ext hid').trans hidJob.symm))
    rw [Table.setWhere_pos]
    · show fields.stopRequested.getD j.stopRequested = false
      rw [hfields]
      rfl
    · simp only [hidJob, beq_self_eq_true, Bool.and_self]

theorem Operation.Resumes.asksNothing {op : Operation F} (hop : op.Resumes jobId)
    (h : op.run sha256 s = .ok () s') :
    ∀ j' ∈ s'.jobs, j'.id = jobId → j'.stopRequested = false := by
  intro j' hj' hid'
  unfold Operation.Resumes at hop
  split at hop
  · obtain ⟨job, hjob, rfl, hphase, -, -, hevent⟩ := prepareResume_cases h
    rw [(jobEvent_onlyEvents hevent).jobs] at hj'
    exact resumed_asksNothing hjob hphase hj' (hid'.trans (Text.ext hop).symm)
  · obtain ⟨t, hupdate, honly⟩ := clearStop_rows h
    rw [honly.jobs] at hj'
    exact updateJob_asksNothing hupdate rfl hj' (hop ▸ congrArg Text.val hid')
  · obtain ⟨job, hjob, rfl, hphase, -, heq, -⟩ := resumeRows_cases (transaction_ok_iff.mp h)
    cases heq
    exact resumed_asksNothing hjob hphase hj' (hid'.trans (Text.ext hop).symm)
  · exact hop.elim

end Operations

/-! ## Runs -/

/-- What a call writes of the job respects a stop. -/
def JobEffect.Respects (jobId : Text) (s : Store) : JobEffect → Prop
  | .updateJob id fields => id = jobId → fields.Respects jobId s
  | _ => True

section System

variable (F : Type) [PyFloat F] (sha256 : Str → Str) (jobId : Text) (resumes : Bool)

/-- What others do to the database: anything that respects a stop of the job, and resumes of it,
where there are any. -/
def Store.Meanwhile : Store → Store → Prop :=
  Relation.ReflTransGen fun s s' => ∃ op : Operation F,
    (op.Respects jobId s ∨ resumes = true ∧ op.Resumes jobId) ∧ op.run sha256 s = .ok () s'

/-- What a call of a runner does. An operation of the database is done at once; at any other call
others have their turn. -/
def StoppableAnswers (e : JobEffect) (s : Store) (r : Except Raised e.Reply) (s' : Store) : Prop :=
  if e.isOperation then AnswersJob sha256 e s r s' else s.Meanwhile F sha256 jobId resumes s'

/-- The runners of a job, one after another, from an empty database. -/
def stoppable : System (JobCoroutine Unit × Store) PublicationStep where
  init c := c.1 = .ret () ∧ c.2 = Store.empty
  step c l c' :=
    match l with
    | .call reply => ∃ next, c.1 = .call reply.1 next ∧
        StoppableAnswers F sha256 jobId resumes reply.1 c.2 reply.2 c'.2 ∧ c'.1 = next reply.2
    | .start cfg => c'.1 = runJob cfg jobId ∧ c.2.Meanwhile F sha256 jobId resumes c'.2

end System

/-- The invariant: a stop that is asked for is in force. -/
structure Store.Stoppable (sha256 : Str → Str) (jobId : Text) (s : Store) : Prop where
  sound : s.Sound sha256
  holds : s.StopsHold jobId

/-- What a call needs. -/
def JobEffect.Heeds (sha256 : Str → Str) (jobId : Text) (e : JobEffect) (s : Store) : Prop :=
  s.Stoppable sha256 jobId ∧ e.Respects jobId s

section Step

variable {F : Type} [PyFloat F] {sha256 : Str → Str} {jobId : Text} {resumes : Bool}
  {s s' : Store} {e : JobEffect} {r : Except Raised e.Reply}

/-- A call of the database is an operation that respects a stop where the call does. -/
theorem answersJob_respects (h : AnswersJob sha256 e s r s') (he : e.Respects jobId s) :
    s' = s ∨ ∃ op : Operation NonFinite, op.Respects jobId s ∧ op.run sha256 s = .ok () s' := by
  unfold AnswersJob at h
  -- an effect that runs no operation leaves the store
  split_ifs at h with hop
  · cases r with
    -- a raised error has rolled the transaction back
    | error x => exact Or.inl h
    | ok a =>
      obtain ⟨x, hx, hrun⟩ := h
      -- by the effect: reads leave the store, writes are one operation each
      cases e with
      | task e =>
        cases e with
        | getJob id =>
          cases hx
          exact Or.inl (getJob_cases hrun).1
        | getTask id =>
          cases hx
          exact Or.inl (getTask_cases hrun).1
        | updateTask id fields =>
          obtain ⟨now, rfl⟩ := hx
          exact Or.inr ⟨.call (.updateTask id.val fields now), False.elim, hrun⟩
        | startAttempt args =>
          obtain ⟨newId, now, rfl⟩ := hx
          exact Or.inr ⟨.call (.startAttempt newId now args), False.elim,
            dropReply_ok_iff.mpr ⟨a, hrun⟩⟩
        | finishAttempt id state returncode summary =>
          obtain ⟨now, rfl⟩ := hx
          exact Or.inr ⟨.call (.finishAttempt id.val state returncode summary now), False.elim,
            hrun⟩
        | event id kind payload owner =>
          obtain ⟨now, rfl⟩ := hx
          exact Or.inr ⟨.event id.val kind payload (owner.map Text.val) now, False.elim, hrun⟩
        | _ => cases hop
      | updateJob id fields =>
        obtain ⟨now, rfl⟩ := hx
        refine Or.inr ⟨.call (.updateJob id.val fields now), fun hown => ?_, hrun⟩
        exact he (Text.ext hown)
      | listTasks id =>
        cases hx
        exact Or.inl (listTasks_same hrun)
      | addTasks id planned =>
        obtain ⟨newId, now, rfl⟩ := hx
        exact Or.inr ⟨.call (.addTasks id.val newId now planned), False.elim, hrun⟩
      | settleInflight id taskState attemptState summary =>
        obtain ⟨now, rfl⟩ := hx
        exact Or.inr ⟨.call (.settleInflight id.val taskState attemptState summary now), False.elim,
          hrun⟩
      | prepareAcceptedJob id args =>
        obtain ⟨stagedAt, now, rfl⟩ := hx
        exact Or.inr ⟨.call (.prepareAcceptedJob id.val args stagedAt now), False.elim, hrun⟩
      | markApplyStarted id acceptedCommit =>
        obtain ⟨now, rfl⟩ := hx
        exact Or.inr ⟨.call (.markApplyStarted id.val acceptedCommit now), False.elim, hrun⟩
      | stagedDossier id =>
        cases hx
        exact Or.inl (getStagedDossier_same hrun)
      | publishCompletedJob id args =>
        obtain ⟨now, rfl⟩ := hx
        exact Or.inr ⟨.call (.publishCompletedJob id.val args now), False.elim, hrun⟩
      | _ => cases hop
  · exact Or.inl h

/-- The invariant, after an operation of others or of the runner. -/
theorem Operation.run_stoppable (hs : s.Stoppable sha256 jobId) {op : Operation F}
    (h : op.run sha256 s = .ok () s') (hop : op.Respects jobId s ∨ op.Resumes jobId) :
    s'.Stoppable sha256 jobId := by
  refine ⟨Operation.run_sound hs.sound h, ?_⟩
  rcases hop with hop | hop
  · exact Operation.run_stopsHold hs.sound hs.holds h hop
  · intro j' hj' hid' hstop
    rw [hop.asksNothing h j' hj' hid'] at hstop
    cases hstop

theorem Store.Meanwhile.stoppable (h : s.Meanwhile F sha256 jobId resumes s')
    (hs : s.Stoppable sha256 jobId) : s'.Stoppable sha256 jobId := by
  induction h with
  | refl => exact hs
  | tail _ hlast ih =>
    obtain ⟨op, hop, hrun⟩ := hlast
    exact Operation.run_stoppable ih hrun (hop.imp_right And.right)

/-- Where nobody resumes the job, its stop stays. -/
theorem Store.Meanwhile.stopStays (h : s.Meanwhile F sha256 jobId false s')
    (hs : s.Stoppable sha256 jobId) : s.StopStays jobId s' := by
  induction h with
  | refl => exact refl_of (Store.StopStays jobId) s
  | tail hbefore hlast ih =>
    obtain ⟨op, hop, hrun⟩ := hlast
    have hbetween := Store.Meanwhile.stoppable hbefore hs
    refine trans_of (Store.StopStays jobId) ih (Operation.run_stopStays hbetween.sound hrun ?_)
    exact hop.resolve_right fun hresumes => Bool.false_ne_true hresumes.1

theorem JobEffect.Heeds.keeps (hguard : e.Heeds sha256 jobId s)
    (hanswer : StoppableAnswers F sha256 jobId resumes e s r s') : s'.Stoppable sha256 jobId := by
  unfold StoppableAnswers at hanswer
  split_ifs at hanswer with hop
  · rcases answersJob_respects hanswer hguard.2 with rfl | ⟨op, hop, hrun⟩
    · exact hguard.1
    · exact Operation.run_stoppable hguard.1 hrun (Or.inl hop)
  · exact hanswer.stoppable hguard.1

theorem JobEffect.Heeds.stays (hguard : e.Heeds sha256 jobId s)
    (hanswer : StoppableAnswers F sha256 jobId false e s r s') : s.StopStays jobId s' := by
  unfold StoppableAnswers at hanswer
  split_ifs at hanswer with hop
  · rcases answersJob_respects hanswer hguard.2 with rfl | ⟨op, hop, hrun⟩
    · exact refl_of (Store.StopStays jobId) s'
    · exact Operation.run_stopStays hguard.1.sound hrun hop
  · exact hanswer.stopStays hguard.1

end Step

/-! ## Programs -/

/-- A call that writes neither the flag nor the state of a queued job. -/
def JobEffect.mild : JobEffect → Bool
  | .updateJob _ fields =>
    fields.stopRequested.isNone && fields.state != some (lit JobState.queued.value)
  | _ => true

section Mild

variable {cfg : JobConfig} {jobId : Text} {integrationPath : Str} {job : JobRow} {α β : Type}
  {p : JobCoroutine α}

theorem shared_mild {p : Coroutine α} : (shared p).Makes fun e => e.mild = true :=
  Program.Makes.embed (makes_of_forall (fun _ => rfl) p)

theorem performJob_mild {e : JobEffect} (h : e.mild = true) :
    (performJob e).Makes fun e => e.mild = true :=
  makes_perform h

theorem withJobLock_mild (lock : Lock) (h : p.Makes fun e => e.mild = true) :
    (withJobLock lock p).Makes fun e => e.mild = true := by
  refine (performJob_mild rfl).bind fun _ => h.attempt.bind fun outcome => ?_
  exact (performJob_mild rfl).bind fun _ => makes_ofExcept

theorem finishJobBeforeCancel_mild (h : p.Makes fun e => e.mild = true) :
    (finishJobBeforeCancel p).Makes fun e => e.mild = true := by
  refine h.attempt.bind fun outcome => ?_
  exact (performJob_mild rfl).bind fun _ => makes_ofExcept

theorem reconcileFastForwardSource_mild (integrationBranch baseBranch baseCommit
      acceptedCommit : Str) :
    (reconcileFastForwardSource integrationBranch baseBranch baseCommit
      acceptedCommit).Makes fun e => e.mild = true := by
  have hresolve : (resolveBranchCommit integrationBranch).Makes fun e => e.mild = true := by
    refine shared_mild.bind fun _ => Program.Makes.bind (performJob_mild rfl) fun (c : Str) => ?_
    exact makes_ite shared_mild makes_pure
  have hhead : (reconcileFromHead baseCommit acceptedCommit).Makes fun e => e.mild = true := by
    refine Program.Makes.bind (performJob_mild rfl) fun (currentHead : Str) => ?_
    refine makes_ite makes_pure ?_
    refine Program.Makes.bind (performJob_mild rfl) fun (contained : Bool) => ?_
    refine makes_ite makes_pure (makes_ite makes_pure ?_)
    refine Program.Makes.bind (performJob_mild rfl) fun _ => ?_
    refine Program.Makes.bind (performJob_mild rfl) fun (finalHead : Str) => ?_
    exact makes_ite shared_mild makes_pure
  refine hresolve.bind fun commit => makes_ite shared_mild (makes_ite makes_pure ?_)
  refine Program.Makes.bind (performJob_mild rfl) fun (currentBranch : Str) => ?_
  refine makes_ite makes_pure ?_
  refine Program.Makes.bind (performJob_mild rfl) fun (clean : Bool) => ?_
  exact makes_ite hhead makes_pure

theorem applySource_mild : (applySource job).Makes fun e => e.mild = true := by
  unfold applySource
  cases job.sourceApplyIntent with
  | notRequested => exact makes_pure
  | requested =>
    have hstart : (startApplying job).Makes fun e => e.mild = true :=
      makes_ite ((performJob_mild rfl).bind fun _ => shared_mild) makes_pure
    refine hstart.bind fun applying => ?_
    have hreconcile := withJobLock_mild .repo
      (finishJobBeforeCancel_mild (reconcileFastForwardSource_mild applying.integrationBranch.val
        applying.baseBranch.val applying.baseCommit.val applying.acceptedCommit.val))
    exact hreconcile.bind fun _ => makes_pure

theorem resumeAcceptedJob_mild : (resumeAcceptedJob job).Makes fun e => e.mild = true := by
  refine makes_ite makes_raise (makes_ite makes_raise ?_)
  have hdossier : (verifiedDossier job.id).Makes fun e => e.mild = true := by
    refine Program.Makes.bind (performJob_mild rfl) fun (dossier : Option DossierRow) => ?_
    cases dossier with
    | none => exact makes_raise
    | some dossier =>
      refine makes_ite makes_raise (makes_ite makes_raise ?_)
      refine Program.Makes.bind (performJob_mild rfl) fun (verified : Bool) => ?_
      exact makes_ite makes_pure makes_raise
  refine hdossier.bind fun dossier => applySource_mild.bind fun applied => ?_
  exact (performJob_mild rfl).bind fun _ => performJob_mild rfl

theorem completeAcceptedJob_mild {finalSummary : Str} :
    (completeAcceptedJob jobId finalSummary).Makes fun e => e.mild = true := by
  refine shared_mild.bind fun accepted => shared_mild.bind fun finalCommit => ?_
  refine Program.Makes.bind (performJob_mild rfl) fun (dossier : Str × Str) => ?_
  exact (performJob_mild rfl).bind fun _ => shared_mild.bind fun _ => resumeAcceptedJob_mild

theorem planUnplanned_mild :
    (planUnplanned cfg jobId integrationPath).Makes fun e => e.mild = true := by
  have hplan : (planJob cfg jobId integrationPath).Makes fun e => e.mild = true := by
    refine shared_mild.bind fun job => ?_
    refine (performJob_mild rfl).bind fun _ => ?_
    refine shared_mild.bind fun _ => shared_mild.bind fun plannerName => ?_
    refine Program.Makes.bind (Program.Makes.tryCatch ?_ fun x => ?_) fun tasks =>
      performJob_mild rfl
    · exact (performJob_mild rfl).bind fun planned => shared_mild.bind fun _ => makes_pure
    · exact makes_ite (shared_mild.bind fun _ => makes_pure) makes_raise
  refine Program.Makes.bind (performJob_mild rfl) fun (tasks : List TaskRow) => ?_
  exact makes_ite (withJobLock_mild _ hplan) makes_pure

theorem finalize_mild : (finalize cfg jobId integrationPath).Makes fun e => e.mild = true := by
  refine shared_mild.bind fun reviewerName => ?_
  generalize List.range (cfg.maxFinalCycles + 1) = cycles
  induction cycles with
  | nil => exact makes_raise
  | cons cycle cycles ih =>
    have hrepair : ∀ (issue : Str) (failure : String),
        (repairOrRaise cfg jobId integrationPath issue failure).Makes fun e => e.mild = true :=
      fun _ _ => shared_mild.bind fun _ => makes_ite makes_pure makes_raise
    refine shared_mild.bind fun gates => makes_ite ?_ ?_
    · refine (performJob_mild rfl).bind fun review => shared_mild.bind fun _ => ?_
      refine makes_ite makes_pure (makes_ite makes_raise ?_)
      exact (hrepair _ _).bind fun _ => ih
    · refine shared_mild.bind fun gatesText => makes_ite makes_raise ?_
      exact (hrepair _ _).bind fun _ => ih

theorem cleanupJob_mild : (cleanupJob cfg jobId integrationPath).Makes fun e => e.mild = true := by
  have hremove : ∀ path, (removePresent path).Makes fun e => e.mild = true := fun _ =>
    shared_mild.bind fun _ => makes_ite (finishJobBeforeCancel_mild shared_mild) makes_pure
  have htasks : ∀ tasks, (cleanupTasks tasks).Makes fun e => e.mild = true := by
    intro tasks
    induction tasks with
    | nil => exact makes_pure
    | cons task tasks ih =>
      refine (makes_ite makes_pure (hremove _)).bind fun _ => ?_
      exact (makes_ite makes_pure (finishJobBeforeCancel_mild shared_mild)).bind fun _ => ih
  refine makes_ite (Program.Makes.tryCatch (withJobLock_mild _ ?_) fun x => ?_) makes_pure
  · refine (performJob_mild rfl).bind fun tasks => (htasks _).bind fun _ => ?_
    refine (hremove _).bind fun _ => ?_
    refine Program.Makes.bind (performJob_mild rfl) fun (present : Bool) => ?_
    exact makes_ite (finishJobBeforeCancel_mild (performJob_mild rfl)) makes_pure
  · exact makes_ite shared_mild (shared_mild.bind fun _ => makes_raise)

/-- Up to its handlers, a runner leaves the flag alone, and does not put the job back. -/
theorem runBody_mild : (runBody cfg jobId job integrationPath).Makes fun e => e.mild = true := by
  refine makes_ite ?_ ?_
  · refine (finishJobBeforeCancel_mild resumeAcceptedJob_mild).bind fun _ => ?_
    exact shared_mild.bind fun _ => cleanupJob_mild
  · refine shared_mild.bind fun _ => ?_
    refine (performJob_mild rfl).bind fun _ => shared_mild.bind fun _ => ?_
    refine planUnplanned_mild.bind fun _ => ?_
    refine (performJob_mild rfl).bind fun _ => shared_mild.bind fun _ => ?_
    refine (performJob_mild rfl).bind fun _ => shared_mild.bind fun current => ?_
    refine makes_ite makes_raise ?_
    refine (withJobLock_mild _ finalize_mild).bind fun summary => shared_mild.bind fun _ => ?_
    refine (finishJobBeforeCancel_mild completeAcceptedJob_mild).bind fun _ => cleanupJob_mild

theorem settleFailed_mild {message : Str} :
    (settleFailed jobId job message).Makes fun e => e.mild = true := by
  refine (performJob_mild rfl).bind fun _ => shared_mild.bind fun current => ?_
  refine makes_ite (shared_mild.bind fun _ => performJob_mild rfl) ?_
  have hsettle : ∀ summary fields, (JobEffect.updateJob jobId fields).mild = true →
      (settleJob jobId .failed (lit "failed") summary fields).Makes fun e => e.mild = true :=
    fun _ _ h => (performJob_mild rfl).bind fun _ => performJob_mild h
  exact (hsettle _ _ rfl).bind fun _ => shared_mild.bind fun _ => performJob_mild rfl

end Mild

/-! ## The runner -/

/-- The program makes its calls where they respect a stop. -/
abbrev Heeding (F : Type) [PyFloat F] (sha256 : Str → Str) (jobId : Text) {α : Type}
    (p : JobCoroutine α) (Post : Except Raised α → Store → Prop) (s : Store) : Prop :=
  Ensures (StoppableAnswers F sha256 jobId true) (JobEffect.Heeds sha256 jobId) p Post s

section Runner

variable {F : Type} [PyFloat F] {sha256 : Str → Str} {jobId : Text} {s s' : Store} {α : Type}
  {p : JobCoroutine α} {cfg : JobConfig} {job : JobRow}

theorem mild_respects {e : JobEffect} (he : e.mild = true) : e.Respects jobId s := by
  cases e with
  | updateJob id fields =>
    intro _
    simp only [JobEffect.mild, Bool.and_eq_true, Option.isNone_iff_eq_none, bne_iff_ne] at he
    obtain ⟨hflag, hstate⟩ := he
    refine ⟨?_, ?_, fun hqueued => absurd hqueued hstate⟩
    · rw [hflag]
      nofun
    · rw [hflag]
      nofun
  | _ => trivial

theorem mild_heeds (hp : p.Makes fun e => e.mild = true) (hs : s.Stoppable sha256 jobId) :
    Heeding F sha256 jobId p (fun _ s' => s'.Stoppable sha256 jobId) s :=
  hp.keeps (fun _ _ he hs => ⟨hs, mild_respects he⟩)
    (fun _ _ _ _ he hs hanswer => JobEffect.Heeds.keeps ⟨hs, mild_respects he⟩ hanswer) hs

/-- No stop of the job is asked for. -/
def Store.AsksNone (jobId : Text) (s : Store) : Prop :=
  ∀ j ∈ s.jobs, j.id = jobId → j.stopRequested = false

/-- The row is read, and is still the job's: nothing is awaited in between. -/
theorem getJob_heeds (hs : s.Stoppable sha256 jobId) :
    Heeding F sha256 jobId (shared (perform (.getJob jobId)))
      (fun r s' => s'.Stoppable sha256 jobId ∧
        ∀ job, r = .ok job → job.stopRequested = false → s'.AsksNone jobId) s := by
  refine ensures_embed.mpr (ensures_perform.mpr ⟨⟨hs, trivial⟩, fun r s' hanswer => ?_⟩)
  have hguard : (JobEffect.task (.getJob jobId)).Heeds sha256 jobId s := ⟨hs, trivial⟩
  refine ⟨hguard.keeps hanswer, ?_⟩
  rintro job rfl hstop j hj hid
  obtain ⟨x, hx, hrun⟩ : AnswersJob sha256 (.task (.getJob jobId)) s (.ok job) s' := hanswer
  obtain rfl : x = getJob jobId.val := hx
  obtain ⟨rfl, id, hown, hjob⟩ := getJob_cases hrun
  obtain ⟨hmem, hkey⟩ := Store.mem_of_job? hjob
  obtain rfl : j = job := Store.eq_of_id hj hmem (hid.trans ((Text.ext hown).symm.trans hkey.symm))
  exact hstop

/-- Settling leaves the job's row alone. -/
theorem settleInflight_heeds {taskState : TaskState} {attemptState summary : Str}
    (hs : s.Stoppable sha256 jobId) (hnone : s.AsksNone jobId) :
    Heeding F sha256 jobId (performJob (.settleInflight jobId taskState attemptState summary))
      (fun _ s' => s'.Stoppable sha256 jobId ∧ s'.AsksNone jobId) s := by
  refine ensures_perform.mpr ⟨⟨hs, trivial⟩, fun r s' hanswer => ?_⟩
  have hguard : (JobEffect.settleInflight jobId taskState attemptState summary).Heeds sha256 jobId
      s := ⟨hs, trivial⟩
  refine ⟨hguard.keeps hanswer, ?_⟩
  have hcall : AnswersJob sha256 (.settleInflight jobId taskState attemptState summary) s r s' :=
    hanswer
  cases r with
  | error x =>
    rw [answersJob_error hcall]
    exact hnone
  | ok u =>
    obtain ⟨x, ⟨now, rfl⟩, hrun⟩ := hcall
    obtain ⟨_, -, _, _, -, -, -, -, -, rfl, -⟩ := settleInflight_cases hrun
    exact hnone

/-- An interrupted job goes back into the queue only where no stop is asked for: what the
handler has read still holds when it writes. -/
theorem settleCancelled_heeds (hs : s.Stoppable sha256 jobId) :
    Heeding F sha256 jobId (settleCancelled jobId) (fun _ s' => s'.Stoppable sha256 jobId) s := by
  refine (mild_heeds (performJob_mild rfl) hs).bind (fun _ s₁ hs₁ => ?_) fun _ _ hs₁ => hs₁
  refine (getJob_heeds hs₁).bind (fun current s₂ h₂ => ?_) fun _ _ h₂ => h₂.1
  obtain ⟨hs₂, hread⟩ := h₂
  refine Ensures.ite (fun _ => hs₂) fun _ => ?_
  refine Ensures.ite (fun _ => mild_heeds shared_mild hs₂) fun _ => ?_
  refine Ensures.ite (fun _ => mild_heeds ?_ hs₂) fun hstop => ?_
  · have hsettle : (settleJob jobId .stopped (lit "cancelled") (lit "stopped by user request")
        { state := some (lit JobState.stopped.value) }).Makes fun e => e.mild = true :=
      (performJob_mild rfl).bind fun _ => performJob_mild rfl
    exact hsettle.bind fun _ => shared_mild.bind fun _ => performJob_mild rfl
  · have hnone := hread current rfl (eq_false_of_ne_true hstop)
    have hqueue : ∀ t : Store, t.Stoppable sha256 jobId ∧ t.AsksNone jobId →
        Heeding F sha256 jobId
          (performJob (.updateJob jobId { state := some (lit JobState.queued.value) }))
          (fun _ s' => s'.Stoppable sha256 jobId) t := by
      rintro t ⟨ht, hclear⟩
      have hguard : (JobEffect.updateJob jobId
          { state := some (lit JobState.queued.value) }).Heeds sha256 jobId t :=
        ⟨ht, fun _ => ⟨nofun, nofun, fun _ => hclear⟩⟩
      exact ensures_perform.mpr ⟨hguard, fun r s' hanswer => hguard.keeps hanswer⟩
    have hsettle : Heeding F sha256 jobId
        (settleJob jobId .pending (lit "cancelled") (lit "orchestrator interrupted")
          { state := some (lit JobState.queued.value) })
        (fun _ s' => s'.Stoppable sha256 jobId) s₂ :=
      (settleInflight_heeds hs₂ hnone).bind (fun _ t ht => hqueue t ht) fun _ _ ht => ht.1
    exact hsettle.bind (fun _ s₃ hs₃ => mild_heeds shared_mild hs₃) fun _ _ hs₃ => hs₃

theorem runJob_heeds (hs : s.Stoppable sha256 jobId) :
    Heeding F sha256 jobId (runJob cfg jobId) (fun _ s' => s'.Stoppable sha256 jobId) s := by
  refine (mild_heeds shared_mild hs).bind (fun job s₁ hs₁ => ?_) fun _ _ hs₁ => hs₁
  refine (mild_heeds shared_mild hs₁).bind (fun _ s₂ hs₂ => ?_) fun _ _ hs₂ => hs₂
  refine ensures_attempt_bind.mpr ((mild_heeds runBody_mild hs₂).imp fun outcome s₃ hs₃ => ?_)
  cases outcome with
  | ok a => exact hs₃
  | error x =>
    refine Ensures.joinBoth (fun _ => mild_heeds settleFailed_mild hs₃)
      (fun _ => settleCancelled_heeds hs₃) (fun _ _ hs₄ => hs₄) fun _ _ hs₄ => hs₄

end Runner

/-! ## Runs of runners -/

section Runs

variable {F : Type} [PyFloat F] {sha256 : Str → Str} {jobId : Text} {resumes : Bool}
  {c c' : JobCoroutine Unit × Store} {l : PublicationStep}

/-- A run in which nobody resumes the job is a run in which somebody may. -/
theorem Store.Meanwhile.mayResume {s s' : Store} (h : s.Meanwhile F sha256 jobId resumes s') :
    s.Meanwhile F sha256 jobId true s' := by
  refine Relation.ReflTransGen.mono ?_ _ _ h
  rintro t t' ⟨op, hop, hrun⟩
  exact ⟨op, hop.imp_right fun hresumes => ⟨rfl, hresumes.2⟩, hrun⟩

/-- The invariant of runs: it holds now, and before every call that is still to be made. -/
def Heeded (F : Type) [PyFloat F] (sha256 : Str → Str) (jobId : Text)
    (c : JobCoroutine Unit × Store) : Prop :=
  c.2.Stoppable sha256 jobId ∧
    Heeding F sha256 jobId c.1 (fun _ s => s.Stoppable sha256 jobId) c.2

theorem StoppableAnswers.mayResume {e : JobEffect} {s s' : Store} {r : Except Raised e.Reply}
    (h : StoppableAnswers F sha256 jobId resumes e s r s') :
    StoppableAnswers F sha256 jobId true e s r s' := by
  unfold StoppableAnswers at h ⊢
  split_ifs at h ⊢ with hop
  · exact h
  · exact h.mayResume

theorem step_heeded (h : Heeded F sha256 jobId c)
    (hstep : (stoppable F sha256 jobId resumes).step c l c') : Heeded F sha256 jobId c' := by
  obtain ⟨p, s⟩ := c
  obtain ⟨p', s'⟩ := c'
  cases l with
  | call reply =>
    obtain ⟨next, rfl, hanswer, rfl⟩ := hstep
    have hanswer' := hanswer.mayResume
    exact ⟨h.2.1.keeps hanswer', h.2.2 reply.2 s' hanswer'⟩
  | start cfg =>
    obtain ⟨rfl, hothers⟩ := hstep
    have hs' := hothers.stoppable h.1
    exact ⟨hs', runJob_heeds hs'⟩

/-- A step in which nobody resumes the job. -/
theorem step_stays (h : Heeded F sha256 jobId c)
    (hstep : (stoppable F sha256 jobId false).step c l c') : c.2.StopStays jobId c'.2 := by
  obtain ⟨p, s⟩ := c
  obtain ⟨p', s'⟩ := c'
  cases l with
  | call reply =>
    obtain ⟨next, rfl, hanswer, rfl⟩ := hstep
    exact h.2.1.stays hanswer
  | start cfg =>
    obtain ⟨rfl, hothers⟩ := hstep
    exact hothers.stopStays h.1

theorem reachable_heeded (h : (stoppable F sha256 jobId true).Reachable c) :
    Heeded F sha256 jobId c := by
  refine h.invariant ?_ fun _ _ _ _ hbefore hstep => step_heeded hbefore hstep
  rintro ⟨p, s⟩ ⟨hp, hs⟩
  obtain rfl : p = .ret () := hp
  obtain rfl : s = Store.empty := hs
  have hempty : Store.empty.Stoppable sha256 jobId :=
    ⟨Store.empty_sound, fun j hj => absurd hj (Table.not_mem_empty j)⟩
  exact ⟨hempty, hempty⟩

/-- A stop that has been asked for, of a job that is not accepted, stays in force over every run
in which nobody resumes the job: whatever its runners and others do, in any order, and however
often a runner crashes, the job is stopping, stopped or failed, or it is accepted and being
completed, and no attempt of it is started. -/
theorem user_stop_stays (hreach : (stoppable F sha256 jobId true).Reachable c) {j : JobRow}
    (hj : j ∈ c.2.jobs) (hid : j.id = jobId) (hstop : j.stopRequested = true)
    (hphase : j.acceptancePhase = .none) (hsteps : (stoppable F sha256 jobId false).Steps c c') :
    (∃ j' ∈ c'.2.jobs, j'.id = jobId ∧ (j'.Halted ∨ j'.Overtaken)) ∧
      ∀ a ∈ c'.2.attempts, a.jobId = jobId →
        ∃ a₀ ∈ c.2.attempts, a₀.id = a.id ∧ a₀.jobId = jobId := by
  have hheeded := reachable_heeded hreach
  have hhalted := hheeded.1.holds j hj hid hstop hphase
  have hrun : Heeded F sha256 jobId c' ∧ c.2.StopStays jobId c'.2 := by
    induction hsteps with
    | refl => exact ⟨hheeded, refl_of (Store.StopStays jobId) c.2⟩
    | tail _ hlast ih =>
      obtain ⟨l, hstep⟩ := hlast
      exact ⟨step_heeded ih.1 hstep, trans_of (Store.StopStays jobId) ih.2 (step_stays ih.1 hstep)⟩
  exact ⟨hrun.2.halted j hj hid hhalted, hrun.2.attempts j hj hid (Or.inl hhalted)⟩

/-- Operations of others, where they succeed. -/
theorem meanwhile_of_runOperations {ops : List (Operation F)}
    (hops : ∀ op ∈ ops, ∀ s, op.Respects jobId s) {s s' : Store}
    (h : runOperations sha256 ops s = some s') : s.Meanwhile F sha256 jobId resumes s' := by
  induction ops generalizing s with
  | nil =>
    cases h
    exact .refl
  | cons op ops ih =>
    rw [List.forall_mem_cons] at hops
    unfold runOperations at h
    split at h
    · rename_i t hrun
      exact .head ⟨op, Or.inl (hops.1 s), hrun⟩ (ih hops.2 h)
    · cases h

end Runs

/-- A job that is being planned is to be stopped, and the daemon crashes. -/
def stopPending : List (Operation NonFinite) :=
  demoAccepted.take 1 ++
    [.call (.updateJob (lit "job-1") { state := some (lit JobState.planning.value) } 2), demoStop]

theorem stopPending_respects :
    ∀ op ∈ stopPending, ∀ s, op.Respects (Text.lit "job-1") s := by
  simp only [stopPending, demoAccepted, List.take_succ_cons, List.take_zero, List.cons_append,
    List.nil_append, List.forall_mem_cons]
  refine ⟨fun _ => False.elim, fun s _ => ⟨nofun, nofun, fun hqueued => ?_⟩,
    fun _ => False.elim, fun _ h => absurd h List.not_mem_nil⟩
  have hother : some (lit JobState.planning.value) ≠ some (lit JobState.queued.value) := by
    decide
  exact absurd hqueued hother

/-- The next daemon finds that the stop is in force, whatever recovery does. -/
theorem user_stop_stays_crashed :
    ∃ s t, runOperations demoDigest stopPending Store.empty = some s ∧
      runOperations demoDigest [(.crashedRecovery 32766 7 : Operation NonFinite)] s = some t ∧
      ∃ j' ∈ t.jobs, j'.id = Text.lit "job-1" ∧ (j'.Halted ∨ j'.Overtaken) := by
  have hrun : ((runOperations demoDigest stopPending Store.empty).bind fun s =>
      (runOperations demoDigest [(.crashedRecovery 32766 7 : Operation NonFinite)] s).map fun _ =>
        s.jobs.rows.map fun j => (j.id, j.stopRequested, j.acceptancePhase)) =
      some [(Text.lit "job-1", true, .none)] := by
    decide +kernel
  obtain ⟨s, hs, hrun⟩ := Option.bind_eq_some_iff.mp hrun
  obtain ⟨t, ht, hrows⟩ := Option.map_eq_some_iff.mp hrun
  obtain ⟨j, hj, hrow⟩ := List.mem_map.mp
    (hrows ▸ List.mem_singleton.mpr rfl : (Text.lit "job-1", true, AcceptancePhase.none) ∈
      s.jobs.rows.map fun j => (j.id, j.stopRequested, j.acceptancePhase))
  obtain ⟨hid, hrow⟩ := Prod.mk.inj hrow
  obtain ⟨hstop, hphase⟩ := Prod.mk.inj hrow
  have hbefore : Store.empty.Meanwhile NonFinite demoDigest (Text.lit "job-1") true s :=
    meanwhile_of_runOperations stopPending_respects hs
  have hafter : s.Meanwhile NonFinite demoDigest (Text.lit "job-1") false t := by
    refine meanwhile_of_runOperations ?_ ht
    rw [List.forall_mem_singleton]
    exact fun _ => False.elim
  let system := stoppable NonFinite demoDigest (Text.lit "job-1")
  have hfirst : (system true).step (.ret (), Store.empty) (.start smallRunner)
      (runJob smallRunner (Text.lit "job-1"), s) := ⟨rfl, hbefore⟩
  have hreach : (system true).Reachable (runJob smallRunner (Text.lit "job-1"), s) :=
    ⟨(.ret (), Store.empty), ⟨rfl, rfl⟩, .single ⟨_, hfirst⟩⟩
  have hsecond : (system false).step (runJob smallRunner (Text.lit "job-1"), s)
      (.start smallRunner) (runJob smallRunner (Text.lit "job-1"), t) := ⟨rfl, hafter⟩
  obtain ⟨hstays, -⟩ := user_stop_stays hreach hj hid hstop hphase (.single ⟨_, hsecond⟩)
  exact ⟨s, t, hs, ht, hstays⟩

end OmarchyYolo
