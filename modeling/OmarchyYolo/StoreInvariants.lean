import OmarchyYolo.Lib.Transition
import OmarchyYolo.StoreProgress

/-!
# OmarchyYolo.StoreInvariants — what every reachable store satisfies

The database as a transition system: public operations, one after another, from
an empty store.

* `Store.Sound` — the inductive invariant: the snapshot validator for every job,
  and what the validator does not look at;
* `reachable_sound` — every reachable store is sound;
* `store_invariants` — the consequences, with the rows of finished attempts.
-/

namespace OmarchyYolo

open Py PyJson Sql Txn Lts

/-! ## The database as a transition system -/

/-- A public operation; a crash can leave a resume and a recovery without their
events. -/
inductive Operation (F : Type) where
  | call (c : Call)
  | event (jobId kind : Str) (payload : Members F) (taskId : Option Str) (now : Timestamp)
  | crashedResume (jobId : Str) (now : Timestamp)
  | crashedRecovery (maxVariables : Nat) (now : Timestamp)

variable {F : Type} [PyFloat F]

/-- The operation, without its reply. -/
def Operation.run (sha256 : Str → Str) : Operation F → StoreDb Unit
  | .call c => c.run sha256
  | .event jobId kind payload taskId now =>
    dropReply (OmarchyYolo.event jobId kind payload taskId now)
  | .crashedResume jobId now => transaction (resumeRows jobId now)
  | .crashedRecovery maxVariables now => dropReply (transaction (recoverRows maxVariables now))

/-- The stores of a daemon's database; an operation that raises is no step. -/
def database (F : Type) [PyFloat F] (sha256 : Str → Str) : System Store (Operation F) where
  init s := s = Store.empty
  step s op s' := op.run sha256 s = .ok () s'

/-- The final summaries an operation publishes, with their jobs. -/
def Operation.Publishes (s : Store) : Operation F → Text → Str → Prop
  | .call (.publishCompletedJob jobId args _), id, summary =>
    id.val = jobId ∧ args.finalSummary = summary ∧
      ∃ j ∈ s.jobs, j.id = id ∧ j.state ≠ .completed
  | _, _, _ => False

variable {sha256 : Str → Str} {s s' : Store}

omit [PyFloat F] in
theorem Call.run_progress (hvalid : ∀ j ∈ s.jobs, s.JobValid j) {call : Call}
    (h : call.run sha256 s = .ok () s') :
    ∃ published, Progress sha256 s.Open published s s' ∧
      ∀ id summary, published id summary →
        (Operation.call (F := F) call).Publishes s id summary := by
  have quiet : Progress sha256 s.Open noJob s s' → ∃ published,
      Progress sha256 s.Open published s s' ∧ ∀ id summary, published id summary →
        (Operation.call (F := F) call).Publishes s id summary :=
    fun hprogress => ⟨noJob, hprogress, fun _ _ => False.elim⟩
  cases call with
  | createJob => exact quiet (createJob_progress (dropReply_ok_iff.mp h).choose_spec)
  | addTasks => exact quiet (addTasks_progress (dropReply_ok_iff.mp h).choose_spec)
  | updateJob => exact quiet (updateJob_progress h)
  | updateTask => exact quiet (updateTask_progress h)
  | startAttempt => exact quiet (startAttempt_progress (dropReply_ok_iff.mp h).choose_spec)
  | finishAttempt => exact quiet (finishAttempt_progress hvalid h)
  | settleInflight => exact quiet (settleInflight_progress h)
  | prepareResume => exact quiet (prepareResume_progress h)
  | retryFailedTasks => exact quiet (retryFailedTasks_progress h)
  | recoverIncomplete =>
    exact quiet (recoverIncomplete_progress hvalid (dropReply_ok_iff.mp h).choose_spec)
  | requestStop => exact quiet (requestStop_progress h)
  | clearStop => exact quiet (clearStop_progress h)
  | stageDossier => exact quiet (stageDossier_progress h)
  | prepareAcceptedJob => exact quiet (prepareAcceptedJob_progress h)
  | markApplyStarted => exact quiet (markApplyStarted_progress h)
  | publishCompletedJob jobId args now =>
    rcases publishCompletedJob_progress h with hprogress | ⟨job, hjob, hid, hopen, hprogress⟩
    · exact quiet hprogress
    · refine ⟨_, hprogress, ?_⟩
      rintro id summary ⟨rfl, rfl⟩
      exact ⟨hid, rfl, job, hjob, rfl, hopen⟩

/-- Every operation makes progress and publishes what it names. -/
theorem Operation.run_progress (hvalid : ∀ j ∈ s.jobs, s.JobValid j) {op : Operation F}
    (h : op.run sha256 s = .ok () s') :
    ∃ published, Progress sha256 s.Open published s s' ∧
      ∀ id summary, published id summary → op.Publishes s id summary := by
  cases op with
  | call c => exact Call.run_progress hvalid h
  | event =>
    obtain ⟨reply, hevent⟩ := dropReply_ok_iff.mp h
    exact ⟨noJob, (Progress.refl s).thenEvents (event_onlyEvents hevent), fun _ _ => False.elim⟩
  | crashedResume =>
    obtain ⟨job, hjob, -, hphase, -, heq, -⟩ := resumeRows_cases (transaction_ok_iff.mp h)
    cases heq
    exact ⟨noJob, resumed_progress hjob hphase, fun _ _ => False.elim⟩
  | crashedRecovery =>
    obtain ⟨groups, hrows⟩ := dropReply_ok_iff.mp h
    obtain ⟨-, rfl, -⟩ := recoverRows_cases (transaction_ok_iff.mp hrows)
    exact ⟨noJob, recovered_progress hvalid _, fun _ _ => False.elim⟩

/-! ## The snapshot validator, for every job -/

section Validity

/-- A job none of whose rows has changed stays valid. -/
theorem Store.JobValid.of_unchanged {j : JobRow} (h : s.JobValid j)
    (htasks : ∀ t ∈ s'.tasks, t.jobId = j.id → t ∈ s.tasks)
    (hattempts : ∀ a ∈ s'.attempts, a.jobId = j.id → a ∈ s.attempts) : s'.JobValid j where
  completed_tasks hs t ht hown := h.completed_tasks hs t (htasks t ht hown) hown
  settled_tasks hs t ht hown := h.settled_tasks hs t (htasks t ht hown) hown
  stopped_stop := h.stopped_stop
  completed_stop := h.completed_stop
  running_state a ha hown := h.running_state a (hattempts a ha hown) hown
  running_inflight a ha hown hrun t ht hid htjob :=
    h.running_inflight a (hattempts a ha hown) hown hrun t (htasks t ht (htjob.trans hown))
      hid htjob
  accepted_tasks hp t ht hown := h.accepted_tasks hp t (htasks t ht hown) hown
  accepted_running hp a ha hown := h.accepted_running hp a (hattempts a ha hown) hown
  accepted_state := h.accepted_state
  published_iff := h.published_iff

/-- A job outside the scope of a move is as it was. -/
theorem Moves.unscoped {scope : Text → Prop} {jobEdge : JobState → JobState → Prop}
    (h : Moves scope jobEdge s s') (hvalid : ∀ j ∈ s.jobs, s.JobValid j) {j : JobRow}
    (hj : j ∈ s'.jobs) (hout : ¬ scope j.id) : s'.JobValid j := by
  have hmem : j ∈ s.jobs := by
    rcases h.jobs.backward hj with ⟨j₀, hj₀, hkey, -, hsame⟩ | ⟨hin, -⟩
    · have hid : j.id = j₀.id := hkey
      rw [hid] at hout
      rw [hsame hout]
      exact hj₀
    · exact absurd hin hout
  refine (hvalid j hmem).of_unchanged ?_ ?_
  · intro t ht hown
    rcases h.tasks.backward ht with ⟨t₀, ht₀, hkey, -, hsame⟩ | ⟨hin, -⟩
    · have hjob : t.jobId = t₀.jobId := congrArg (fun k => k.2.1) hkey
      rw [← hown, hjob] at hout
      rw [hsame hout]
      exact ht₀
    · rw [hown] at hin
      exact absurd hin hout
  · intro a ha hown
    rcases h.attempts.backward ha with ⟨a₀, ha₀, hkey, -, hsame⟩ | ⟨hin, -⟩
    · have hjob : a.jobId = a₀.jobId := congrArg (fun k => k.2.1) hkey
      rw [← hown, hjob] at hout
      rw [hsame hout]
      exact ha₀
    · rw [hown] at hin
      exact absurd hin hout

/-- The row of a validated job is valid. -/
theorem Store.Validated.valid {jobId : Text} (h : s.Validated jobId) {j : JobRow}
    (hj : j ∈ s.jobs) (hid : j.id = jobId) : s.JobValid j := by
  obtain ⟨job, hjob, hvalid⟩ := h
  obtain ⟨hmem, hid'⟩ := Store.mem_of_job? hjob
  have heq : j = job := Store.eq_of_id hj hmem (hid.trans hid'.symm)
  rw [heq]
  exact hvalid

/-- Events validate and invalidate nothing. -/
theorem Store.JobValid.events {j : JobRow} (h : s.JobValid j) (honly : Store.OnlyEvents s s') :
    s'.JobValid j := by
  refine h.of_unchanged ?_ ?_
  · intro t ht _
    rw [← honly.tasks]
    exact ht
  · intro a ha _
    rw [← honly.attempts]
    exact ha

/-- What an operation validates, events cannot spoil. -/
theorem Store.Validated.valid_events {t : Store} {jobId : Text} (h : t.Validated jobId)
    (honly : Store.OnlyEvents t s') {j : JobRow} (hj : j ∈ s'.jobs) (hid : j.id = jobId) :
    s'.JobValid j := by
  rw [honly.jobs] at hj
  exact (h.valid hj hid).events honly

theorem updateJob_valid (hvalid : ∀ j ∈ s.jobs, s.JobValid j) {jobId : Str} {fields : JobFields}
    {now : Timestamp} (h : updateJob jobId fields now s = .ok () s') {j : JobRow}
    (hj : j ∈ s'.jobs) (hid : j.id.val = jobId) : s'.JobValid j := by
  rcases updateJob_cases h with ⟨-, rfl⟩ | ⟨id, -, -, -, rfl, -, -, -, -, -, -, -, hvalidated⟩
  · exact hvalid j hj
  · exact hvalidated.valid hj (Text.ext hid)

/-- The jobs that recovery has touched are valid. -/
theorem recoverRows_valid {maxVariables : Nat} {now : Timestamp} {groups : Interrupted}
    (h : recoverRows maxVariables now s = .ok (groups, s')) {j : JobRow} (hj : j ∈ s'.jobs)
    (hscope : Interruptible s j.id) : s'.JobValid j := by
  obtain ⟨rfl, -, hvalidated⟩ := recoverRows_cases h
  obtain ⟨j₀, hj₀, hid, hrun⟩ := hscope
  have hgroup : j₀ ∈ s.interrupted.accepted ∨ j₀ ∈ s.interrupted.active ∨
      j₀ ∈ s.interrupted.stopped := by
    rw [Store.mem_interrupted_accepted, Store.mem_interrupted_active,
      Store.mem_interrupted_stopped]
    by_cases hphase : j₀.acceptancePhase ∈ [AcceptancePhase.accepted, .applying]
    · exact Or.inl ⟨hj₀, hrun, hphase⟩
    · by_cases hactive : j₀.stopRequested = false ∧ j₀.state ≠ .stopping
      · exact Or.inr (Or.inl ⟨hj₀, hrun, hphase, hactive⟩)
      · exact Or.inr (Or.inr ⟨hj₀, hrun, hphase, hactive⟩)
  refine (hvalidated j₀.id ?_).valid hj hid.symm
  simp only [List.mem_append]
  rcases hgroup with hin | hin | hin
  · exact Or.inl (Or.inl (List.mem_map_of_mem hin))
  · exact Or.inl (Or.inr (List.mem_map_of_mem hin))
  · exact Or.inr (List.mem_map_of_mem hin)

/-- A call leaves the jobs it may change valid. -/
theorem Call.run_scoped (hvalid : ∀ j ∈ s.jobs, s.JobValid j) {call : Call}
    (h : call.run sha256 s = .ok () s') {j : JobRow} (hj : j ∈ s'.jobs)
    (hscope : call.Scope s j.id) : s'.JobValid j := by
  -- by the call: `_validate` ran on the job at the end of the transaction, so the case's
  -- inversion lemma has it
  cases call with
  | createJob =>
    obtain ⟨-, -, -, -, -, -, -, -, -, hvalidated⟩ :=
      createJob_cases (dropReply_ok_iff.mp h).choose_spec
    exact hvalidated.valid hj hscope
  | addTasks =>
    obtain ⟨job, -, hid, -, -, -, -, hvalidated⟩ :=
      addTasks_cases (dropReply_ok_iff.mp h).choose_spec
    exact hvalidated.valid hj (Text.ext (hscope.trans hid.symm))
  | updateJob => exact updateJob_valid hvalid h hj hscope
  | updateTask =>
    -- without fields nothing is written
    rcases updateTask_cases h with
      ⟨-, rfl⟩ | ⟨id, task, job, -, -, -, rfl, htask, -, -, -, -, -, -, -, -, hvalidated⟩
    · exact hvalid j hj
    · obtain ⟨t, ht, hid, hown⟩ := hscope
      obtain ⟨hmem, hid'⟩ := Store.mem_of_task? htask
      -- the task in the scope is the one that was updated
      have heq : t = task := Table.eq_of_clash ht hmem (Or.inl ((Text.ext hid).trans hid'.symm))
      rw [heq] at hown
      exact hvalidated.valid hj hown.symm
  | startAttempt =>
    obtain ⟨task, job, attempt, -, -, -, -, hown, -, -, -, -, -, -, -, -, -, -, -, hvalidated⟩ :=
      startAttempt_cases (dropReply_ok_iff.mp h).choose_spec
    exact hvalidated.valid hj (Text.ext (hscope.trans hown.symm))
  | finishAttempt =>
    obtain ⟨attempt, -, -, -, hmem, hid, -, -, -, -, -, hvalidated⟩ := finishAttempt_cases h
    obtain ⟨a, ha, hid', hown⟩ := hscope
    -- the attempt in the scope is the one that finished
    have heq : a = attempt := Table.eq_of_clash ha hmem (Or.inl (Text.ext (hid'.trans hid.symm)))
    rw [heq] at hown
    exact hvalidated.valid hj hown.symm
  | settleInflight =>
    obtain ⟨job, -, -, -, hid, -, -, -, -, -, hvalidated⟩ := settleInflight_cases h
    exact hvalidated.valid hj (Text.ext (hscope.trans hid.symm))
  | prepareResume =>
    obtain ⟨job, -, rfl, -, -, hvalidated, hevent⟩ := prepareResume_cases h
    exact hvalidated.valid_events (jobEvent_onlyEvents hevent) hj (Text.ext hscope)
  | retryFailedTasks =>
    obtain ⟨job, -, hid, -, -, -, hvalidated⟩ := retryFailedTasks_cases h
    exact hvalidated.valid hj (Text.ext (hscope.trans hid.symm))
  | recoverIncomplete =>
    -- recovery validates every job it touches, then only records events
    obtain ⟨t, hrows, honly, -⟩ := recoverIncomplete_rows (dropReply_ok_iff.mp h).choose_spec
    rw [honly.jobs] at hj
    exact (recoverRows_valid hrows hj hscope).events honly
  | requestStop =>
    obtain ⟨t, hupdate, honly⟩ := requestStop_rows h
    rw [honly.jobs] at hj
    exact (updateJob_valid hvalid hupdate hj hscope).events honly
  | clearStop =>
    obtain ⟨t, hupdate, honly⟩ := clearStop_rows h
    rw [honly.jobs] at hj
    exact (updateJob_valid hvalid hupdate hj hscope).events honly
  | stageDossier =>
    obtain ⟨-, -, -, -, -, -, row, -, hupsert⟩ := stageDossier_cases sha256 h
    obtain ⟨-, honly⟩ := Store.upsertDossier?_eq_some hupsert
    -- a dossier that is staged changes no row that validity reads
    rw [honly.jobs] at hj
    refine (hvalid j hj).of_unchanged ?_ ?_
    · intro t ht _
      rw [← honly.tasks]
      exact ht
    · intro a ha _
      rw [← honly.attempts]
      exact ha
  | prepareAcceptedJob =>
    obtain ⟨job, -, intent, hid, -, -, -, hcases⟩ := prepareAcceptedJob_cases sha256 h
    -- the same acceptance again writes nothing
    rcases hcases with ⟨-, -, rfl⟩ | hjournal
    · exact hvalid j hj
    · exact hjournal.validated.valid hj (Text.ext (hscope.trans hid.symm))
  | markApplyStarted =>
    obtain ⟨job, -, hid, -, -, hcases⟩ := markApplyStarted_cases h
    -- an application that has started already writes nothing
    rcases hcases with ⟨-, rfl⟩ | ⟨-, -, hvalidated⟩
    · exact hvalid j hj
    · exact hvalidated.valid hj (Text.ext (hscope.trans hid.symm))
  | publishCompletedJob =>
    obtain ⟨job, -, _, -, _, hid, -, -, -, hcases⟩ := publishCompletedJob_cases sha256 h
    -- the same publication again writes nothing
    rcases hcases with ⟨-, -, -, -, rfl⟩ | ⟨-, hpublish⟩
    · exact hvalid j hj
    · exact hpublish.validated.valid hj (Text.ext (hscope.trans hid.symm))

/-- An operation keeps every job valid. -/
theorem Operation.run_valid (hvalid : ∀ j ∈ s.jobs, s.JobValid j) {op : Operation F}
    (h : op.run sha256 s = .ok () s') : ∀ j ∈ s'.jobs, s'.JobValid j := by
  intro j hj
  cases op with
  | call c =>
    by_cases hscope : c.Scope s j.id
    · exact Call.run_scoped hvalid h hj hscope
    · exact (Call.run_legal h).unscoped hvalid hj hscope
  | event =>
    obtain ⟨reply, hevent⟩ := dropReply_ok_iff.mp h
    have honly := event_onlyEvents hevent
    rw [honly.jobs] at hj
    exact (hvalid j hj).events honly
  | crashedResume jobId now =>
    obtain ⟨job, hjob, hid, hphase, hstate, heq, hvalidated⟩ :=
      resumeRows_cases (transaction_ok_iff.mp h)
    by_cases hscope : j.id = job.id
    · exact hvalidated.valid hj hscope
    · cases heq
      exact (resumed_moves hstate).unscoped hvalid hj hscope
  | crashedRecovery maxVariables now =>
    obtain ⟨groups, hrows⟩ := dropReply_ok_iff.mp h
    have hrecover := transaction_ok_iff.mp hrows
    by_cases hscope : Interruptible s j.id
    · exact recoverRows_valid hrecover hj hscope
    · obtain ⟨-, rfl, -⟩ := recoverRows_cases hrecover
      exact (recovered_moves s now).unscoped hvalid hj hscope

end Validity

/-! ## Jobs -/

/-- The columns of a job's acceptance agree. -/
structure JobRow.Sound (j : JobRow) : Prop where
  commit : j.acceptedCommit.val ≠ [] ↔ j.acceptancePhase ≠ .none
  applied : j.sourceApplyOutcome ∈ [SourceApplyOutcome.applied, .skipped] ↔
    j.acceptancePhase = .published ∧ j.sourceApplyIntent = .requested
  notRequested : j.sourceApplyOutcome = .notRequested ↔
    j.acceptancePhase = .published ∧ j.sourceApplyIntent = .notRequested

/-- Before publication there is no outcome. -/
theorem JobRow.Sound.outcome_none {j : JobRow} (h : j.Sound) :
    j.sourceApplyOutcome = .none ↔ j.acceptancePhase ≠ .published := by
  have happlied := h.applied
  have hnot := h.notRequested
  cases hintent : j.sourceApplyIntent <;> cases houtcome : j.sourceApplyOutcome <;>
    simp_all

/-- A job without an outcome, unpublished. -/
theorem JobRow.sound_of_unpublished {j : JobRow}
    (hcommit : j.acceptedCommit.val ≠ [] ↔ j.acceptancePhase ≠ .none)
    (houtcome : j.sourceApplyOutcome = .none) (hphase : j.acceptancePhase ≠ .published) :
    j.Sound := by
  refine ⟨hcommit, ?_, ?_⟩
  · rw [houtcome]
    exact ⟨fun h => absurd h (by decide), fun h => absurd h.1 hphase⟩
  · rw [houtcome]
    exact ⟨fun h => absurd h (by decide), fun h => absurd h.1 hphase⟩

theorem JobRow.Sound.step {published : Text → Str → Prop} {j j' : JobRow} (h : j.Sound)
    (hstep : j.PhaseStep published j') : j'.Sound := by
  -- by the phase that the step leaves
  cases hstep with
  | opened before after commit outcome =>
    -- a job that has accepted nothing has no outcome, and keeps none
    have hnone : j.sourceApplyOutcome = .none := by
      rw [h.outcome_none, before]
      decide
    refine JobRow.sound_of_unpublished ?_ (outcome.trans hnone) ?_
    · rw [commit, h.commit, before, after]
    · rw [after]
      decide
  | accepted before after commit outcome =>
    refine JobRow.sound_of_unpublished ⟨fun _ => ?_, fun _ => commit⟩ outcome ?_
    · rw [after]
      decide
    · rw [after]
      decide
  | kept before after same summary outcome =>
    -- the phase, the commit, the intent and the outcome are as before
    refine ⟨?_, ?_, ?_⟩
    · rw [same.acceptedCommit, after]
      exact h.commit
    · rw [outcome, after, same.sourceApplyIntent]
      exact h.applied
    · rw [outcome, after, same.sourceApplyIntent]
      exact h.notRequested
  | applying before after intent same summary outcome =>
    -- the commit is there from the acceptance, the outcome comes with the publication
    have hnone : j.sourceApplyOutcome = .none := by
      rw [h.outcome_none, before]
      decide
    refine JobRow.sound_of_unpublished ?_ (outcome.trans hnone) ?_
    · rw [same.acceptedCommit, h.commit, before, after]
      decide
    · rw [after]
      decide
  | publish before after same summary =>
    have hcommit : j'.acceptedCommit.val ≠ [] ↔ j'.acceptancePhase ≠ .none := by
      rw [same.acceptedCommit, h.commit, after]
      -- published from `prepared` or from `applying`
      rcases validatePublication_ok before with ⟨-, hphase, -⟩ | ⟨-, hphase, -⟩
      · rw [hphase]
        decide
      · rw [hphase]
        decide
    -- the outcome is one that the intent allows
    rcases validatePublication_ok before with ⟨hintent, -, houtcome⟩ | ⟨hintent, -, houtcome⟩
    · refine ⟨hcommit, ?_, ?_⟩
      · rw [houtcome, after, same.sourceApplyIntent, hintent]
        decide
      · rw [houtcome, after, same.sourceApplyIntent, hintent]
        decide
    · refine ⟨hcommit, ?_, ?_⟩
      · rw [after, same.sourceApplyIntent, hintent]
        exact ⟨fun _ => ⟨rfl, rfl⟩, fun _ => houtcome⟩
      · rw [after, same.sourceApplyIntent, hintent]
        -- asked to apply, the outcome is none of `not_requested`
        refine ⟨fun heq => ?_, fun h => absurd h.2 (by decide)⟩
        rw [heq] at houtcome
        exact absurd houtcome (by decide)

/-! ## Tasks -/

/-- The numbers of a job's tasks are those from one on, in the order of insertion. -/
def NumberedTasks (t : Table TaskRow) : Prop :=
  ∀ jobId, seqsOf t jobId = List.range' 1 (seqsOf t jobId).length

/-- The last of the numbers from one on. -/
theorem foldl_max_range' (n : Nat) : (List.range' 1 n).foldl max 0 = n := by
  induction n with
  | zero => rfl
  | succ n ih =>
    rw [List.range'_1_concat, List.foldl_append, ih, List.foldl_cons, List.foldl_nil]
    omega

/-- Rewritten tasks keep their job and their number. -/
theorem seqs_rewritten {edge : TaskRow → TaskRow → Prop} {rows moved : List TaskRow}
    (h : List.Forall₂ (fun u u' => Row.key u' = Row.key u ∧ u'.seq = u.seq ∧ edge u u') rows moved)
    (jobId : Text) : (moved.filter fun u => u.jobId == jobId).map TaskRow.seq =
      (rows.filter fun u => u.jobId == jobId).map TaskRow.seq := by
  induction h with
  | nil => rfl
  | @cons u u' rows moved hrow _ ih =>
    obtain ⟨hkey, hseq, -⟩ := hrow
    have hjob : u'.jobId = u.jobId := congrArg (fun k => k.2.1) hkey
    rw [List.filter_cons, List.filter_cons, hjob]
    split_ifs
    · rw [List.map_cons, List.map_cons, hseq, ih]
    · exact ih

theorem seqsOf_rewritten {edge : TaskRow → TaskRow → Prop} {t t' : Table TaskRow}
    (h : Table.Evolves (fun u u' => u'.seq = u.seq ∧ edge u u') (fun _ => False) t t')
    (jobId : Text) : seqsOf t' jobId = seqsOf t jobId := by
  obtain ⟨moved, added, hrows, hmoved, hadded⟩ := h
  have hnone : added = [] := List.eq_nil_iff_forall_not_mem.mpr hadded
  unfold seqsOf Table.select
  rw [hrows, hnone, List.append_nil]
  exact seqs_rewritten hmoved jobId

theorem NumberedTasks.step {opened : Text → Prop} {t t' : Table TaskRow} (h : NumberedTasks t)
    (hstep : TasksStep opened t t') : NumberedTasks t' := by
  intro jobId
  cases hstep with
  | rewritten rows =>
    rw [seqsOf_rewritten rows]
    exact h jobId
  | planned owner added job rows own seqs =>
    have happend : seqsOf t' jobId =
        seqsOf t jobId ++ (added.filter fun u => u.jobId == jobId).map TaskRow.seq := by
      unfold seqsOf Table.select
      rw [rows, List.filter_append, List.map_append]
    by_cases hown : jobId = owner
    · -- the new numbers go on from the last one
      have hall : (added.filter fun u => u.jobId == jobId) = added := by
        rw [List.filter_eq_self]
        intro u hu
        rw [hown, own u hu, beq_self_eq_true]
      rw [hall, seqs, h owner, foldl_max_range', ← hown] at happend
      rw [happend, h jobId, List.length_append, List.length_range', List.length_range',
        Nat.add_comm _ 1, ← List.range'_append_1, ← h jobId]
    · have hnone : (added.filter fun u => u.jobId == jobId) = [] := by
        rw [List.filter_eq_nil_iff]
        intro u hu hp
        rw [own u hu] at hp
        exact hown (eq_of_beq hp).symm
      rw [hnone, List.map_nil, List.append_nil] at happend
      rw [happend]
      exact h jobId

/-! ## Attempts -/

/-- A finished attempt is one with a time of finishing. -/
def AttemptRow.Sound (a : AttemptRow) : Prop := a.finishedAt = none ↔ a.state = .running

/-- A task has at most one running attempt. -/
def OneRunning (t : Table AttemptRow) : Prop :=
  ∀ a ∈ t, ∀ a' ∈ t, a.taskId = a'.taskId → a.state = .running → a'.state = .running → a = a'

theorem AttemptRow.sound_step {opened : Text → Prop} {t t' : Table AttemptRow}
    (h : ∀ a ∈ t, a.Sound) (hstep : AttemptsStep opened t t') : ∀ a ∈ t', a.Sound := by
  cases hstep with
  | closed rows =>
    refine rows.invariant h ?_ fun _ => False.elim
    rintro a a' ha (⟨-, -, hstate, hfinished⟩ | rfl)
    · exact ⟨fun hnone => absurd hnone hfinished, fun hrun => absurd hrun hstate⟩
    · exact ha
  | started attempt job running unfinished only row =>
    intro a ha
    rcases (Table.mem_insert? row).mp ha with ha | rfl
    · exact h a ha
    · exact ⟨fun _ => running, fun _ => unfinished⟩

/-- A running attempt that was not started has not been touched. -/
theorem AttemptsStep.running_mem {opened : Text → Prop} {t t' : Table AttemptRow}
    (rows : Table.Evolves (fun a a' => (opened a.jobId ∧ a.Closes a') ∨ a' = a) (fun _ => False)
      t t')
    {a : AttemptRow} (ha : a ∈ t') (hrun : a.state = .running) : a ∈ t := by
  rcases rows.backward ha with ⟨a₀, ha₀, -, ⟨-, -, hstate, -⟩ | rfl⟩ | hfalse
  · exact absurd hrun hstate
  · exact ha₀
  · exact hfalse.elim

theorem OneRunning.step {opened : Text → Prop} {t t' : Table AttemptRow} (h : OneRunning t)
    (hstep : AttemptsStep opened t t') : OneRunning t' := by
  intro a ha a' ha' htask hrun hrun'
  cases hstep with
  | closed rows =>
    exact h a (AttemptsStep.running_mem rows ha hrun) a' (AttemptsStep.running_mem rows ha' hrun')
      htask hrun hrun'
  | started attempt job running unfinished only row =>
    rcases (Table.mem_insert? row).mp ha with ha | rfl
    · rcases (Table.mem_insert? row).mp ha' with ha' | rfl
      · exact h a ha a' ha' htask hrun hrun'
      · exact absurd hrun (only a ha htask)
    · rcases (Table.mem_insert? row).mp ha' with ha' | rfl
      · exact absurd hrun' (only a' ha' htask.symm)
      · rfl

/-- An attempt that is not running stays as it is. -/
theorem AttemptsStep.mem_of_finished {opened : Text → Prop} {t t' : Table AttemptRow}
    (hstep : AttemptsStep opened t t') {a : AttemptRow} (ha : a ∈ t) (hdone : a.state ≠ .running) :
    a ∈ t' := by
  cases hstep with
  | closed rows =>
    obtain ⟨a', ha', -, ⟨-, hrun, -⟩ | rfl⟩ := rows.forward ha
    · exact absurd hrun hdone
    · exact ha'
  | started attempt job running unfinished only row =>
    exact (Table.mem_insert? row).mpr (Or.inl ha)

/-! ## The inductive invariant -/

/-- What every reachable store satisfies. -/
structure Store.Sound (sha256 : Str → Str) (s : Store) : Prop where
  valid : ∀ j ∈ s.jobs, s.JobValid j
  jobs : ∀ j ∈ s.jobs, j.Sound
  tasks : NumberedTasks s.tasks
  attempts : ∀ a ∈ s.attempts, a.Sound
  running : OneRunning s.attempts
  dossiers : ∀ d ∈ s.dossiers, sha256 d.content.val = d.sha256.val
  published : ∀ j ∈ s.jobs,
    j.acceptancePhase = .published ↔ ∃ d ∈ s.dossiers, d.jobId = j.id ∧ d.published = true

theorem Store.empty_sound : Store.Sound sha256 Store.empty := by
  constructor
  · intro j hj
    exact absurd hj (Table.not_mem_empty j)
  · intro j hj
    exact absurd hj (Table.not_mem_empty j)
  · intro jobId
    rfl
  · intro a ha
    exact absurd ha (Table.not_mem_empty a)
  · intro a ha
    exact absurd ha (Table.not_mem_empty a)
  · intro d hd
    exact absurd hd (Table.not_mem_empty d)
  · intro j hj
    exact absurd hj (Table.not_mem_empty j)

/-- A job of the store, and where a call has taken it. -/
theorem Progress.job_forward {opened : Text → Prop} {published : Text → Str → Prop}
    (h : Progress sha256 opened published s s') {j₀ j : JobRow} (hj₀ : j₀ ∈ s.jobs)
    (hj : j ∈ s'.jobs) (hid : j₀.id = j.id) : j₀.SameOrigin j ∧ j₀.PhaseStep published j := by
  obtain ⟨j', hj', hkey, hmove⟩ := h.jobs.forward hj₀
  have hid' : j'.id = j₀.id := hkey
  have heq : j' = j := Store.eq_of_id hj' hj (hid'.trans hid)
  rw [← heq]
  exact hmove

/-- A published job stays published. -/
theorem JobRow.PhaseStep.published_stays {published : Text → Str → Prop} {j j' : JobRow}
    (h : j.PhaseStep published j') (hphase : j.acceptancePhase = .published) :
    j'.acceptancePhase = .published := by
  cases h with
  | opened before => rw [before] at hphase; cases hphase
  | accepted before => rw [before] at hphase; cases hphase
  | kept before after => exact after.trans hphase
  | applying before => rw [before] at hphase; cases hphase
  | publish before after => exact after

/-- The dossier of a published job stays published. -/
theorem Progress.dossier_stays {published : Text → Str → Prop}
    (h : Progress sha256 s.Open published s s') {j : JobRow} (hj : j ∈ s.jobs)
    (hphase : j.acceptancePhase ≠ .none) {d : DossierRow} (hd : d ∈ s.dossiers)
    (hown : d.jobId = j.id) :
    ∃ d' ∈ s'.dossiers, d'.jobId = d.jobId ∧ (d' = d ∨ d' = publishDossier d) := by
  obtain ⟨d', hd', hkey, hmove⟩ := h.dossiers.forward hd
  refine ⟨d', hd', hkey, ?_⟩
  rcases hmove with ⟨⟨j₁, hj₁, hid₁, hopen⟩, -⟩ | ⟨-, heq⟩ | heq
  · -- the job is not open
    rw [Store.eq_of_id hj₁ hj (hid₁.trans hown)] at hopen
    exact absurd hopen hphase
  · exact Or.inr heq
  · exact Or.inl heq

/-- A dossier is published with its job. -/
theorem Progress.published_iff {published : Text → Str → Prop}
    (h : Progress sha256 s.Open published s s') (hsound : s.Sound sha256) {j : JobRow}
    (hj : j ∈ s'.jobs) :
    j.acceptancePhase = .published ↔ ∃ d ∈ s'.dossiers, d.jobId = j.id ∧ d.published = true := by
  constructor
  · intro hphase
    -- the job was there before, or is new and has accepted nothing
    rcases h.jobs.backward hj with ⟨j₀, hj₀, hkey, -, hstep⟩ | ⟨hnone, -⟩
    · have hid : j.id = j₀.id := hkey
      cases hstep with
      -- only `kept` and `publish` end in the phase `published`
      | opened before after => rw [after] at hphase; cases hphase
      | accepted before after => rw [after] at hphase; cases hphase
      | kept before after =>
        -- it was published before: its dossier stays
        obtain ⟨d, hd, hown, hdone⟩ := (hsound.published j₀ hj₀).mp (after.symm.trans hphase)
        obtain ⟨d', hd', hkey', hsame⟩ := h.dossier_stays hj₀ before hd hown
        refine ⟨d', hd', (hkey'.trans hown).trans hid.symm, ?_⟩
        rcases hsame with rfl | rfl
        · exact hdone
        · rfl
      | applying before after => rw [after] at hphase; cases hphase
      | publish before after same summary =>
        -- this call publishes it, together with the dossier
        obtain ⟨d, hd, hown, hdone⟩ := h.done _ _ summary
        exact ⟨d, hd, hown.trans hid.symm, hdone⟩
    · rw [hnone] at hphase
      cases hphase
  · rintro ⟨d, hd, hown, hdone⟩
    -- the dossier was there before, or is new and only staged
    rcases h.dossiers.backward hd with ⟨d₀, hd₀, hkey, hmove⟩ | ⟨-, hstaged, -⟩
    · obtain ⟨j₀, hj₀, hid₀⟩ := s.dossierJob d₀ hd₀
      have hkey' : d.jobId = d₀.jobId := hkey
      have hid : j₀.id = j.id := (hid₀.trans hkey'.symm).trans hown
      rcases hmove with ⟨-, hstaged, -⟩ | ⟨⟨summary, hpublished⟩, -⟩ | rfl
      -- staged again, it is not published
      · rw [hstaged] at hdone
        cases hdone
      · -- the call has published the job
        obtain ⟨j₁, hj₁, hid₁, hphase⟩ := h.completed _ _ hpublished
        rw [← Store.eq_of_id hj₁ hj (hid₁.trans (hid₀.symm.trans hid))]
        exact hphase
      -- it was published before, and a published job stays so
      · obtain ⟨-, hstep⟩ := h.job_forward hj₀ hj hid
        exact hstep.published_stays ((hsound.published j₀ hj₀).mpr ⟨d, hd₀, hid₀.symm, hdone⟩)
    · rw [hstaged] at hdone
      cases hdone

/-- An operation keeps the store sound. -/
theorem Operation.run_sound (hsound : s.Sound sha256) {op : Operation F}
    (h : op.run sha256 s = .ok () s') : s'.Sound sha256 := by
  obtain ⟨published, hprogress, -⟩ := op.run_progress hsound.valid h
  constructor
  · exact op.run_valid hsound.valid h
  · refine hprogress.jobs.invariant hsound.jobs ?_ ?_
    · intro j j' hj hmove
      exact hj.step hmove.2
    · rintro j ⟨hphase, hcommit, houtcome⟩
      refine JobRow.sound_of_unpublished ?_ houtcome ?_
      · rw [hphase, hcommit]
        exact ⟨fun hne => absurd rfl hne, fun hne => absurd rfl hne⟩
      · rw [hphase]
        decide
  · exact hsound.tasks.step hprogress.tasks
  · exact AttemptRow.sound_step hsound.attempts hprogress.attempts
  · exact hsound.running.step hprogress.attempts
  · refine hprogress.dossiers.invariant hsound.dossiers ?_ ?_
    · rintro d d' hd (⟨-, -, hdigest⟩ | ⟨-, rfl⟩ | rfl)
      · exact hdigest
      · exact hd
      · exact hd
    · rintro d ⟨-, -, hdigest⟩
      exact hdigest
  · intro j hj
    exact hprogress.published_iff hsound hj

theorem reachable_sound (h : (database F sha256).Reachable s) : s.Sound sha256 := by
  refine h.invariant ?_ ?_
  · rintro _ rfl
    exact Store.empty_sound
  · intro s op s' _ hsound hstep
    exact Operation.run_sound hsound hstep

/-! ## What the invariant says of the tables -/

/-- Rows numbered in the order of insertion are in the order of their numbers. -/
theorem NumberedTasks.tasksOf_eq (h : NumberedTasks s.tasks) (jobId : Text) :
    s.tasksOf jobId = s.tasks.select fun t => t.jobId == jobId := by
  have hsorted : (seqsOf s.tasks jobId).Pairwise (· ≤ ·) := by
    rw [h jobId]
    exact List.pairwise_le_range'
  refine List.mergeSort_of_pairwise ?_
  rw [seqsOf, List.pairwise_map] at hsorted
  refine hsorted.imp ?_
  intro t t' hle
  exact decide_eq_true hle

/-- A finished attempt is in every later store. -/
theorem finished_attempt_stays (hreach : (database F sha256).Reachable s)
    (h : (database F sha256).Steps s s') {a : AttemptRow} (ha : a ∈ s.attempts)
    (hdone : a.state ≠ .running) : a ∈ s'.attempts := by
  have hkeep : ∀ t (op : Operation F) u, (database F sha256).Reachable t → a ∈ t.attempts →
      (database F sha256).step t op u → a ∈ u.attempts := by
    intro t op u hreach' hmem hstep
    obtain ⟨_, hprogress, -⟩ := op.run_progress (reachable_sound hreach').valid hstep
    exact hprogress.attempts.mem_of_finished hmem hdone
  exact System.steps_invariant (fun t => a ∈ t.attempts) h hreach ha hkeep

/-! ## Runs -/

/-- The store after some operations, if none of them raises. -/
def runOperations (sha256 : Str → Str) : List (Operation F) → Store → Option Store
  | [], s => some s
  | op :: ops, s =>
    match op.run sha256 s with
    | .ok () s' => runOperations sha256 ops s'
    | .error _ _ => none

theorem runOperations_steps {ops : List (Operation F)} (h : runOperations sha256 ops s = some s') :
    (database F sha256).Steps s s' := by
  induction ops generalizing s with
  | nil =>
    cases h
    exact .refl
  | cons op ops ih =>
    unfold runOperations at h
    split at h
    · rename_i t hstep
      exact .head ⟨op, hstep⟩ (ih h)
    · cases h

theorem runOperations_reachable {ops : List (Operation F)}
    (h : runOperations sha256 ops Store.empty = some s) : (database F sha256).Reachable s :=
  ⟨Store.empty, rfl, runOperations_steps h⟩

theorem run_of_runOperations {op : Operation F} (h : runOperations sha256 [op] s = some s') :
    op.run sha256 s = .ok () s' := by
  unfold runOperations at h
  split at h
  · rename_i hrun
    cases h
    exact hrun
  · cases h

/-- A digest function for runs. -/
def demoDigest (_ : Str) : Str := List.replicate 64 (.scalar '0')

/-- A job without tasks is accepted. -/
def demoAccepted : List (Operation NonFinite) :=
  [.call (.createJob (Text.lit "job-1") 1
    { repo := lit "/repo", goal := lit "Add the parser", baseBranch := lit "main"
      baseCommit := lit "c0", integrationBranch := lit "yolo/job-1/integration"
      autoApply := false }),
   .call (.updateJob (lit "job-1") { state := some (lit "running") } 2),
   .call (.prepareAcceptedJob (lit "job-1")
    { acceptedCommit := lit "c1", finalSummary := lit "Added the parser"
      sourceApplyIntent := lit "not-requested"
      dossier := { schemaVersion := 1, sha256 := demoDigest [], content := lit "dossier" } } 3 4)]

/-- The accepted job is published with a summary of its own. -/
def demoPublication : Operation NonFinite :=
  .call (.publishCompletedJob (lit "job-1")
    { dossierSchemaVersion := 1, dossierSha256 := demoDigest [], finalSummary := lit "Done"
      sourceApplyOutcome := lit "not-requested" } 5)

/-- The run accepts the job. -/
theorem demoAccepted_run : ∃ s, runOperations demoDigest demoAccepted Store.empty = some s ∧
    ∃ j ∈ s.jobs, j.acceptancePhase = .accepted := by
  have hrun : (runOperations demoDigest demoAccepted Store.empty).map
      (fun s => s.jobs.rows.map JobRow.acceptancePhase) = some [.accepted] := by
    decide +kernel
  obtain ⟨s, hs, hrows⟩ := Option.map_eq_some_iff.mp hrun
  have hmem : AcceptancePhase.accepted ∈ s.jobs.rows.map JobRow.acceptancePhase := by
    rw [hrows]
    exact List.mem_singleton.mpr rfl
  obtain ⟨j, hj, hphase⟩ := List.mem_map.mp hmem
  exact ⟨s, hs, j, hj, hphase⟩

/-! ## Many jobs -/

/-- The identifier of the `i`-th job. -/
def crowdId (i : Nat) : Text :=
  ⟨newId (lit "job") (List.replicate 8 0 ++ [Fin.ofNat 16 (i / 4096), Fin.ofNat 16 (i / 256),
    Fin.ofNat 16 (i / 16), Fin.ofNat 16 i]), isText_newId (isText_lit "job") _⟩

theorem crowdId_injective {i j : Nat} (hi : i < 65536) (hj : j < 65536)
    (h : crowdId i = crowdId j) : i = j := by
  have hdigits := List.append_cancel_left (congrArg Text.val h)
  have hlast := List.append_cancel_left ((List.map_append ▸ List.map_append ▸ hdigits))
  have hhex : ∀ d e : Fin 16, hexDigit d = hexDigit e → d = e := by decide
  simp only [List.map_cons, List.map_nil, List.cons.injEq, and_true] at hlast
  obtain ⟨h₃, h₂, h₁, h₀⟩ := hlast
  have hdigit₃ := congrArg Fin.val (hhex _ _ h₃)
  have hdigit₂ := congrArg Fin.val (hhex _ _ h₂)
  have hdigit₁ := congrArg Fin.val (hhex _ _ h₁)
  have hdigit₀ := congrArg Fin.val (hhex _ _ h₀)
  simp only [Fin.val_ofNat] at hdigit₃ hdigit₂ hdigit₁ hdigit₀
  omega

/-- A job as `create_job` makes it. -/
def JobRow.created (job : JobRow) : JobRow :=
  { id := job.id, repo := job.repo, goal := job.goal, state := .queued
    baseBranch := job.baseBranch, baseCommit := job.baseCommit
    integrationBranch := job.integrationBranch, autoApply := job.autoApply
    createdAt := job.createdAt, updatedAt := job.createdAt }

/-- So many jobs can be created one after the other. -/
theorem created_reachable {job : Nat → JobRow} (hcreated : ∀ i, job i = (job i).created)
    (hid : ∀ i, (job i).id = crowdId i) {n : Nat} (hn : n ≤ 65536) :
    ∃ s, (database F sha256).Reachable s ∧ s.jobs.rows = (List.range n).map job := by
  induction n with
  | zero => exact ⟨Store.empty, System.reachable_init rfl, rfl⟩
  | succ n ih =>
    obtain ⟨s, hreach, hrows⟩ := ih (Nat.le_of_succ_le hn)
    have hnew : ∀ j ∈ s.jobs, j.id ≠ (job n).id := by
      intro j hj heq
      rw [← Table.mem_rows, hrows] at hj
      obtain ⟨i, hi, rfl⟩ := List.mem_map.mp hj
      have hlt : i < n := List.mem_range.mp hi
      rw [hid, hid] at heq
      have hsame : i = n := crowdId_injective (by omega) (by omega) heq
      omega
    obtain ⟨s', hcreate, hrows'⟩ := createJob_ok hnew (hcreated n)
    let create : Operation F := .call (.createJob (job n).id (job n).createdAt
      ⟨(job n).repo.val, (job n).goal.val, (job n).baseBranch.val, (job n).baseCommit.val,
        (job n).integrationBranch.val, (job n).autoApply⟩)
    have hstep : (database F sha256).step s create s' := dropReply_ok_iff.mpr ⟨_, hcreate⟩
    refine ⟨s', hreach.step hstep, ?_⟩
    rw [hrows', hrows, List.range_succ, List.map_append]
    rfl

/-! ## The invariants -/

/-- What the snapshot validator does not check holds of every reachable store: the
attempts, the numbers of the tasks, the dossiers and the acceptance of each job. -/
theorem store_invariants (h : (database F sha256).Reachable s) :
    (∀ a ∈ s.attempts, ∀ a' ∈ s.attempts, a.taskId = a'.taskId → a.state = .running →
      a'.state = .running → a = a') ∧
    (∀ a ∈ s.attempts, (a.finishedAt = none ↔ a.state = .running) ∧
      (a.state ≠ .running → ∀ s', (database F sha256).Steps s s' → a ∈ s'.attempts)) ∧
    (∀ jobId, (s.tasksOf jobId).map TaskRow.seq = List.range' 1 (s.tasksOf jobId).length) ∧
    (∀ d ∈ s.dossiers, sha256 d.content.val = d.sha256.val) ∧
    ∀ j ∈ s.jobs,
      (j.state = .completed ↔ j.acceptancePhase = .published) ∧
      (j.state = .completed ↔ ∃ d ∈ s.dossiers, d.jobId = j.id ∧ d.published = true) ∧
      (j.acceptedCommit.val ≠ [] ↔ j.acceptancePhase ≠ .none) ∧
      (j.sourceApplyOutcome ∈ [SourceApplyOutcome.applied, .skipped] ↔
        j.acceptancePhase = .published ∧ j.sourceApplyIntent = .requested) ∧
      (j.sourceApplyOutcome = .notRequested ↔
        j.acceptancePhase = .published ∧ j.sourceApplyIntent = .notRequested) ∧
      (j.sourceApplyOutcome = .none ↔ j.acceptancePhase ≠ .published) := by
  have hsound := reachable_sound h
  refine ⟨hsound.running, ?_, ?_, hsound.dossiers, ?_⟩
  · intro a ha
    refine ⟨hsound.attempts a ha, ?_⟩
    intro hdone s' hsteps
    exact finished_attempt_stays h hsteps ha hdone
  · intro jobId
    have hseqs := hsound.tasks jobId
    rw [hsound.tasks.tasksOf_eq]
    rw [seqsOf, List.length_map] at hseqs
    exact hseqs
  · intro j hj
    have hphase := (hsound.valid j hj).published_iff
    have hjob := hsound.jobs j hj
    exact ⟨hphase.symm, hphase.symm.trans (hsound.published j hj), hjob.commit, hjob.applied,
      hjob.notRequested, hjob.outcome_none⟩

/-- The invariants of the store of an accepted job. -/
theorem store_invariants_accepted :
    ∃ s, runOperations demoDigest demoAccepted Store.empty = some s ∧
      ∃ j ∈ s.jobs, j.acceptancePhase = .accepted ∧ j.acceptedCommit.val ≠ [] ∧
        j.sourceApplyOutcome = .none := by
  obtain ⟨s, hs, j, hj, hphase⟩ := demoAccepted_run
  obtain ⟨-, -, -, -, hjobs⟩ := store_invariants (runOperations_reachable hs)
  obtain ⟨-, -, hcommit, -, -, hnone⟩ := hjobs j hj
  refine ⟨s, hs, j, hj, hphase, hcommit.mpr ?_, hnone.mpr ?_⟩
  · rw [hphase]
    decide
  · rw [hphase]
    decide

end OmarchyYolo
