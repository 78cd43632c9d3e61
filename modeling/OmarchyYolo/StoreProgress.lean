import OmarchyYolo.StoreRefinement

/-!
# OmarchyYolo.StoreProgress — what a call can do to the rows

One account of the four tables that every public operation satisfies, whatever
its arguments: which rows it may touch, which columns of them, and where the
acceptance of a job can go.

* `JobRow.PhaseStep` — a job under a call: not accepted, accepted by it, kept,
  or taken on to the next phase;
* `Progress` — the four tables under a call, with the jobs whose acceptance has
  not begun (`opened`) and those the call publishes (`published`);
* `Call.run_progress` — every call that returns has made progress.
-/

namespace OmarchyYolo

open Py Sql Txn

/-! ## Jobs -/

/-- The columns a job has from its creation. -/
structure JobRow.SameOrigin (j j' : JobRow) : Prop where
  repo : j'.repo = j.repo
  goal : j'.goal = j.goal
  baseBranch : j'.baseBranch = j.baseBranch
  baseCommit : j'.baseCommit = j.baseCommit
  integrationBranch : j'.integrationBranch = j.integrationBranch
  createdAt : j'.createdAt = j.createdAt

theorem JobRow.SameOrigin.refl (j : JobRow) : j.SameOrigin j := ⟨rfl, rfl, rfl, rfl, rfl, rfl⟩

/-- The columns of a job's acceptance that no later operation writes. -/
structure JobRow.SameAcceptance (j j' : JobRow) : Prop where
  acceptedCommit : j'.acceptedCommit = j.acceptedCommit
  sourceApplyIntent : j'.sourceApplyIntent = j.sourceApplyIntent
  autoApply : j'.autoApply = j.autoApply
  integrationPath : j'.integrationPath = j.integrationPath

theorem JobRow.SameAcceptance.refl (j : JobRow) : j.SameAcceptance j := ⟨rfl, rfl, rfl, rfl⟩

/-- A job under a call that publishes the jobs of `published`, with their summaries. -/
inductive JobRow.PhaseStep (published : Text → Str → Prop) (j j' : JobRow) : Prop
  | opened (before : j.acceptancePhase = .none) (after : j'.acceptancePhase = .none)
      (commit : j'.acceptedCommit = j.acceptedCommit)
      (outcome : j'.sourceApplyOutcome = j.sourceApplyOutcome)
  | accepted (before : j.acceptancePhase = .none) (after : j'.acceptancePhase = .accepted)
      (commit : j'.acceptedCommit.val ≠ []) (outcome : j'.sourceApplyOutcome = .none)
  | kept (before : j.acceptancePhase ≠ .none) (after : j'.acceptancePhase = j.acceptancePhase)
      (same : j.SameAcceptance j') (summary : j'.finalSummary = j.finalSummary)
      (outcome : j'.sourceApplyOutcome = j.sourceApplyOutcome)
  | applying (before : j.acceptancePhase = .accepted) (after : j'.acceptancePhase = .applying)
      (intent : j.sourceApplyIntent = .requested) (same : j.SameAcceptance j')
      (summary : j'.finalSummary = j.finalSummary)
      (outcome : j'.sourceApplyOutcome = j.sourceApplyOutcome)
  | publish (before : validatePublication j j'.sourceApplyOutcome = .ok ())
      (after : j'.acceptancePhase = .published) (same : j.SameAcceptance j')
      (summary : published j.id j'.finalSummary.val)

theorem JobRow.PhaseStep.refl (published : Text → Str → Prop) (j : JobRow) :
    j.PhaseStep published j := by
  by_cases h : j.acceptancePhase = .none
  · exact .opened h h rfl rfl
  · exact .kept h rfl (.refl j) rfl rfl

/-- A publication is of an accepted or applying job, with an outcome that its intent allows. -/
theorem validatePublication_ok {j : JobRow} {outcome : SourceApplyOutcome}
    (h : validatePublication j outcome = .ok ()) :
    (j.sourceApplyIntent = .notRequested ∧ j.acceptancePhase = .accepted ∧
        outcome = .notRequested) ∨
      (j.sourceApplyIntent = .requested ∧ j.acceptancePhase = .applying ∧
        outcome ∈ [SourceApplyOutcome.applied, .skipped]) := by
  unfold validatePublication at h
  split at h
  · rename_i hintent
    rw [forbidIf_eq_ok, not_or, Decidable.not_not, Decidable.not_not] at h
    exact Or.inl ⟨hintent, h⟩
  · rename_i hintent
    rw [forbidIf_eq_ok, not_or, Decidable.not_not, Decidable.not_not] at h
    exact Or.inr ⟨hintent, h⟩

/-- The jobs under a call. -/
def JobsStep (published : Text → Str → Prop) : Table JobRow → Table JobRow → Prop :=
  Table.Evolves (fun j j' => j.SameOrigin j' ∧ j.PhaseStep published j')
    fun j => j.acceptancePhase = .none ∧ j.acceptedCommit.val = [] ∧ j.sourceApplyOutcome = .none

variable {published : Text → Str → Prop}

theorem JobsStep.refl (t : Table JobRow) : JobsStep published t t :=
  Table.Evolves.refl fun j _ => ⟨.refl j, .refl published j⟩

theorem JobsStep.update {t : Table JobRow} {p : JobRow → Bool} {f : JobRow → JobRow}
    (keeps : ∀ j, (f j).id = j.id)
    (h : ∀ j ∈ t, p j = true → j.SameOrigin (f j) ∧ j.PhaseStep published (f j)) :
    JobsStep published t (t.update p f keeps) :=
  Table.Evolves.update keeps h fun j _ => ⟨.refl j, .refl published j⟩

/-- Writing columns that acceptance has nothing to do with. -/
theorem JobRow.PhaseStep.of_same {j j' : JobRow} (hphase : j'.acceptancePhase = j.acceptancePhase)
    (hsame : j.SameAcceptance j') (hsummary : j'.finalSummary = j.finalSummary)
    (houtcome : j'.sourceApplyOutcome = j.sourceApplyOutcome) : j.PhaseStep published j' := by
  by_cases h : j.acceptancePhase = .none
  · exact .opened h (hphase.trans h) hsame.acceptedCommit houtcome
  · exact .kept h hphase hsame hsummary houtcome

/-! ## Tasks -/

/-- The numbers of a job's tasks, in the order of their insertion. -/
def seqsOf (t : Table TaskRow) (jobId : Text) : List Nat :=
  (t.select fun task => task.jobId == jobId).map TaskRow.seq

/-- The tasks under a call: some of open jobs are rewritten, or one open job gets more. -/
inductive TasksStep (opened : Text → Prop) (t t' : Table TaskRow) : Prop
  | rewritten (rows : Table.Evolves (fun u u' => u'.seq = u.seq ∧ (opened u.jobId ∨ u' = u))
      (fun _ => False) t t')
  | planned (jobId : Text) (added : List TaskRow) (job : opened jobId)
      (rows : t'.rows = t.rows ++ added) (own : ∀ u ∈ added, u.jobId = jobId)
      (seqs : added.map TaskRow.seq =
        List.range' ((seqsOf t jobId).foldl max 0 + 1) added.length)

variable {opened : Text → Prop}

theorem TasksStep.refl (t : Table TaskRow) : TasksStep opened t t :=
  .rewritten (Table.Evolves.refl fun _ _ => ⟨rfl, Or.inr rfl⟩)

theorem TasksStep.update {t : Table TaskRow} {p : TaskRow → Bool} {f : TaskRow → TaskRow}
    (keeps : ∀ u, Row.key (f u) = Row.key u) (hseq : ∀ u, (f u).seq = u.seq)
    (h : ∀ u ∈ t, p u = true → opened u.jobId) :
    TasksStep opened t (t.update p f keeps) := by
  apply TasksStep.rewritten
  apply Table.Evolves.update keeps
  · intro u hu hp
    exact ⟨hseq u, Or.inl (h u hu hp)⟩
  · intro u _
    exact ⟨rfl, Or.inr rfl⟩

/-! ## Attempts -/

/-- An attempt is closed. -/
def AttemptRow.Closes (a a' : AttemptRow) : Prop :=
  a.state = .running ∧ a'.state ≠ .running ∧ a'.finishedAt ≠ none

/-- The attempts under a call: some of open jobs are closed, or one is started. -/
inductive AttemptsStep (opened : Text → Prop) (t t' : Table AttemptRow) : Prop
  | closed (rows : Table.Evolves (fun a a' => (opened a.jobId ∧ a.Closes a') ∨ a' = a)
      (fun _ => False) t t')
  | started (attempt : AttemptRow) (job : opened attempt.jobId)
      (running : attempt.state = .running) (unfinished : attempt.finishedAt = none)
      (only : ∀ a ∈ t, a.taskId = attempt.taskId → a.state ≠ .running)
      (row : t.insert? attempt = some t')

theorem AttemptsStep.refl (t : Table AttemptRow) : AttemptsStep opened t t :=
  .closed (Table.Evolves.refl fun _ _ => Or.inr rfl)

theorem AttemptsStep.update {t : Table AttemptRow} {p : AttemptRow → Bool}
    {f : AttemptRow → AttemptRow} (keeps : ∀ a, Row.key (f a) = Row.key a)
    (h : ∀ a ∈ t, p a = true → opened a.jobId ∧ a.Closes (f a)) :
    AttemptsStep opened t (t.update p f keeps) := by
  apply AttemptsStep.closed
  apply Table.Evolves.update keeps
  · intro a ha hp
    exact Or.inl (h a ha hp)
  · intro a _
    exact Or.inr rfl

/-! ## Dossiers -/

/-- A dossier that is staged: its digest is that of its content. -/
def DossierRow.Staged (sha256 : Str → Str) (d : DossierRow) : Prop :=
  d.published = false ∧ sha256 d.content.val = d.sha256.val

/-- The dossiers under a call: that of an open job is staged, that of a published
job is published. -/
def DossiersStep (sha256 : Str → Str) (opened : Text → Prop) (published : Text → Str → Prop) :
    Table DossierRow → Table DossierRow → Prop :=
  Table.Evolves
    (fun d d' => (opened d.jobId ∧ d'.Staged sha256) ∨
      ((∃ summary, published d.jobId summary) ∧ d' = publishDossier d) ∨ d' = d)
    fun d => opened d.jobId ∧ d.Staged sha256

variable {sha256 : Str → Str}

theorem DossiersStep.refl (t : Table DossierRow) : DossiersStep sha256 opened published t t :=
  Table.Evolves.refl fun _ _ => Or.inr (Or.inr rfl)

/-! ## Stores -/

/-- A job whose acceptance has not begun. -/
def Store.Open (s : Store) (jobId : Text) : Prop :=
  ∃ j ∈ s.jobs, j.id = jobId ∧ j.acceptancePhase = .none

/-- The store under a call. -/
structure Progress (sha256 : Str → Str) (opened : Text → Prop) (published : Text → Str → Prop)
    (s s' : Store) : Prop where
  jobs : JobsStep published s.jobs s'.jobs
  tasks : TasksStep opened s.tasks s'.tasks
  attempts : AttemptsStep opened s.attempts s'.attempts
  dossiers : DossiersStep sha256 opened published s.dossiers s'.dossiers
  completed : ∀ jobId summary, published jobId summary →
    ∃ j ∈ s'.jobs, j.id = jobId ∧ j.acceptancePhase = .published
  done : ∀ jobId summary, published jobId summary →
    ∃ d ∈ s'.dossiers, d.jobId = jobId ∧ d.published = true

/-- No job is published. -/
def noJob (_ : Text) (_ : Str) : Prop := False

theorem Progress.refl (s : Store) : Progress sha256 opened noJob s s where
  jobs := .refl s.jobs
  tasks := .refl s.tasks
  attempts := .refl s.attempts
  dossiers := .refl s.dossiers
  completed _ _ := False.elim
  done _ _ := False.elim

variable {s t s' : Store}

/-- Progress, and then events. -/
theorem Progress.thenEvents (h : Progress sha256 opened published s t)
    (honly : Store.OnlyEvents t s') : Progress sha256 opened published s s' := by
  constructor
  · rw [honly.jobs]
    exact h.jobs
  · rw [honly.tasks]
    exact h.tasks
  · rw [honly.attempts]
    exact h.attempts
  · rw [honly.dossiers]
    exact h.dossiers
  · rw [honly.jobs]
    exact h.completed
  · rw [honly.dossiers]
    exact h.done

/-! ## The operations -/

section Operations

/-- The job of an id is the one row that has it. -/
theorem Store.eq_of_id {j j' : JobRow} (hj : j ∈ s.jobs) (hj' : j' ∈ s.jobs) (hid : j.id = j'.id) :
    j = j' := Table.eq_of_clash hj hj' hid

theorem Store.open_of_none {j : JobRow} (hj : j ∈ s.jobs) (h : j.acceptancePhase = .none) :
    s.Open j.id := ⟨j, hj, rfl, h⟩

theorem createJob_progress {newId : Text} {now : Timestamp} {args : NewJob} {reply : JobRow}
    (h : createJob newId now args s = .ok reply s') : Progress sha256 s.Open noJob s s' := by
  obtain ⟨job, t, -, -, hphase, hcommit, houtcome, hins, hevents, -⟩ := createJob_cases h
  obtain ⟨jobs, keeps, hjobs, rfl⟩ := Store.insertJob?_eq_some hins
  refine Progress.thenEvents ?_ hevents.1
  exact
    { Progress.refl s with
      jobs := .insert hjobs (fun j _ => ⟨.refl j, .refl noJob j⟩) ⟨hphase, hcommit, houtcome⟩
      completed := fun _ _ => False.elim }

theorem addTasks_progress {jobId : Str} {newId : Nat → Text} {now : Timestamp}
    {planned : List PlannedTask} {reply : List TaskRow}
    (h : addTasks jobId newId now planned s = .ok reply s') :
    Progress sha256 s.Open noJob s s' := by
  obtain ⟨job, hjob, -, -, hphase, honly, ⟨added, hrows, hadded, hseqs, -⟩, -⟩ := addTasks_cases h
  have hlength : added.length = planned.length := by
    have hlengths := congrArg List.length hseqs
    rwa [List.length_map, List.length_range'] at hlengths
  constructor
  · rw [honly.jobs]
    exact .refl s.jobs
  · refine .planned job.id added (Store.open_of_none hjob hphase) hrows ?_ ?_
    · intro u hu
      exact (hadded u hu).1
    · rw [hseqs, hlength]
      rfl
  · rw [honly.attempts]
    exact .refl s.attempts
  · rw [honly.dossiers]
    exact .refl s.dossiers
  · intro _ _
    exact False.elim
  · intro _ _
    exact False.elim

/-- What `update_job` writes to a job whose fields are frozen. -/
theorem JobFields.write_frozen {fields : JobFields} {texts : JobTexts} {target : JobState}
    {now : Timestamp} (hfrozen : fields.frozen = []) (htexts : fields.bindTexts = .ok texts)
    (j : JobRow) : j.SameAcceptance (fields.write texts target now j) ∧
      (fields.write texts target now j).finalSummary = j.finalSummary := by
  obtain ⟨state, path, stop, summary, error, auto, unsupported⟩ := fields
  simp only [JobFields.frozen, List.append_eq_nil_iff, ite_eq_right_iff, List.cons_ne_nil,
    imp_false, Bool.not_eq_true, Option.isSome_eq_false_iff, Option.isNone_iff_eq_none] at hfrozen
  obtain ⟨⟨⟨rfl, rfl⟩, rfl⟩, rfl⟩ := hfrozen
  cases htexts
  exact ⟨⟨rfl, rfl, rfl, rfl⟩, rfl⟩

theorem updateJob_progress {jobId : Str} {fields : JobFields} {now : Timestamp}
    (h : updateJob jobId fields now s = .ok () s') : Progress sha256 s.Open noJob s s' := by
  rcases updateJob_cases h with
    ⟨-, rfl⟩ | ⟨id, job, texts, target, -, hjob, hfrozen, -, -, -, htexts, rfl, -⟩
  · exact Progress.refl s'
  · obtain ⟨hmem, hid⟩ := Store.mem_of_job? hjob
    have hstep : ∀ j ∈ s.jobs, (j.id == id && j.state == job.state) = true →
        j.SameOrigin (fields.write texts target now j) ∧
          j.PhaseStep noJob (fields.write texts target now j) := by
      intro j hj hp
      rw [Bool.and_eq_true, beq_iff_eq] at hp
      have heq := Store.eq_of_id hj hmem (hp.1.trans hid.symm)
      rw [heq]
      refine ⟨⟨rfl, rfl, rfl, rfl, rfl, rfl⟩, ?_⟩
      by_cases hphase : job.acceptancePhase = .none
      · exact .opened hphase hphase rfl rfl
      · obtain ⟨hsame, hsummary⟩ := JobFields.write_frozen (hfrozen hphase) htexts job
        exact .kept hphase rfl hsame hsummary rfl
    exact
      { Progress.refl s with
        jobs := JobsStep.update (fields.write_id texts target now) hstep
        completed := fun _ _ => False.elim }

theorem Activated.jobs_step {job : JobRow} {target : TaskState} {now : Timestamp}
    (h : Activated job target now s t) : JobsStep noJob s.jobs t.jobs := by
  rcases h with rfl | ⟨-, -, rfl⟩
  · exact .refl t.jobs
  · apply JobsStep.update
    · intro _
      rfl
    · intro j _ _
      exact ⟨⟨rfl, rfl, rfl, rfl, rfl, rfl⟩, .of_same rfl ⟨rfl, rfl, rfl, rfl⟩ rfl rfl⟩

theorem Activated.dossiers {job : JobRow} {target : TaskState} {now : Timestamp}
    (h : Activated job target now s t) : t.dossiers = s.dossiers := by
  rcases h with rfl | ⟨-, -, rfl⟩
  · rfl
  · rfl

theorem updateTask_progress {taskId : Str} {fields : TaskFields} {now : Timestamp}
    (h : updateTask taskId fields now s = .ok () s') : Progress sha256 s.Open noJob s s' := by
  rcases updateTask_cases h with
    ⟨-, rfl⟩ | ⟨id, task, job, columns, target, t, -, htask, hjob, -, -, hphase, hactivated, -, -,
      rfl, -⟩
  · exact Progress.refl s'
  · obtain ⟨hmem, hid⟩ := Store.mem_of_task? htask
    obtain ⟨hmemJob, howner⟩ := Store.mem_of_job? hjob
    have htasks : TasksStep s.Open s.tasks (s.tasks.update
        (fun u => u.id == id && u.state == task.state) (columns.write target now)
        (columns.write_key target now)) := by
      refine TasksStep.update (columns.write_key target now) (fun _ => rfl) ?_
      intro u hu hp
      rw [Bool.and_eq_true, beq_iff_eq] at hp
      have heq : u = task := Table.eq_of_clash hu hmem (Or.inl (hp.1.trans hid.symm))
      rw [heq, ← howner]
      exact Store.open_of_none hmemJob hphase
    constructor
    · exact hactivated.jobs_step
    · rw [← hactivated.tasks] at htasks ⊢
      exact htasks
    · change AttemptsStep s.Open s.attempts t.attempts
      rw [hactivated.attempts]
      exact .refl s.attempts
    · change DossiersStep sha256 s.Open noJob s.dossiers t.dossiers
      rw [hactivated.dossiers]
      exact .refl s.dossiers
    · intro _ _
      exact False.elim
    · intro _ _
      exact False.elim

theorem startAttempt_progress {newId : Text} {now : Timestamp} {args : NewAttempt} {reply : Text}
    (h : startAttempt newId now args s = .ok reply s') : Progress sha256 s.Open noJob s s' := by
  obtain ⟨task, job, attempt, -, hjob, -, howner, -, -, -, hphase, honly, -, hown, htask, -, hrun,
    hunfinished, hins, -⟩ := startAttempt_cases h
  obtain ⟨hrow, hrest⟩ := Store.insertAttempt?_eq_some hins
  constructor
  · rw [hrest.jobs]
    exact .refl s.jobs
  · rw [hrest.tasks]
    exact .refl s.tasks
  · refine .started attempt ?_ hrun hunfinished ?_ hrow
    · rw [hown, howner]
      exact Store.open_of_none hjob hphase
    · rw [htask]
      exact honly
  · rw [hrest.dossiers]
    exact .refl s.dossiers
  · intro _ _
    exact False.elim
  · intro _ _
    exact False.elim

/-- The job of a running attempt of a valid store is open. -/
theorem Store.open_of_running (hvalid : ∀ j ∈ s.jobs, s.JobValid j) {a : AttemptRow}
    (ha : a ∈ s.attempts) (hrun : a.state = .running) : s.Open a.jobId := by
  obtain ⟨t, ht, -, hown⟩ := s.attemptTask a ha
  obtain ⟨j, hj, hid⟩ := s.taskJob t ht
  have hjob : a.jobId = j.id := hown.symm.trans hid.symm
  refine ⟨j, hj, hjob.symm, ?_⟩
  by_contra hphase
  exact (hvalid j hj).accepted_running hphase a ha hjob hrun

theorem finishAttempt_progress (hvalid : ∀ j ∈ s.jobs, s.JobValid j)
    {attemptId state summary : Str} {returncode : Option Int} {now : Timestamp}
    (h : finishAttempt attemptId state returncode summary now s = .ok () s') :
    Progress sha256 s.Open noJob s s' := by
  obtain ⟨attempt, target, returncode', summary', -, -, hrun, htarget, -, -, rfl, -⟩ :=
    finishAttempt_cases h
  have hkey : ∀ a : AttemptRow, Row.key { a with
      state := target, returncode := returncode', summary := summary', finishedAt := some now } =
        Row.key a := fun _ => rfl
  refine { Progress.refl s with attempts := AttemptsStep.update hkey ?_ }
  intro a ha hp
  simp only [Bool.and_eq_true, beq_iff_eq] at hp
  have hstate : a.state = .running := hp.2.trans hrun
  exact ⟨Store.open_of_running hvalid ha hstate, hstate, htarget, Option.some_ne_none _⟩

/-- Closing the running attempts of open jobs. -/
theorem AttemptsStep.close {jobIds : List Text} {state : AttemptState} {now : Timestamp}
    {note : Text} (h : ∀ jobId ∈ jobIds, s.Open jobId) (hstate : state ≠ .running) :
    AttemptsStep s.Open s.attempts (s.attempts.update (runningOf jobIds)
      (closeAttempt state now note) (closeAttempt_key state now note)) := by
  refine AttemptsStep.update (closeAttempt_key state now note) ?_
  intro a _ hp
  rw [runningOf, Bool.and_eq_true, List.contains_eq_mem, decide_eq_true_eq, beq_iff_eq] at hp
  exact ⟨h _ hp.1, hp.2, hstate, Option.some_ne_none _⟩

/-- An attempt is settled as cancelled or failed. -/
theorem settledAttemptState_ne_running {text : Str} {state : AttemptState}
    (h : settledAttemptState text = some state) : state ≠ .running := by
  have hmem := List.mem_of_find?_eq_some h
  rintro rfl
  revert hmem
  decide

theorem settleInflight_progress {jobId attemptState summary : Str} {taskState : TaskState}
    {now : Timestamp} (h : settleInflight jobId taskState attemptState summary now s = .ok () s') :
    Progress sha256 s.Open noJob s s' := by
  obtain ⟨job, hjob, settled, note, -, -, hsettled, hphase, -, rfl, -⟩ := settleInflight_cases h
  have hopen := Store.open_of_none hjob hphase
  refine { Progress.refl s with
    attempts := AttemptsStep.close ?_ (settledAttemptState_ne_running hsettled)
    tasks := TasksStep.update (settleTask_key taskState now note) (fun _ => rfl) ?_ }
  · intro u _ hp
    rw [inflightOf, Bool.and_eq_true, List.contains_eq_mem, decide_eq_true_eq,
      List.mem_singleton] at hp
    rw [hp.1]
    exact hopen
  · intro id hid
    rw [List.mem_singleton.mp hid]
    exact hopen

/-- Making the unfinished tasks of an open job schedulable. -/
theorem TasksStep.unfinished {jobId : Text} {now : Timestamp} (h : s.Open jobId) :
    TasksStep s.Open s.tasks (s.tasks.update (unfinishedOf jobId) (moveTask .pending now)
      (moveTask_key .pending now)) := by
  refine TasksStep.update (moveTask_key .pending now) (fun _ => rfl) ?_
  intro u _ hp
  rw [unfinishedOf, Bool.and_eq_true, beq_iff_eq] at hp
  rw [hp.1]
  exact h

theorem retryFailedTasks_progress {jobId : Str} {now : Timestamp}
    (h : retryFailedTasks jobId now s = .ok () s') : Progress sha256 s.Open noJob s s' := by
  obtain ⟨job, hjob, -, hphase, -, rfl, -⟩ := retryFailedTasks_cases h
  exact { Progress.refl s with tasks := TasksStep.unfinished (Store.open_of_none hjob hphase) }

/-- The rows of a resume. -/
theorem resumed_progress {job : JobRow} {now : Timestamp} (hjob : job ∈ s.jobs)
    (hphase : job.acceptancePhase = .none) :
    Progress sha256 s.Open noJob s (s.resumed job now) := by
  have hopen := Store.open_of_none hjob hphase
  refine { Progress.refl s with
    jobs := JobsStep.update (resumeJob_id now) ?_
    tasks := TasksStep.unfinished hopen
    attempts := AttemptsStep.close ?_ (by decide)
    completed := fun _ _ => False.elim }
  · intro j _ _
    exact ⟨⟨rfl, rfl, rfl, rfl, rfl, rfl⟩, .of_same rfl ⟨rfl, rfl, rfl, rfl⟩ rfl rfl⟩
  · intro id hid
    rw [List.mem_singleton.mp hid]
    exact hopen

theorem prepareResume_progress {jobId : Str} {now at' : Timestamp}
    (h : prepareResume jobId now at' s = .ok () s') : Progress sha256 s.Open noJob s s' := by
  obtain ⟨job, hjob, -, hphase, -, -, hevent⟩ := prepareResume_cases h
  exact (resumed_progress hjob hphase).thenEvents (jobEvent_onlyEvents hevent)

theorem requestStop_progress {jobId : Str} {now at' : Timestamp}
    (h : requestStop jobId now at' s = .ok () s') : Progress sha256 s.Open noJob s s' := by
  obtain ⟨t, hupdate, honly⟩ := requestStop_rows h
  exact (updateJob_progress hupdate).thenEvents honly

theorem clearStop_progress {jobId : Str} {now at' : Timestamp}
    (h : clearStop jobId now at' s = .ok () s') : Progress sha256 s.Open noJob s s' := by
  obtain ⟨t, hupdate, honly⟩ := clearStop_rows h
  exact (updateJob_progress hupdate).thenEvents honly

/-- Staging a dossier of an open job. -/
theorem DossiersStep.stage {dossier : NewDossier} {jobId : Text} {row : DossierRow}
    (hrow : dossier.Row jobId row) (hopen : s.Open jobId)
    (hdigest : digestMatches sha256 dossier.content dossier.sha256 = .ok true)
    (h : s.upsertDossier? row = some t) :
    DossiersStep sha256 s.Open noJob s.dossiers t.dossiers := by
  have hstaged : sha256 row.content.val = row.sha256.val := by
    rw [hrow.content, hrow.digest]
    exact (digestMatches_eq_true sha256 hdigest).2
  obtain ⟨hdossiers, -⟩ := Store.upsertDossier?_eq_some h
  rcases hdossiers with hins | hupdate
  · refine Table.Evolves.insert hins (fun _ _ => Or.inr (Or.inr rfl)) ?_
    rw [hrow.jobId]
    exact ⟨hopen, hrow.published, hstaged⟩
  · -- the row of the job is replaced
    have keeps : ∀ d : DossierRow, Row.key { row with jobId := d.jobId } = Row.key d :=
      fun _ => rfl
    rw [hupdate]
    refine Table.Evolves.update keeps ?_ fun _ _ => Or.inr (Or.inr rfl)
    intro d _ hp
    rw [beq_iff_eq] at hp
    rw [hp, hrow.jobId]
    exact Or.inl ⟨hopen, hrow.published, hstaged⟩

theorem stageDossier_progress {jobId : Str} {dossier : NewDossier} {now : Timestamp}
    (h : stageDossier sha256 jobId dossier now s = .ok () s') :
    Progress sha256 s.Open noJob s s' := by
  obtain ⟨job, hjob, -, -, hphase, hdigest, row, hrow, hupsert⟩ := stageDossier_cases sha256 h
  obtain ⟨-, honly⟩ := Store.upsertDossier?_eq_some hupsert
  constructor
  · rw [honly.jobs]
    exact .refl s.jobs
  · rw [honly.tasks]
    exact .refl s.tasks
  · rw [honly.attempts]
    exact .refl s.attempts
  · exact DossiersStep.stage hrow (Store.open_of_none hjob hphase) hdigest hupsert
  · intro _ _
    exact False.elim
  · intro _ _
    exact False.elim

theorem prepareAcceptedJob_progress {jobId : Str} {args : Acceptance} {stagedAt now : Timestamp}
    (h : prepareAcceptedJob sha256 jobId args stagedAt now s = .ok () s') :
    Progress sha256 s.Open noJob s s' := by
  obtain ⟨job, hjob, intent, -, -, hnonempty, hdigest, hcases⟩ := prepareAcceptedJob_cases sha256 h
  rcases hcases with ⟨-, -, rfl⟩ | hjournal
  · exact Progress.refl s'
  · obtain ⟨row, t, commit, summary, hrow, hupsert, hcommit, -, hevents⟩ := hjournal.writes
    obtain ⟨-, honly⟩ := Store.upsertDossier?_eq_some hupsert
    refine Progress.thenEvents ?_ hevents.1
    constructor
    · rw [← honly.jobs]
      refine JobsStep.update (acceptJob_id commit summary intent now) ?_
      intro j _ hp
      simp only [Bool.and_eq_true, beq_iff_eq] at hp
      refine ⟨⟨rfl, rfl, rfl, rfl, rfl, rfl⟩, .accepted hp.1.2 rfl ?_ rfl⟩
      change commit.val ≠ []
      rw [hcommit]
      exact hnonempty
    · change TasksStep s.Open s.tasks t.tasks
      rw [honly.tasks]
      exact .refl s.tasks
    · change AttemptsStep s.Open s.attempts t.attempts
      rw [honly.attempts]
      exact .refl s.attempts
    · change DossiersStep sha256 s.Open noJob s.dossiers t.dossiers
      exact DossiersStep.stage hrow (Store.open_of_none hjob hjournal.phase) hdigest hupsert
    · intro _ _
      exact False.elim
    · intro _ _
      exact False.elim

theorem markApplyStarted_progress {jobId acceptedCommit : Str} {now : Timestamp}
    (h : markApplyStarted jobId acceptedCommit now s = .ok () s') :
    Progress sha256 s.Open noJob s s' := by
  obtain ⟨job, hjob, -, -, hintent, hcases⟩ := markApplyStarted_cases h
  rcases hcases with ⟨-, rfl⟩ | ⟨-, hevents, -⟩
  · exact Progress.refl s'
  · refine Progress.thenEvents ?_ hevents.1
    refine { Progress.refl s with
      jobs := JobsStep.update (startApply_id now) ?_
      completed := fun _ _ => False.elim }
    intro j hj hp
    simp only [Bool.and_eq_true, beq_iff_eq] at hp
    have heq := Store.eq_of_id hj hjob hp.1
    refine ⟨⟨rfl, rfl, rfl, rfl, rfl, rfl⟩, .applying hp.2 rfl ?_ ⟨rfl, rfl, rfl, rfl⟩ rfl rfl⟩
    rw [heq]
    exact hintent

/-- A call publishes the one job it completes, with the summary it is given. -/
theorem publishCompletedJob_progress {jobId : Str} {args : Publication} {now : Timestamp}
    (h : publishCompletedJob sha256 jobId args now s = .ok () s') :
    Progress sha256 s.Open noJob s s' ∨
      ∃ job ∈ s.jobs, job.id.val = jobId ∧ job.state ≠ .completed ∧
        Progress sha256 s.Open (fun id summary => id = job.id ∧ summary = args.finalSummary)
          s s' := by
  obtain ⟨job, hjob, dossier, -, outcome, hid, -, -, -, hcases⟩ :=
    publishCompletedJob_cases sha256 h
  -- the same publication again, or the first one
  rcases hcases with ⟨-, -, -, -, rfl⟩ | ⟨hopen, hpublish⟩
  · exact Or.inl (Progress.refl s')
  · obtain ⟨summary, reason, hsummary, -, hevents⟩ := hpublish.writes
    refine Or.inr ⟨job, hjob, hid, hopen, ?_⟩
    refine Progress.thenEvents ?_ hevents.1
    -- the parts of `Progress`: of the job only its last phase and summary move
    constructor
    · refine JobsStep.update (completeJob_id summary reason outcome now) ?_
      intro j hj hp
      simp only [Bool.and_eq_true, beq_iff_eq] at hp
      have heq := Store.eq_of_id hj hjob hp.1.1
      rw [heq]
      exact ⟨⟨rfl, rfl, rfl, rfl, rfl, rfl⟩,
        .publish hpublish.allowed rfl ⟨rfl, rfl, rfl, rfl⟩ ⟨rfl, hsummary⟩⟩
    · exact .refl s.tasks
    · exact .refl s.attempts
    -- its dossier, and no other, is published
    · change Table.Evolves _ _ s.dossiers (s.dossiers.update _ publishDossier publishDossier_jobId)
      refine Table.Evolves.update _ ?_ ?_
      · intro d _ hp
        simp only [Bool.and_eq_true, beq_iff_eq] at hp
        exact Or.inr (Or.inl ⟨⟨_, hp.1.1, rfl⟩, rfl⟩)
      · intro _ _
        exact Or.inr (Or.inr rfl)
    -- the job that is published is completed in the later store
    · rintro id _ ⟨rfl, -⟩
      obtain ⟨j, hj, hown, hphase, -⟩ := hpublish.completed hjob
      rw [hevents.1.jobs] at hj
      exact ⟨j, hj, hown, hphase⟩
    -- and its dossier is there
    · rintro id _ ⟨rfl, -⟩
      obtain ⟨d, hd, hown, hunpublished, hdigest⟩ := hpublish.unpublished
      have hwritten : (d.jobId == job.id && d.published == false &&
          d.sha256.val == args.dossierSha256) = true := by
        simp only [Bool.and_eq_true, beq_iff_eq]
        exact ⟨⟨hown, hunpublished⟩, hdigest⟩
      refine ⟨publishDossier d, Table.mem_update_of_pos (f := publishDossier) publishDossier_jobId
        hd ?_, hown, rfl⟩
      exact hwritten

/-- A job that recovery puts back is open. -/
theorem Store.open_of_interrupted (hvalid : ∀ j ∈ s.jobs, s.JobValid j) {j : JobRow}
    (hj : j ∈ s.jobs) (hrun : j.state.terminal = false)
    (hphase : j.acceptancePhase ∉ [AcceptancePhase.accepted, .applying]) :
    j.acceptancePhase = .none := by
  have hpublished := (hvalid j hj).published_iff
  cases h : j.acceptancePhase with
  | none => rfl
  | accepted => exact absurd (by rw [h]; decide) hphase
  | applying => exact absurd (by rw [h]; decide) hphase
  | published =>
    rw [hpublished.mp h] at hrun
    cases hrun

/-- The ids of a group that recovery puts back. -/
theorem open_of_group (hvalid : ∀ j ∈ s.jobs, s.JobValid j) {group : List JobRow}
    (hgroup : ∀ j ∈ group, j ∈ s.jobs ∧ j.state.terminal = false ∧
      j.acceptancePhase ∉ [AcceptancePhase.accepted, .applying]) {jobId : Text}
    (h : (group.map JobRow.id).contains jobId = true) : s.Open jobId := by
  rw [List.contains_eq_mem, decide_eq_true_eq, List.mem_map] at h
  obtain ⟨j, hj, rfl⟩ := h
  obtain ⟨hmem, hrun, hphase⟩ := hgroup j hj
  exact Store.open_of_none hmem (Store.open_of_interrupted hvalid hmem hrun hphase)

theorem recovered_progress (hvalid : ∀ j ∈ s.jobs, s.JobValid j) (now : Timestamp) :
    Progress sha256 s.Open noJob s (s.recovered now) := by
  -- the jobs that are put back are neither terminal nor accepted
  have hactive : ∀ j ∈ s.interrupted.active, j ∈ s.jobs ∧ j.state.terminal = false ∧
      j.acceptancePhase ∉ [AcceptancePhase.accepted, .applying] := by
    intro j hj
    obtain ⟨hmem, hrun, hphase, -⟩ := Store.mem_interrupted_active.mp hj
    exact ⟨hmem, hrun, hphase⟩
  have hstopped : ∀ j ∈ s.interrupted.stopped, j ∈ s.jobs ∧ j.state.terminal = false ∧
      j.acceptancePhase ∉ [AcceptancePhase.accepted, .applying] := by
    intro j hj
    obtain ⟨hmem, hrun, hphase, -⟩ := Store.mem_interrupted_stopped.mp hj
    exact ⟨hmem, hrun, hphase⟩
  constructor
  -- the jobs: put back, kept, or as they were
  · refine Table.Evolves.of_map (s.recovered_jobs now) ?_
    intro j hj
    rw [Store.interrupted_job hj]
    split_ifs
    · exact ⟨rfl, .refl j, .refl noJob j⟩
    all_goals
      exact ⟨rfl, ⟨rfl, rfl, rfl, rfl, rfl, rfl⟩, .of_same rfl ⟨rfl, rfl, rfl, rfl⟩ rfl rfl⟩
  -- the tasks: those in flight of a job that is put back, and it is open
  · refine .rewritten (Table.Evolves.of_map (s.recovered_tasks now) ?_)
    intro u _
    rw [Interrupted.task_eq]
    split_ifs with h₁ h₂
    · rw [inflightOf, Bool.and_eq_true] at h₁
      exact ⟨rfl, rfl, Or.inl (open_of_group hvalid hactive h₁.1)⟩
    · rw [inflightOf, Bool.and_eq_true] at h₂
      exact ⟨rfl, rfl, Or.inl (open_of_group hvalid hstopped h₂.1)⟩
    · exact ⟨rfl, rfl, Or.inr rfl⟩
  -- the attempts: the running ones of such a job
  · refine .closed (Table.Evolves.of_map (s.recovered_attempts now) ?_)
    intro a _
    have hcancelled : AttemptState.cancelled ≠ .running := by decide
    rw [Interrupted.attempt_eq]
    split_ifs with h₁ h₂
    · rw [runningOf, Bool.and_eq_true, beq_iff_eq] at h₁
      exact ⟨rfl, Or.inl ⟨open_of_group hvalid hactive h₁.1, h₁.2, hcancelled,
        Option.some_ne_none _⟩⟩
    · rw [runningOf, Bool.and_eq_true, beq_iff_eq] at h₂
      exact ⟨rfl, Or.inl ⟨open_of_group hvalid hstopped h₂.1, h₂.2, hcancelled,
        Option.some_ne_none _⟩⟩
    · exact ⟨rfl, Or.inr rfl⟩
  · exact .refl s.dossiers
  -- nothing is published
  · intro _ _
    exact False.elim
  · intro _ _
    exact False.elim

theorem recoverIncomplete_progress (hvalid : ∀ j ∈ s.jobs, s.JobValid j) {maxVariables : Nat}
    {now : Timestamp}
    {at' : Text → Timestamp} {reply : List Text}
    (h : recoverIncomplete maxVariables now at' s = .ok reply s') :
      Progress sha256 s.Open noJob s s' := by
  obtain ⟨t, hrows, honly, -⟩ := recoverIncomplete_rows h
  obtain ⟨-, rfl, -⟩ := recoverRows_cases hrows
  exact (recovered_progress hvalid now).thenEvents honly

end Operations

end OmarchyYolo
