import OmarchyYolo.Database
import OmarchyYolo.Provenance
import OmarchyYolo.Recovery

/-!
# OmarchyYolo.StoreRefinement — the store refines the reference state machine

The sixteen public operations as calls, and what the reference state machine
allows a call to do:

* `Moves scope jobEdge s s'` — rows of the jobs in `scope` move along the edges
  of the transition tables, other rows stay, new rows are fresh;
* `LegalMove call s s'` — `Moves` for the jobs the call names.

`Moves` is proved for each statement and composed for each operation.
-/

namespace OmarchyYolo

open Py Sql Txn

/-! ## Moves -/

/-- A move of the rows of the jobs in `scope`. -/
structure Moves (scope : Text → Prop) (jobEdge : JobState → JobState → Prop) (s s' : Store) :
    Prop where
  jobs : Table.Evolves (fun j j' => jobEdge j.state j'.state ∧ (¬ scope j.id → j' = j))
    (fun j => scope j.id ∧ j.state = .queued) s.jobs s'.jobs
  tasks : Table.Evolves
    (fun t t' => t'.state ∈ taskTransitions t.state ∧ (¬ scope t.jobId → t' = t))
    (fun t => scope t.jobId ∧ t.state = .pending) s.tasks s'.tasks
  attempts : Table.Evolves
    (fun a a' => a'.state ∈ attemptTransitions a.state ∧ (¬ scope a.jobId → a' = a))
    (fun a => scope a.jobId ∧ a.state = .running) s.attempts s'.attempts
  dossiers : Table.Evolves (fun d d' => ¬ scope d.jobId → d' = d) (fun d => scope d.jobId)
    s.dossiers s'.dossiers
  events : Table.Evolves (fun e e' => e' = e) (fun e => scope e.jobId) s.events s'.events

variable {scope : Text → Prop} {jobEdge : JobState → JobState → Prop} {s t s' : Store}

/-- Staying is a move. -/
theorem Moves.refl (hedge : ∀ state, jobEdge state state) (s : Store) :
    Moves scope jobEdge s s where
  jobs := .refl fun j _ => ⟨hedge j.state, fun _ => rfl⟩
  tasks := .refl fun t _ => ⟨mem_taskTransitions_self t.state, fun _ => rfl⟩
  attempts := .refl fun a _ => ⟨mem_attemptTransitions_self a.state, fun _ => rfl⟩
  dossiers := .refl fun _ _ _ => rfl
  events := .refl fun _ _ => rfl

/-- A move of fewer jobs is a move of more. -/
theorem Moves.mono {scope' : Text → Prop} (h : Moves scope jobEdge s s')
    (hscope : ∀ id, scope id → scope' id) : Moves scope' jobEdge s s' where
  jobs := h.jobs.mono (fun _ _ _ hj => ⟨hj.1, fun hout => hj.2 fun hin => hout (hscope _ hin)⟩)
    fun _ hj => ⟨hscope _ hj.1, hj.2⟩
  tasks := h.tasks.mono (fun _ _ _ ht => ⟨ht.1, fun hout => ht.2 fun hin => hout (hscope _ hin)⟩)
    fun _ ht => ⟨hscope _ ht.1, ht.2⟩
  attempts := h.attempts.mono
    (fun _ _ _ ha => ⟨ha.1, fun hout => ha.2 fun hin => hout (hscope _ hin)⟩)
    fun _ ha => ⟨hscope _ ha.1, ha.2⟩
  dossiers := h.dossiers.mono (fun _ _ _ hd hout => hd fun hin => hout (hscope _ hin))
    fun _ hd => hscope _ hd
  events := h.events.mono (fun _ _ _ he => he) fun _ he => hscope _ he

/-- Two moves in a row, when no table but the ledger is written by both. -/
theorem Moves.comp (h : Moves scope jobEdge s t) (h' : Moves scope jobEdge t s')
    (hjobs : t.jobs = s.jobs ∨ s'.jobs = t.jobs) (htasks : t.tasks = s.tasks ∨ s'.tasks = t.tasks)
    (hattempts : t.attempts = s.attempts ∨ s'.attempts = t.attempts)
    (hdossiers : t.dossiers = s.dossiers ∨ s'.dossiers = t.dossiers) :
      Moves scope jobEdge s s' where
  -- each table is written by one of the two parts at most
  jobs := by
    rcases hjobs with heq | heq
    · rw [← heq]
      exact h'.jobs
    · rw [heq]
      exact h.jobs
  tasks := by
    rcases htasks with heq | heq
    · rw [← heq]
      exact h'.tasks
    · rw [heq]
      exact h.tasks
  attempts := by
    rcases hattempts with heq | heq
    · rw [← heq]
      exact h'.attempts
    · rw [heq]
      exact h.attempts
  dossiers := by
    rcases hdossiers with heq | heq
    · rw [← heq]
      exact h'.dossiers
    · rw [heq]
      exact h.dossiers
  events := by
    apply h.events.trans h'.events
    · intro e _ e' e'' he he'
      rw [he', he]
    · intro e e' he heq
      rw [heq]
      exact he
    · intro e he
      exact he

/-! ## The statements -/

section Statements

variable (hedge : ∀ state, jobEdge state state)
include hedge

theorem Moves.updateJobs {p : JobRow → Bool} {f : JobRow → JobRow} {keeps : ∀ j, (f j).id = j.id}
    (h : ∀ j ∈ s.jobs, p j = true → scope j.id ∧ jobEdge j.state (f j).state) :
    Moves scope jobEdge s (s.updateJobs p f keeps) :=
  { Moves.refl hedge s with
    jobs := by
      refine Table.Evolves.update keeps ?_ ?_
      · intro j hj hp
        obtain ⟨hscope, hmove⟩ := h j hj hp
        exact ⟨hmove, fun hout => absurd hscope hout⟩
      · intro j _
        exact ⟨hedge j.state, fun _ => rfl⟩ }

theorem Moves.updateTasks {p : TaskRow → Bool} {f : TaskRow → TaskRow}
    {keeps : ∀ t, Row.key (f t) = Row.key t}
    (h : ∀ t ∈ s.tasks, p t = true → scope t.jobId ∧ (f t).state ∈ taskTransitions t.state) :
    Moves scope jobEdge s (s.updateTasks p f keeps) :=
  { Moves.refl hedge s with
    tasks := by
      refine Table.Evolves.update keeps ?_ ?_
      · intro t ht hp
        obtain ⟨hscope, hmove⟩ := h t ht hp
        exact ⟨hmove, fun hout => absurd hscope hout⟩
      · intro t _
        exact ⟨mem_taskTransitions_self t.state, fun _ => rfl⟩ }

theorem Moves.updateAttempts {p : AttemptRow → Bool} {f : AttemptRow → AttemptRow}
    {keeps : ∀ a, Row.key (f a) = Row.key a}
    (h : ∀ a ∈ s.attempts, p a = true →
      scope a.jobId ∧ (f a).state ∈ attemptTransitions a.state) :
    Moves scope jobEdge s (s.updateAttempts p f keeps) :=
  { Moves.refl hedge s with
    attempts := by
      refine Table.Evolves.update keeps ?_ ?_
      · intro a ha hp
        obtain ⟨hscope, hmove⟩ := h a ha hp
        exact ⟨hmove, fun hout => absurd hscope hout⟩
      · intro a _
        exact ⟨mem_attemptTransitions_self a.state, fun _ => rfl⟩ }

theorem Moves.updateDossiers {p : DossierRow → Bool} {f : DossierRow → DossierRow}
    {keeps : ∀ d, (f d).jobId = d.jobId} (h : ∀ d ∈ s.dossiers, p d = true → scope d.jobId) :
    Moves scope jobEdge s (s.updateDossiers p f keeps) :=
  { Moves.refl hedge s with
    dossiers := by
      refine Table.Evolves.update keeps ?_ ?_
      · intro d hd hp hout
        exact absurd (h d hd hp) hout
      · intro d _ _
        rfl }

theorem Moves.insertJob {job : JobRow} (h : s.insertJob? job = some s') (hscope : scope job.id)
    (hstate : job.state = .queued) : Moves scope jobEdge s s' := by
  obtain ⟨jobs, keeps, hjobs, rfl⟩ := Store.insertJob?_eq_some h
  exact
    { Moves.refl hedge s with
      jobs := .insert hjobs (fun j _ => ⟨hedge j.state, fun _ => rfl⟩) ⟨hscope, hstate⟩ }

theorem Moves.appendTasks {added : List TaskRow} (honly : Store.OnlyTasks s s')
    (hrows : s'.tasks.rows = s.tasks.rows ++ added)
    (h : ∀ t ∈ added, scope t.jobId ∧ t.state = .pending) : Moves scope jobEdge s s' where
  jobs := by
    rw [honly.jobs]
    exact (Moves.refl hedge s).jobs
  tasks := .append hrows (fun t _ => ⟨mem_taskTransitions_self t.state, fun _ => rfl⟩) h
  attempts := by
    rw [honly.attempts]
    exact (Moves.refl hedge s).attempts
  dossiers := by
    rw [honly.dossiers]
    exact (Moves.refl hedge s).dossiers
  events := by
    rw [honly.events]
    exact (Moves.refl hedge s).events

theorem Moves.insertAttempt {attempt : AttemptRow} (h : s.insertAttempt? attempt = some s')
    (hscope : scope attempt.jobId) (hstate : attempt.state = .running) :
    Moves scope jobEdge s s' := by
  obtain ⟨hins, honly⟩ := Store.insertAttempt?_eq_some h
  constructor
  · rw [honly.jobs]
    exact (Moves.refl hedge s).jobs
  · rw [honly.tasks]
    exact (Moves.refl hedge s).tasks
  · exact .insert hins (fun a _ => ⟨mem_attemptTransitions_self a.state, fun _ => rfl⟩)
      ⟨hscope, hstate⟩
  · rw [honly.dossiers]
    exact (Moves.refl hedge s).dossiers
  · rw [honly.events]
    exact (Moves.refl hedge s).events

theorem Moves.upsertDossier {dossier : DossierRow} (h : s.upsertDossier? dossier = some s')
    (hscope : scope dossier.jobId) : Moves scope jobEdge s s' := by
  obtain ⟨hdossiers, honly⟩ := Store.upsertDossier?_eq_some h
  constructor
  · rw [honly.jobs]
    exact (Moves.refl hedge s).jobs
  · rw [honly.tasks]
    exact (Moves.refl hedge s).tasks
  · rw [honly.attempts]
    exact (Moves.refl hedge s).attempts
  · rcases hdossiers with hins | heq
    · exact .insert hins (fun _ _ _ => rfl) hscope
    · -- the row of the job is replaced
      have keeps : ∀ d : DossierRow,
          Row.key { dossier with jobId := d.jobId } = Row.key d := fun _ => rfl
      rw [heq]
      refine Table.Evolves.update keeps ?_ ?_
      · intro d _ hown hout
        rw [eq_of_beq hown] at hout
        exact absurd hscope hout
      · intro d _ _
        rfl
  · rw [honly.events]
    exact (Moves.refl hedge s).events

theorem Moves.appendEvents {added : List EventRow} (honly : Store.OnlyEvents s s')
    (hrows : s'.events.rows = s.events.rows ++ added) (h : ∀ e ∈ added, scope e.jobId) :
    Moves scope jobEdge s s' := by
  constructor
  · rw [honly.jobs]
    exact (Moves.refl hedge s).jobs
  · rw [honly.tasks]
    exact (Moves.refl hedge s).tasks
  · rw [honly.attempts]
    exact (Moves.refl hedge s).attempts
  · rw [honly.dossiers]
    exact (Moves.refl hedge s).dossiers
  · exact .append hrows (fun _ _ => rfl) h

/-- Any move, and then events of a job in scope. -/
theorem Moves.thenEvents {added : List EventRow} (h : Moves scope jobEdge s t)
    (honly : Store.OnlyEvents t s') (hrows : s'.events.rows = t.events.rows ++ added)
    (hadded : ∀ e ∈ added, scope e.jobId) : Moves scope jobEdge s s' :=
  h.comp (Moves.appendEvents hedge honly hrows hadded) (Or.inr honly.jobs) (Or.inr honly.tasks)
    (Or.inr honly.attempts) (Or.inr honly.dossiers)

theorem Moves.thenAppends {jobId : Text} {events : List (String × PyJson.Json PyJson.NonFinite)}
    (h : Moves scope jobEdge s t) (happend : AppendsEvents jobId events t s')
    (hscope : scope jobId) : Moves scope jobEdge s s' := by
  obtain ⟨honly, added, hrows, hown, -⟩ := happend
  refine h.thenEvents hedge honly hrows ?_
  intro e he
  rw [hown e he]
  exact hscope

theorem Moves.thenJobEvent {jobId : Text} {kind : String} {now : Timestamp}
    (h : Moves scope jobEdge s t) (hevent : jobEvent jobId.val kind now t = .ok () s')
    (hscope : scope jobId) : Moves scope jobEdge s s' := by
  obtain ⟨kind', payload, -, hins⟩ := jobEvent_cases hevent
  obtain ⟨hrow, honly⟩ := Store.insertEvent?_eq_some hins
  refine h.thenEvents hedge honly (Table.insert?_eq_some.mp hrow).2 ?_
  intro e he
  rw [List.mem_singleton.mp he]
  exact hscope

end Statements

/-! ## The operations -/

/-- An edge of `JOB_TRANSITIONS`. -/
def TableEdge (source target : JobState) : Prop := target ∈ jobTransitions source

theorem tableEdge_self (state : JobState) : TableEdge state state := mem_jobTransitions_self state

section Operations

theorem createJob_moves {newId : Text} {now : Timestamp} {args : NewJob} {reply : JobRow}
    (h : createJob newId now args s = .ok reply s') :
    Moves (fun job => job = newId) TableEdge s s' := by
  obtain ⟨job, t, hid, hstate, -, -, -, hins, hevents, -⟩ := createJob_cases h
  exact (Moves.insertJob tableEdge_self hins hid hstate).thenAppends tableEdge_self hevents rfl

theorem addTasks_moves {jobId : Str} {newId : Nat → Text} {now : Timestamp}
    {planned : List PlannedTask} {reply : List TaskRow}
    (h : addTasks jobId newId now planned s = .ok reply s') :
    Moves (fun job => job.val = jobId) TableEdge s s' := by
  obtain ⟨job, -, rfl, -, -, honly, ⟨added, hrows, hadded, -⟩, -⟩ := addTasks_cases h
  refine Moves.appendTasks tableEdge_self honly hrows ?_
  intro t ht
  obtain ⟨hown, hstate⟩ := hadded t ht
  exact ⟨congrArg Text.val hown, hstate⟩

theorem updateJob_moves {jobId : Str} {fields : JobFields} {now : Timestamp}
    (h : updateJob jobId fields now s = .ok () s') :
    Moves (fun job => job.val = jobId) TableEdge s s' := by
  rcases updateJob_cases h with
    ⟨-, rfl⟩ | ⟨id, job, texts, target, rfl, -, -, -, htrans, -, -, rfl, -⟩
  · exact Moves.refl tableEdge_self s'
  · apply Moves.updateJobs tableEdge_self
    intro j _ hp
    rw [Bool.and_eq_true, beq_iff_eq, beq_iff_eq] at hp
    refine ⟨congrArg Text.val hp.1, ?_⟩
    rw [hp.2]
    exact htrans

/-- Going in flight, a task can take its job along. -/
theorem Activated.moves {job : JobRow} {target : TaskState} {now : Timestamp} {task : Text}
    (h : Activated job target now s t) (hid : job.id = task) :
    Moves (fun id => id = task) TableEdge s t := by
  rcases h with rfl | ⟨-, hstate, rfl⟩
  · exact Moves.refl tableEdge_self t
  · apply Moves.updateJobs tableEdge_self
    intro j _ hp
    rw [Bool.and_eq_true, beq_iff_eq, beq_iff_eq] at hp
    refine ⟨hp.1.trans hid, ?_⟩
    rw [hp.2]
    change JobState.running ∈ jobTransitions job.state
    rcases List.mem_pair.mp hstate with hq | hq
    · rw [hq]
      decide
    · rw [hq]
      decide

theorem updateTask_moves {taskId : Str} {fields : TaskFields} {now : Timestamp}
    (h : updateTask taskId fields now s = .ok () s') :
    Moves (fun job => ∃ t ∈ s.tasks, t.id.val = taskId ∧ t.jobId = job) TableEdge s s' := by
  rcases updateTask_cases h with
    ⟨-, rfl⟩ | ⟨id, task, job, columns, target, t, rfl, htask, hjob, -, htrans, -, hactivated, -, -,
      rfl, -⟩
  · exact Moves.refl tableEdge_self s'
  · obtain ⟨hmem, rfl⟩ := Store.mem_of_task? htask
    obtain ⟨-, hid⟩ := Store.mem_of_job? hjob
    -- the job of the task, then the task
    have hfirst : Moves (fun job => ∃ t ∈ s.tasks, t.id.val = task.id.val ∧ t.jobId = job)
        TableEdge s t :=
      (hactivated.moves hid).mono fun id hid => ⟨task, hmem, rfl, hid.symm⟩
    refine hfirst.comp (Moves.updateTasks tableEdge_self ?_) (Or.inr rfl) ?_ (Or.inr rfl)
      (Or.inr rfl)
    · intro u hu hp
      rw [Bool.and_eq_true, beq_iff_eq, beq_iff_eq] at hp
      rw [hactivated.tasks] at hu
      refine ⟨⟨u, hu, congrArg Text.val hp.1, rfl⟩, ?_⟩
      rw [hp.2]
      exact htrans
    · exact Or.inl hactivated.tasks

theorem startAttempt_moves {newId : Text} {now : Timestamp} {args : NewAttempt} {reply : Text}
    (h : startAttempt newId now args s = .ok reply s') :
    Moves (fun job => job.val = args.jobId) TableEdge s s' := by
  obtain ⟨task, job, attempt, -, -, -, -, hown, -, -, -, -, -, hjob, -, -, hstate, -, hins, -⟩ :=
    startAttempt_cases h
  refine Moves.insertAttempt tableEdge_self hins ?_ hstate
  rw [hjob]
  exact hown

theorem finishAttempt_moves {attemptId state summary : Str} {returncode : Option Int}
    {now : Timestamp} (h : finishAttempt attemptId state returncode summary now s = .ok () s') :
    Moves (fun job => ∃ a ∈ s.attempts, a.id.val = attemptId ∧ a.jobId = job) TableEdge s s' := by
  obtain ⟨attempt, target, returncode', summary', hmem, rfl, -, -, htrans, -, rfl, -⟩ :=
    finishAttempt_cases h
  apply Moves.updateAttempts tableEdge_self
  intro a ha hp
  rw [Bool.and_eq_true, beq_iff_eq, beq_iff_eq] at hp
  refine ⟨⟨a, ha, congrArg Text.val hp.1, rfl⟩, ?_⟩
  rw [hp.2]
  exact htrans

/-- Closing the running attempts of a job. -/
theorem Moves.closeAttempts {state : AttemptState} {now : Timestamp} {note jobId : Text}
    (hscope : scope jobId) :
    Moves scope TableEdge s (s.updateAttempts (runningOf [jobId]) (closeAttempt state now note)
      (closeAttempt_key state now note)) := by
  apply Moves.updateAttempts tableEdge_self
  intro a _ hp
  simp only [runningOf, List.contains_eq_mem, List.mem_singleton, Bool.and_eq_true,
    decide_eq_true_eq, beq_iff_eq] at hp
  rw [hp.1, hp.2]
  have hedge : state ∈ attemptTransitions .running := by
    cases state <;> decide
  exact ⟨hscope, hedge⟩

/-- Making the unfinished tasks of a job schedulable. -/
theorem Moves.unfinishedTasks {now : Timestamp} {jobId : Text} (hscope : scope jobId) :
    Moves scope TableEdge s (s.updateTasks (unfinishedOf jobId) (moveTask .pending now)
      (moveTask_key .pending now)) := by
  apply Moves.updateTasks tableEdge_self
  intro t _ hp
  simp only [unfinishedOf, Bool.and_eq_true, beq_iff_eq, bne_iff_ne, ne_eq] at hp
  rw [hp.1]
  exact ⟨hscope, pending_mem_taskTransitions hp.2⟩

theorem settleInflight_moves {jobId attemptState summary : Str} {taskState : TaskState}
    {now : Timestamp} (h : settleInflight jobId taskState attemptState summary now s = .ok () s') :
    Moves (fun job => job.val = jobId) TableEdge s s' := by
  obtain ⟨job, -, settled, note, rfl, hstate, -, -, -, rfl, -⟩ := settleInflight_cases h
  have hclose : Moves (fun id => id.val = job.id.val) TableEdge s
      (s.updateAttempts (runningOf [job.id]) (closeAttempt settled now note)
        (closeAttempt_key settled now note)) := Moves.closeAttempts rfl
  refine hclose.comp (Moves.updateTasks tableEdge_self ?_) (Or.inl rfl) (Or.inl rfl) (Or.inr rfl)
    (Or.inl rfl)
  intro t _ hp
  simp only [inflightOf, List.contains_eq_mem, List.mem_singleton, Bool.and_eq_true,
    decide_eq_true_eq] at hp
  rw [hp.1]
  exact ⟨rfl, inflight_taskTransitions hp.2 hstate⟩

theorem retryFailedTasks_moves {jobId : Str} {now : Timestamp}
    (h : retryFailedTasks jobId now s = .ok () s') :
    Moves (fun job => job.val = jobId) TableEdge s s' := by
  obtain ⟨job, -, rfl, -, -, rfl, -⟩ := retryFailedTasks_cases h
  exact Moves.unfinishedTasks rfl

/-- The rows of a resume. -/
theorem resumed_moves {job : JobRow} {now : Timestamp}
    (hstate : job.state ∈ [JobState.stopped, .failed]) :
    Moves (fun id => id = job.id) TableEdge s (s.resumed job now) := by
  have hclose : Moves (fun id => id = job.id) TableEdge s
      (s.updateAttempts (runningOf [job.id])
        (closeAttempt .cancelled now (Text.lit "cancelled before explicit resume"))
        (closeAttempt_key .cancelled now (Text.lit "cancelled before explicit resume"))) :=
    Moves.closeAttempts rfl
  refine (hclose.comp (Moves.unfinishedTasks rfl) (Or.inl rfl) (Or.inl rfl) (Or.inr rfl)
    (Or.inl rfl)).comp (Moves.updateJobs tableEdge_self ?_) (Or.inl rfl) (Or.inr rfl) (Or.inr rfl)
    (Or.inr rfl)
  intro j _ hp
  simp only [Bool.and_eq_true, beq_iff_eq] at hp
  refine ⟨hp.1.1, ?_⟩
  rw [hp.1.2]
  change JobState.queued ∈ jobTransitions job.state
  rcases List.mem_pair.mp hstate with hq | hq
  · rw [hq]
    decide
  · rw [hq]
    decide

theorem prepareResume_moves {jobId : Str} {now at' : Timestamp}
    (h : prepareResume jobId now at' s = .ok () s') :
    Moves (fun job => job.val = jobId) TableEdge s s' := by
  obtain ⟨job, -, rfl, -, hstate, -, hevent⟩ := prepareResume_cases h
  refine Moves.thenJobEvent tableEdge_self ?_ hevent rfl
  exact (resumed_moves hstate).mono fun _ hid => congrArg Text.val hid

theorem requestStop_moves {jobId : Str} {now at' : Timestamp}
    (h : requestStop jobId now at' s = .ok () s') :
    Moves (fun job => job.val = jobId) TableEdge s s' := by
  rw [requestStop, db_bind_ok_iff] at h
  obtain ⟨_, t, hupdate, hevent⟩ := h
  obtain ⟨id, rfl, -⟩ := updateJob_job hupdate rfl
  exact (updateJob_moves hupdate).thenJobEvent tableEdge_self hevent rfl

theorem clearStop_moves {jobId : Str} {now at' : Timestamp}
    (h : clearStop jobId now at' s = .ok () s') :
    Moves (fun job => job.val = jobId) TableEdge s s' := by
  rw [clearStop, db_bind_ok_iff] at h
  obtain ⟨_, t, hupdate, hevent⟩ := h
  obtain ⟨id, rfl, -⟩ := updateJob_job hupdate rfl
  exact (updateJob_moves hupdate).thenJobEvent tableEdge_self hevent rfl

variable {sha256 : Str → Str}

theorem stageDossier_moves {jobId : Str} {dossier : NewDossier} {now : Timestamp}
    (h : stageDossier sha256 jobId dossier now s = .ok () s') :
    Moves (fun job => job.val = jobId) TableEdge s s' := by
  obtain ⟨job, -, rfl, -, -, -, row, hrow, hupsert⟩ := stageDossier_cases sha256 h
  exact Moves.upsertDossier tableEdge_self hupsert (congrArg Text.val hrow.jobId)

theorem prepareAcceptedJob_moves {jobId : Str} {args : Acceptance} {stagedAt now : Timestamp}
    (h : prepareAcceptedJob sha256 jobId args stagedAt now s = .ok () s') :
    Moves (fun job => job.val = jobId) TableEdge s s' := by
  obtain ⟨job, -, intent, rfl, -, -, -, hcases⟩ := prepareAcceptedJob_cases sha256 h
  rcases hcases with ⟨-, -, rfl⟩ | hjournal
  · exact Moves.refl tableEdge_self s'
  · obtain ⟨row, t, commit, summary, hrow, hupsert, -, -, hevents⟩ := hjournal.writes
    obtain ⟨-, honly⟩ := Store.upsertDossier?_eq_some hupsert
    refine Moves.thenAppends tableEdge_self ?_ hevents rfl
    refine (Moves.upsertDossier tableEdge_self hupsert (congrArg Text.val hrow.jobId)).comp
      (Moves.updateJobs tableEdge_self ?_) (Or.inl honly.jobs) (Or.inr rfl) (Or.inr rfl)
        (Or.inr rfl)
    intro j _ hp
    simp only [Bool.and_eq_true, beq_iff_eq] at hp
    exact ⟨congrArg Text.val hp.1.1, tableEdge_self j.state⟩

theorem markApplyStarted_moves {jobId acceptedCommit : Str} {now : Timestamp}
    (h : markApplyStarted jobId acceptedCommit now s = .ok () s') :
    Moves (fun job => job.val = jobId) TableEdge s s' := by
  obtain ⟨job, -, rfl, -, -, hcases⟩ := markApplyStarted_cases h
  rcases hcases with ⟨-, rfl⟩ | ⟨-, hevents, -⟩
  · exact Moves.refl tableEdge_self s'
  · refine Moves.thenAppends tableEdge_self (Moves.updateJobs tableEdge_self ?_) hevents rfl
    intro j _ hp
    simp only [Bool.and_eq_true, beq_iff_eq] at hp
    exact ⟨congrArg Text.val hp.1, tableEdge_self j.state⟩

theorem publishCompletedJob_moves {jobId : Str} {args : Publication} {now : Timestamp}
    (h : publishCompletedJob sha256 jobId args now s = .ok () s') :
    Moves (fun job => job.val = jobId) TableEdge s s' := by
  obtain ⟨job, -, dossier, -, outcome, rfl, -, -, -, hcases⟩ := publishCompletedJob_cases sha256 h
  rcases hcases with ⟨-, -, -, -, rfl⟩ | ⟨-, hpublish⟩
  · exact Moves.refl tableEdge_self s'
  · obtain ⟨summary, reason, -, -, hevents⟩ := hpublish.writes
    refine Moves.thenAppends tableEdge_self ?_ hevents rfl
    refine (Moves.updateJobs tableEdge_self ?_).comp (Moves.updateDossiers tableEdge_self ?_)
      (Or.inr rfl) (Or.inl rfl) (Or.inl rfl) (Or.inl rfl)
    · intro j _ hp
      simp only [Bool.and_eq_true, beq_iff_eq] at hp
      refine ⟨congrArg Text.val hp.1.1, ?_⟩
      rw [hp.1.2]
      exact hpublish.state
    · intro d _ hp
      simp only [Bool.and_eq_true, beq_iff_eq] at hp
      exact congrArg Text.val hp.1.1

end Operations

/-! ## Recovery -/

section RecoveryMoves

/-- The edges of recovery: those of the table, and the path through stopping. -/
def RecoveryEdge (source target : JobState) : Prop :=
  TableEdge source target ∨
    (target = .stopped ∧ JobState.stopping ∈ jobTransitions source ∧
      JobState.stopped ∈ jobTransitions .stopping)

theorem recoveryEdge_self (state : JobState) : RecoveryEdge state state :=
  Or.inl (tableEdge_self state)

/-- A job in no terminal state. -/
def Interruptible (s : Store) (jobId : Text) : Prop :=
  ∃ j ∈ s.jobs, j.id = jobId ∧ j.state.terminal = false

theorem interruptible_of_contains {group : List JobRow}
    (hgroup : ∀ j ∈ group, j ∈ s.jobs ∧ j.state.terminal = false) {jobId : Text}
    (h : (group.map JobRow.id).contains jobId = true) : Interruptible s jobId := by
  rw [List.contains_eq_mem, decide_eq_true_eq, List.mem_map] at h
  obtain ⟨j, hj, hid⟩ := h
  exact ⟨j, (hgroup j hj).1, hid, (hgroup j hj).2⟩

theorem active_interruptible {j : JobRow} (h : j ∈ s.interrupted.active) :
    j ∈ s.jobs ∧ j.state.terminal = false := by
  obtain ⟨hj, hterminal, -⟩ := Store.mem_interrupted_active.mp h
  exact ⟨hj, hterminal⟩

theorem stopped_interruptible {j : JobRow} (h : j ∈ s.interrupted.stopped) :
    j ∈ s.jobs ∧ j.state.terminal = false := by
  obtain ⟨hj, hterminal, -⟩ := Store.mem_interrupted_stopped.mp h
  exact ⟨hj, hterminal⟩

theorem accepted_interruptible {j : JobRow} (h : j ∈ s.interrupted.accepted) :
    j ∈ s.jobs ∧ j.state.terminal = false := by
  obtain ⟨hj, hterminal, -⟩ := Store.mem_interrupted_accepted.mp h
  exact ⟨hj, hterminal⟩

/-- Where recovery takes a job. -/
theorem recovered_job {now : Timestamp} {j : JobRow} (hj : j ∈ s.jobs) :
    (s.interrupted.job now j).id = j.id ∧
      RecoveryEdge j.state (s.interrupted.job now j).state ∧
      (¬ Interruptible s j.id → s.interrupted.job now j = j) := by
  rw [Store.interrupted_job hj]
  split_ifs with hterminal hphase hactive
  · exact ⟨rfl, recoveryEdge_self j.state, fun _ => rfl⟩
  · rw [Bool.not_eq_true] at hterminal
    exact ⟨rfl, recoveryEdge_self j.state, fun hout => absurd ⟨j, hj, rfl, hterminal⟩ hout⟩
  · rw [Bool.not_eq_true] at hterminal
    exact ⟨rfl, Or.inl (queued_mem_jobTransitions hterminal),
      fun hout => absurd ⟨j, hj, rfl, hterminal⟩ hout⟩
  · -- a stop was under way
    rw [Bool.not_eq_true] at hterminal
    exact ⟨rfl, Or.inr ⟨rfl, stopping_mem_jobTransitions hterminal, by decide⟩,
      fun hout => absurd ⟨j, hj, rfl, hterminal⟩ hout⟩

/-- Where recovery takes a task. -/
theorem recovered_task {now : Timestamp} (u : TaskRow) :
    Row.key (s.interrupted.task now u) = Row.key u ∧
      (s.interrupted.task now u).state ∈ taskTransitions u.state ∧
      (¬ Interruptible s u.jobId → s.interrupted.task now u = u) := by
  rw [Interrupted.task_eq]
  split_ifs with hactive hstopped
  · rw [inflightOf, Bool.and_eq_true] at hactive
    have hin := interruptible_of_contains (fun _ => active_interruptible) hactive.1
    refine ⟨rfl, inflight_taskTransitions hactive.2 ?_, fun hout => absurd hin hout⟩
    rw [moveTask_state]
    decide
  · rw [inflightOf, Bool.and_eq_true] at hstopped
    have hin := interruptible_of_contains (fun _ => stopped_interruptible) hstopped.1
    refine ⟨rfl, inflight_taskTransitions hstopped.2 ?_, fun hout => absurd hin hout⟩
    rw [moveTask_state]
    decide
  · exact ⟨rfl, mem_taskTransitions_self u.state, fun _ => rfl⟩

/-- Where recovery takes an attempt. -/
theorem recovered_attempt {now : Timestamp} (a : AttemptRow) :
    Row.key (s.interrupted.attempt now a) = Row.key a ∧
      (s.interrupted.attempt now a).state ∈ attemptTransitions a.state ∧
      (¬ Interruptible s a.jobId → s.interrupted.attempt now a = a) := by
  rw [Interrupted.attempt_eq]
  have hedge : AttemptState.cancelled ∈ attemptTransitions .running := by decide
  split_ifs with hactive hstopped
  · rw [runningOf, Bool.and_eq_true, beq_iff_eq] at hactive
    have hin := interruptible_of_contains (fun _ => active_interruptible) hactive.1
    rw [closeAttempt_state, hactive.2]
    exact ⟨rfl, hedge, fun hout => absurd hin hout⟩
  · rw [runningOf, Bool.and_eq_true, beq_iff_eq] at hstopped
    have hin := interruptible_of_contains (fun _ => stopped_interruptible) hstopped.1
    rw [closeAttempt_state, hstopped.2]
    exact ⟨rfl, hedge, fun hout => absurd hin hout⟩
  · exact ⟨rfl, mem_attemptTransitions_self a.state, fun _ => rfl⟩

theorem recovered_moves (s : Store) (now : Timestamp) :
    Moves (Interruptible s) RecoveryEdge s (s.recovered now) where
  jobs := .of_map (s.recovered_jobs now) fun _ hj => recovered_job hj
  tasks := .of_map (s.recovered_tasks now) fun u _ => recovered_task u
  attempts := .of_map (s.recovered_attempts now) fun a _ => recovered_attempt a
  dossiers := .refl fun _ _ _ => rfl
  events := .refl fun _ _ => rfl

/-- Events of jobs in the store are recorded, whatever their number. -/
theorem jobEvents_ok (kind : String) (at' : Text → Timestamp) {jobIds : List Text}
    (h : ∀ jobId ∈ jobIds, ∃ j ∈ s.jobs, j.id = jobId) :
    ∃ s', jobEvents kind at' jobIds s = .ok () s' ∧ s'.jobs = s.jobs := by
  induction jobIds generalizing s with
  | nil => exact ⟨s, rfl, rfl⟩
  | cons jobId jobIds ih =>
    rw [List.forall_mem_cons] at h
    obtain ⟨t, ht⟩ := jobEvent_ok h.1 kind (at' jobId)
    obtain ⟨_, _, -, hins⟩ := jobEvent_cases ht
    have hjobs := (Store.insertEvent?_eq_some hins).2.jobs
    obtain ⟨s', hs', hjobs'⟩ := ih (s := t) (by rw [hjobs]; exact h.2)
    exact ⟨s', db_bind_ok_iff.mpr ⟨(), t, ht, hs'⟩, hjobs'.trans hjobs⟩

theorem Moves.thenJobEvents (hedge : ∀ state, jobEdge state state) {kind : String}
    {at' : Text → Timestamp} {jobIds : List Text} (h : Moves scope jobEdge s t)
    (hevents : jobEvents kind at' jobIds t = .ok () s') (hscope : ∀ jobId ∈ jobIds, scope jobId) :
    Moves scope jobEdge s s' := by
  induction jobIds generalizing t with
  | nil =>
    cases hevents
    exact h
  | cons jobId jobIds ih =>
    rw [List.forall_mem_cons] at hscope
    obtain ⟨_, u, hevent, hrest⟩ := db_bind_ok_iff.mp hevents
    exact ih (h.thenJobEvent hedge hevent hscope.1) hrest hscope.2

theorem recoverIncomplete_moves {maxVariables : Nat} {now : Timestamp} {at' : Text → Timestamp}
    {reply : List Text} (h : recoverIncomplete maxVariables now at' s = .ok reply s') :
    Moves (Interruptible s) RecoveryEdge s s' := by
  simp only [recoverIncomplete, db_bind_ok_iff, transaction_ok_iff] at h
  obtain ⟨groups, _, hrows, _, _, haccepted, _, _, hactive, _, _, hstopped, hret⟩ := h
  cases hret
  obtain ⟨rfl, rfl, -⟩ := recoverRows_cases hrows
  have hscope : ∀ {group : List JobRow}, (∀ j ∈ group, j ∈ s.jobs ∧ j.state.terminal = false) →
      ∀ jobId ∈ group.map JobRow.id, Interruptible s jobId := by
    intro group hgroup jobId hmem
    apply interruptible_of_contains hgroup
    rw [List.contains_eq_mem, decide_eq_true_eq]
    exact hmem
  apply Moves.thenJobEvents recoveryEdge_self _ hstopped (hscope fun _ => stopped_interruptible)
  apply Moves.thenJobEvents recoveryEdge_self _ hactive (hscope fun _ => active_interruptible)
  apply Moves.thenJobEvents recoveryEdge_self _ haccepted (hscope fun _ => accepted_interruptible)
  exact recovered_moves s now

/-- Once the rows are recovered, the events cannot fail. -/
theorem recoverIncomplete_ok {maxVariables : Nat} {now : Timestamp} {groups : Interrupted}
    (hrows : recoverRows maxVariables now s = .ok (groups, t)) (at' : Text → Timestamp) :
    ∃ reply s', recoverIncomplete maxVariables now at' s = .ok reply s' := by
  obtain ⟨-, -, hvalid⟩ := recoverRows_cases hrows
  have hjobs : ∀ jobId ∈ groups.accepted.map JobRow.id ++ groups.active.map JobRow.id ++
      groups.stopped.map JobRow.id, ∃ j ∈ t.jobs, j.id = jobId := by
    intro jobId hmem
    obtain ⟨job, hjob, -⟩ := hvalid jobId hmem
    exact ⟨job, Store.mem_of_job? hjob⟩
  simp only [List.forall_mem_append] at hjobs
  obtain ⟨⟨haccepted, hactive⟩, hstopped⟩ := hjobs
  obtain ⟨t₁, h₁, hjobs₁⟩ := jobEvents_ok "job.recovered_acceptance" at' haccepted
  obtain ⟨t₂, h₂, hjobs₂⟩ := jobEvents_ok (s := t₁)
    "job.recovered" at' (by rw [hjobs₁]; exact hactive)
  obtain ⟨t₃, h₃, -⟩ := jobEvents_ok (s := t₂) "job.recovered_stopped" at'
    (by rw [hjobs₂, hjobs₁]; exact hstopped)
  refine ⟨groups.accepted.map JobRow.id ++ groups.active.map JobRow.id, t₃, ?_⟩
  rw [recoverIncomplete, db_bind_ok_iff]
  exact ⟨groups, t, transaction_ok_iff.mpr hrows, db_bind_ok_iff.mpr ⟨(), t₁, h₁,
    db_bind_ok_iff.mpr ⟨(), t₂, h₂, db_bind_ok_iff.mpr ⟨(), t₃, h₃, rfl⟩⟩⟩⟩

theorem recoverIncomplete_atomic (maxVariables : Nat) (now : Timestamp) (at' : Text → Timestamp)
    (s : Store) : Atomic (recoverIncomplete maxVariables now at') s := by
  intro e s' herror
  rcases db_bind_error_iff.mp herror with hfirst | ⟨groups, t, hrows, -⟩
  · exact transaction_error hfirst
  · obtain ⟨reply, u, hok⟩ := recoverIncomplete_ok (transaction_ok_iff.mp hrows) at'
    rw [hok] at herror
    cases herror

end RecoveryMoves

/-! ## Calls -/

/-- A public operation with its arguments, and what the clock and `new_id` return
during it. A recovery has the number of parameters that SQLite allows in a statement. -/
inductive Call where
  | createJob (newId : Text) (now : Timestamp) (args : NewJob)
  | addTasks (jobId : Str) (newId : Nat → Text) (now : Timestamp) (planned : List PlannedTask)
  | updateJob (jobId : Str) (fields : JobFields) (now : Timestamp)
  | updateTask (taskId : Str) (fields : TaskFields) (now : Timestamp)
  | startAttempt (newId : Text) (now : Timestamp) (args : NewAttempt)
  | finishAttempt (attemptId state : Str) (returncode : Option Int) (summary : Str)
      (now : Timestamp)
  | settleInflight (jobId : Str) (taskState : TaskState) (attemptState summary : Str)
      (now : Timestamp)
  | prepareResume (jobId : Str) (now at' : Timestamp)
  | retryFailedTasks (jobId : Str) (now : Timestamp)
  | recoverIncomplete (maxVariables : Nat) (now : Timestamp) (at' : Text → Timestamp)
  | requestStop (jobId : Str) (now at' : Timestamp)
  | clearStop (jobId : Str) (now at' : Timestamp)
  | stageDossier (jobId : Str) (dossier : NewDossier) (now : Timestamp)
  | prepareAcceptedJob (jobId : Str) (args : Acceptance) (stagedAt now : Timestamp)
  | markApplyStarted (jobId acceptedCommit : Str) (now : Timestamp)
  | publishCompletedJob (jobId : Str) (args : Publication) (now : Timestamp)

namespace Call

/-- The call, without its reply. -/
def run (sha256 : Str → Str) : Call → StoreDb Unit
  | createJob newId now args => dropReply (OmarchyYolo.createJob newId now args)
  | addTasks jobId newId now planned => dropReply (OmarchyYolo.addTasks jobId newId now planned)
  | updateJob jobId fields now => OmarchyYolo.updateJob jobId fields now
  | updateTask taskId fields now => OmarchyYolo.updateTask taskId fields now
  | startAttempt newId now args => dropReply (OmarchyYolo.startAttempt newId now args)
  | finishAttempt attemptId state returncode summary now =>
    OmarchyYolo.finishAttempt attemptId state returncode summary now
  | settleInflight jobId taskState attemptState summary now =>
    OmarchyYolo.settleInflight jobId taskState attemptState summary now
  | prepareResume jobId now at' => OmarchyYolo.prepareResume jobId now at'
  | retryFailedTasks jobId now => OmarchyYolo.retryFailedTasks jobId now
  | recoverIncomplete maxVariables now at' =>
    dropReply (OmarchyYolo.recoverIncomplete maxVariables now at')
  | requestStop jobId now at' => OmarchyYolo.requestStop jobId now at'
  | clearStop jobId now at' => OmarchyYolo.clearStop jobId now at'
  | stageDossier jobId dossier now => OmarchyYolo.stageDossier sha256 jobId dossier now
  | prepareAcceptedJob jobId args stagedAt now =>
    OmarchyYolo.prepareAcceptedJob sha256 jobId args stagedAt now
  | markApplyStarted jobId acceptedCommit now =>
    OmarchyYolo.markApplyStarted jobId acceptedCommit now
  | publishCompletedJob jobId args now => OmarchyYolo.publishCompletedJob sha256 jobId args now

/-- The jobs a call may change: the one it names, by its own id or by that of a
task or an attempt, or, for recovery, those in no terminal state. -/
def Scope (s : Store) : Call → Text → Prop
  | createJob newId _ _, job => job = newId
  | updateTask taskId _ _, job => ∃ t ∈ s.tasks, t.id.val = taskId ∧ t.jobId = job
  | finishAttempt attemptId _ _ _ _, job => ∃ a ∈ s.attempts, a.id.val = attemptId ∧ a.jobId = job
  | recoverIncomplete .., job => Interruptible s job
  | startAttempt _ _ args, job => job.val = args.jobId
  | addTasks jobId _ _ _, job | updateJob jobId _ _, job | settleInflight jobId _ _ _ _, job
  | prepareResume jobId _ _, job | retryFailedTasks jobId _, job | requestStop jobId _ _, job
  | clearStop jobId _ _, job | stageDossier jobId _ _, job | prepareAcceptedJob jobId _ _ _, job
  | markApplyStarted jobId _ _, job | publishCompletedJob jobId _ _, job => job.val = jobId

/-- The edges of a job. -/
def JobEdge : Call → JobState → JobState → Prop
  | recoverIncomplete .. => RecoveryEdge
  | _ => TableEdge

end Call

/-- What the reference state machine allows a call to do to a store. -/
def LegalMove (call : Call) (s s' : Store) : Prop := Moves (call.Scope s) call.JobEdge s s'

/-- A call that returns has made a legal move. -/
theorem Call.run_legal {sha256 : Str → Str} {call : Call} (h : call.run sha256 s = .ok () s') :
    LegalMove call s s' := by
  cases call with
  | createJob => exact createJob_moves (dropReply_ok_iff.mp h).choose_spec
  | addTasks => exact addTasks_moves (dropReply_ok_iff.mp h).choose_spec
  | updateJob => exact updateJob_moves h
  | updateTask => exact updateTask_moves h
  | startAttempt => exact startAttempt_moves (dropReply_ok_iff.mp h).choose_spec
  | finishAttempt => exact finishAttempt_moves h
  | settleInflight => exact settleInflight_moves h
  | prepareResume => exact prepareResume_moves h
  | retryFailedTasks => exact retryFailedTasks_moves h
  | recoverIncomplete => exact recoverIncomplete_moves (dropReply_ok_iff.mp h).choose_spec
  | requestStop => exact requestStop_moves h
  | clearStop => exact clearStop_moves h
  | stageDossier => exact stageDossier_moves h
  | prepareAcceptedJob => exact prepareAcceptedJob_moves h
  | markApplyStarted => exact markApplyStarted_moves h
  | publishCompletedJob => exact publishCompletedJob_moves h

/-- An update of a job, and the event that a stop request or its end records. -/
theorem updateJob_event_atomic {jobId : Str} {fields : JobFields} {now at' : Timestamp}
    {kind : String} (hfields : fields.isEmpty = false) (s : Store) :
    Atomic (do OmarchyYolo.updateJob jobId fields now; jobEvent jobId kind at') s := by
  apply atomic_bind (updateJob_atomic jobId fields now s)
  intro _ t hupdate
  obtain ⟨id, rfl, hjob⟩ := updateJob_job hupdate hfields
  obtain ⟨t', ht'⟩ := jobEvent_ok hjob kind at'
  exact ⟨(), t', ht'⟩

/-- A call that raises has changed nothing. -/
theorem Call.run_atomic (sha256 : Str → Str) (call : Call) (s : Store) :
    Atomic (call.run sha256) s := by
  cases call with
  | createJob newId now args => exact atomic_dropReply (createJob_atomic newId now args s)
  | addTasks jobId newId now planned =>
    exact atomic_dropReply (addTasks_atomic jobId newId now planned s)
  | updateJob jobId fields now => exact updateJob_atomic jobId fields now s
  | updateTask taskId fields now => exact updateTask_atomic taskId fields now s
  | startAttempt newId now args =>
    apply atomic_dropReply
    apply atomic_bind (atomic_transaction _ s)
    intro _ t _
    exact ⟨newId, t, rfl⟩
  | finishAttempt => exact atomic_transaction _ s
  | settleInflight => exact atomic_transaction _ s
  | prepareResume jobId now at' => exact prepareResume_atomic jobId now at' s
  | retryFailedTasks jobId now => exact retryFailedTasks_atomic jobId now s
  | recoverIncomplete maxVariables now at' =>
    exact atomic_dropReply (recoverIncomplete_atomic maxVariables now at' s)
  | requestStop => exact updateJob_event_atomic rfl s
  | clearStop => exact updateJob_event_atomic rfl s
  | stageDossier => exact atomic_transaction _ s
  | prepareAcceptedJob => exact atomic_transaction _ s
  | markApplyStarted => exact atomic_transaction _ s
  | publishCompletedJob => exact atomic_transaction _ s

/-- The durable store refines the reference state machine: whatever the store and
the call, the call raises and changes nothing, or makes a legal move. -/
theorem store_refines_state_machine (sha256 : Str → Str) (s : Store) (call : Call) :
    (∃ e, call.run sha256 s = .error e s) ∨
      ∃ s', call.run sha256 s = .ok () s' ∧ LegalMove call s s' := by
  cases h : call.run sha256 s with
  | error e s' =>
    have heq := Call.run_atomic sha256 call s e s' h
    rw [heq]
    exact Or.inl ⟨e, rfl⟩
  | ok u s' => exact Or.inr ⟨s', rfl, Call.run_legal h⟩

end OmarchyYolo
