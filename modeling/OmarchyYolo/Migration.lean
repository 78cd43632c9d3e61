import OmarchyYolo.Store

/-!
# OmarchyYolo.Migration — databases of earlier versions

What opening a database of schema version 1, 2 or 3 does with its rows. Tables
that the migrations keep have the columns and unique keys of the schema
contract, and there is nothing else in the database: all others are refused.

* `initDatabase` — the migrations, the schema and the checks after it;
* `MigratedDatabase.snapshot` — what the reference model is shown of a job;
* `LegacyDatabase.Settled` — a graph that the earlier version has left in order;
* `migrated_snapshots_valid_iff` — the migrated graph is valid where that one is in order.
-/

namespace OmarchyYolo

open Py

/-! ## Rows -/

/-- `jobs`, before the acceptance journal. -/
structure LegacyJob where
  id : Text
  repo : Text
  goal : Text
  state : JobState
  baseBranch : Text
  baseCommit : Text
  integrationBranch : Text
  integrationPath : Text := Text.lit ""
  autoApply : Int := 0
  stopRequested : Int := 0
  finalSummary : Text := Text.lit ""
  error : Text := Text.lit ""
  createdAt : Timestamp
  updatedAt : Timestamp
deriving DecidableEq, Repr

/-- `jobs`, with the defaults of the columns that version 4 adds. -/
structure StoredJob extends LegacyJob where
  acceptedCommit : Text := Text.lit ""
  acceptancePhase : AcceptancePhase := .none
  sourceApplyIntent : SourceApplyIntent := .notRequested
  sourceApplyOutcome : SourceApplyOutcome := .none
  sourceApplyReason : Text := Text.lit ""
deriving DecidableEq, Repr

/-- `tasks`; the lists are the stored texts. -/
structure StoredTask where
  id : Text
  jobId : Text
  seq : Int
  logicalId : Text
  title : Text
  description : Text
  state : TaskState
  dependencies : Text := Text.lit "[]"
  acceptance : Text := Text.lit "[]"
  preferredAgent : Option Text := none
  attempts : Int := 0
  branch : Text := Text.lit ""
  worktree : Text := Text.lit ""
  baseCommit : Text := Text.lit ""
  lastError : Text := Text.lit ""
  resultSummary : Text := Text.lit ""
  createdAt : Timestamp
  updatedAt : Timestamp
deriving DecidableEq, Repr

/-- `dossiers`, as version 2 made it. -/
structure LegacyDossier where
  jobId : Text
  schemaVersion : Int
  sha256 : Text
  content : Text
  createdAt : Timestamp
deriving DecidableEq, Repr

/-- The table of dossiers: there is none yet, or it may lack its last column. -/
inductive LegacyDossiers where
  | missing
  | unpublished (rows : List LegacyDossier)
  | published (rows : List DossierRow)
deriving DecidableEq, Repr

def LegacyDossiers.jobIds : LegacyDossiers → List Text
  | .missing => []
  | .unpublished rows => rows.map (·.jobId)
  | .published rows => rows.map (·.jobId)

/-! ## Databases -/

/-- `PRAGMA user_version`; 0 reads as version 1. -/
inductive LegacyVersion where
  | unversioned
  | v1
  | v2
  | v3
deriving DecidableEq, Repr

/-- A database of an earlier version; tables other than `jobs` may not exist. -/
structure LegacyDatabase where
  version : LegacyVersion
  jobs : List LegacyJob
  tasks : Option (List StoredTask) := none
  attempts : Option (List AttemptRow) := none
  events : Option (List EventRow) := none
  dossiers : LegacyDossiers := .missing
deriving DecidableEq, Repr

/-- Every task has its job. -/
abbrev TasksOwned {J : Type} (id : J → Text) (jobs : List J) (tasks : List StoredTask) : Prop :=
  ∀ t ∈ tasks, ∃ j ∈ jobs, id j = t.jobId

/-- Every attempt has its job, and its task in that job. -/
abbrev AttemptsOwned {J : Type} (id : J → Text) (jobs : List J) (tasks : List StoredTask)
    (attempts : List AttemptRow) : Prop :=
  ∀ a ∈ attempts, (∃ j ∈ jobs, id j = a.jobId) ∧ ∃ t ∈ tasks, t.id = a.taskId ∧ t.jobId = a.jobId

/-- A database of the current version, with its foreign keys. -/
structure MigratedDatabase where
  jobs : List StoredJob
  tasks : List StoredTask
  attempts : List AttemptRow
  events : List EventRow
  dossiers : List DossierRow
  taskJob : TasksOwned (·.id) jobs tasks
  attemptTask : AttemptsOwned (·.id) jobs tasks attempts
  eventJob : ∀ e ∈ events, ∃ j ∈ jobs, j.id = e.jobId

/-! ## Migrations -/

section Migrations

variable (backup : Str)

/-- The error of `__init__`, with the path of the backup. -/
def initFailed {α : Type} (detail : String) : Except Exn α :=
  raise (lit "database initialization/integrity check failed: " ++ lit detail ++
    lit "; pre-migration backup: " ++ backup)

/-- From version 1: a table of dossiers. -/
def addDossiers (db : LegacyDatabase) : LegacyDatabase :=
  { db with dossiers := match db.dossiers with
      | .missing => .unpublished []
      | dossiers => dossiers }

/-- `ALTER TABLE dossiers ADD COLUMN published`, and the dossiers of completed jobs. -/
def publishDossiers (jobs : List LegacyJob) (rows : List LegacyDossier) : List DossierRow :=
  rows.map fun d =>
    { jobId         := d.jobId
      schemaVersion := d.schemaVersion
      sha256        := d.sha256
      content       := d.content
      published     := jobs.any fun j =>
        j.id == d.jobId && j.state == .completed && j.stopRequested == 0
      createdAt     := d.createdAt }

/-- From version 2: the other tables, published dossiers, and attempts whose rows are copied
under the foreign key of their owner. -/
def ownAttempts (db : LegacyDatabase) : Except Exn LegacyDatabase :=
  match db.dossiers with
  | .missing => initFailed backup "no such table: dossiers"
  | .published _ => initFailed backup "duplicate column name: published"
  | .unpublished rows =>
    if AttemptsOwned LegacyJob.id db.jobs (db.tasks.getD []) (db.attempts.getD []) then
      .ok { db with
        tasks    := some (db.tasks.getD [])
        attempts := some (db.attempts.getD [])
        events   := some (db.events.getD [])
        dossiers := .published (publishDossiers db.jobs rows) }
    else initFailed backup "FOREIGN KEY constraint failed"

/-- The columns of the acceptance journal; completed jobs have been published. -/
def backfillJob (events : List EventRow) (job : LegacyJob) : StoredJob :=
  if job.state = .completed then
    { job with
      acceptancePhase    := .published
      sourceApplyIntent  := if job.autoApply = 1 then .requested else .notRequested
      sourceApplyOutcome :=
        if ∃ e ∈ events, e.jobId = job.id ∧ e.kind.val = lit "job.applied" then .applied
        else if ∃ e ∈ events, e.jobId = job.id ∧ e.kind.val = lit "job.apply_skipped" then .skipped
        else if job.autoApply = 0 then .notRequested
        else .none }
  else { job with }

/-- From version 3: the journal, from the ledger of events. -/
def addJournal (db : LegacyDatabase) : Except Exn (List StoredJob) :=
  match db.events with
  | none => initFailed backup "no such table: events"
  | some events => .ok (db.jobs.map (backfillJob events))

/-- `_migrate`, up to version 3. -/
def migrate (db : LegacyDatabase) : Except Exn LegacyDatabase :=
  match db.version with
  | .unversioned | .v1 => ownAttempts backup (addDossiers db)
  | .v2 => ownAttempts backup db
  | .v3 => .ok db

/-- The dossiers after the schema has been executed: a table with other columns than the
contract's is refused. -/
def contractDossiers : LegacyDossiers → Except Exn (List DossierRow)
  | .missing => .ok []
  | .published rows => .ok rows
  | .unpublished _ => initFailed backup
    ("schema contract mismatch for dossiers: expected columns ('job_id', 'schema_version', " ++
      "'sha256', 'content', 'published', 'created_at'), got ('job_id', 'schema_version', " ++
      "'sha256', 'content', 'created_at')")

/-- `__init__`, for a database of an earlier version. -/
def initDatabase (db : LegacyDatabase) : Except Exn MigratedDatabase := do
  let db ← migrate backup db
  let jobs ← addJournal backup db
  let tasks := db.tasks.getD []
  let attempts := db.attempts.getD []
  let events := db.events.getD []
  if h : TasksOwned (·.id) jobs tasks ∧ AttemptsOwned (·.id) jobs tasks attempts ∧
      (∀ e ∈ events, ∃ j ∈ jobs, j.id = e.jobId) ∧
      ∀ id ∈ db.dossiers.jobIds, ∃ j ∈ jobs, j.id = id then
    (contractDossiers backup db.dossiers).map fun dossiers =>
      { jobs        := jobs
        tasks       := tasks
        attempts    := attempts
        events      := events
        dossiers    := dossiers
        taskJob     := h.1
        attemptTask := h.2.1
        eventJob    := h.2.2.1 }
  else initFailed backup "foreign_key_check found relational violations"

end Migrations

/-! ## Snapshots -/

namespace MigratedDatabase

variable (db : MigratedDatabase) (job : StoredJob)

/-- The tasks of a job, `ORDER BY seq`. -/
def tasksOf : List StoredTask :=
  (db.tasks.filter fun t => t.jobId == job.id).mergeSort fun t t' => t.seq ≤ t'.seq

/-- The tasks that own a running attempt of a job, `ORDER BY started_at, id`. -/
def runningOwners : List TaskState :=
  ((db.attempts.filter fun a => a.jobId == job.id && a.state == .running).mergeSort fun a a' =>
    a.startedAt < a'.startedAt || (a.startedAt == a'.startedAt && strLe a.id.val a'.id.val)).flatMap
      fun a => (db.tasks.filter fun t => t.jobId == a.jobId && t.id == a.taskId).map
        StoredTask.state

/-- `_snapshot_locked`. -/
def snapshot : JobSnapshot where
  state           := job.state
  tasks           := (db.tasksOf job).map StoredTask.state
  runningOwners   := db.runningOwners job
  stopRequested   := job.stopRequested != 0
  acceptancePhase := some job.acceptancePhase

end MigratedDatabase

/-! ## Graphs in order -/

/-- A job whose tasks and running attempts agree with its state, in the two tables that the
earlier version has for them. -/
structure LegacyJob.Settled (tasks : List StoredTask) (attempts : List AttemptRow)
    (job : LegacyJob) : Prop where
  completed : job.state = .completed →
    job.stopRequested = 0 ∧ ∀ t ∈ tasks, t.jobId = job.id → t.state = .completed
  ended : job.state ∈ [JobState.queued, .stopped, .failed] →
    ∀ t ∈ tasks, t.jobId = job.id → t.state.inflight = false
  stopped : job.state = .stopped → job.stopRequested ≠ 0
  running : ∀ a ∈ attempts, a.jobId = job.id → a.state = .running →
    job.state ∈ [JobState.running, .stopping] ∧
      ∀ t ∈ tasks, t.id = a.taskId → t.jobId = job.id → t.state.inflight = true

def LegacyDatabase.Settled (db : LegacyDatabase) : Prop :=
  ∀ job ∈ db.jobs, job.Settled (db.tasks.getD []) (db.attempts.getD [])

/-! ## What the migrations leave alone -/

section Frame

variable {backup : Str} {db : LegacyDatabase}

theorem ownAttempts_rows {db' : LegacyDatabase} (h : ownAttempts backup db = .ok db') :
    db'.jobs = db.jobs ∧ db'.tasks.getD [] = db.tasks.getD [] ∧
      db'.attempts.getD [] = db.attempts.getD [] := by
  unfold ownAttempts at h
  split at h
  · cases h
  · cases h
  · split_ifs at h
    · cases h
      exact ⟨rfl, rfl, rfl⟩
    · cases h

theorem migrate_rows {db' : LegacyDatabase} (h : migrate backup db = .ok db') :
    db'.jobs = db.jobs ∧ db'.tasks.getD [] = db.tasks.getD [] ∧
      db'.attempts.getD [] = db.attempts.getD [] := by
  unfold migrate at h
  split at h
  · exact @ownAttempts_rows backup (addDossiers db) db' h
  · exact @ownAttempts_rows backup (addDossiers db) db' h
  · exact ownAttempts_rows h
  · cases h
    exact ⟨rfl, rfl, rfl⟩

/-- The jobs are backfilled, the rows of tasks and attempts are those there were. -/
theorem initDatabase_rows {migrated : MigratedDatabase}
    (h : initDatabase backup db = .ok migrated) :
    (∃ events, migrated.jobs = db.jobs.map (backfillJob events)) ∧
      migrated.tasks = db.tasks.getD [] ∧ migrated.attempts = db.attempts.getD [] := by
  simp only [initDatabase, bind_ok_iff] at h
  obtain ⟨db', hmigrate, jobs, hjournal, h⟩ := h
  obtain ⟨hjobs, htasks, hattempts⟩ := migrate_rows hmigrate
  obtain ⟨events, rfl⟩ : ∃ events, jobs = db.jobs.map (backfillJob events) := by
    unfold addJournal at hjournal
    split at hjournal
    · cases hjournal
    · rw [← hjobs]
      exact ⟨_, (Except.ok.inj hjournal).symm⟩
  split_ifs at h with howned
  · cases hcontract : contractDossiers backup db'.dossiers with
    | error e =>
      rw [hcontract] at h
      cases h
    | ok dossiers =>
      rw [hcontract] at h
      cases h
      exact ⟨⟨events, rfl⟩, htasks, hattempts⟩
  · cases h

@[simp] theorem backfillJob_toLegacyJob (events : List EventRow) (job : LegacyJob) :
    (backfillJob events job).toLegacyJob = job := by
  unfold backfillJob
  split_ifs <;> rfl

/-- A migrated job has been published, or has not been accepted. -/
theorem backfillJob_phase (events : List EventRow) (job : LegacyJob) :
    (backfillJob events job).acceptancePhase =
      if job.state = .completed then .published else .none := by
  unfold backfillJob
  split_ifs <;> rfl

end Frame

/-! ## Which snapshots are valid -/

section Snapshots

variable {db : MigratedDatabase} {job : StoredJob}

theorem MigratedDatabase.mem_tasks_snapshot {state : TaskState} :
    state ∈ (db.snapshot job).tasks ↔ ∃ t ∈ db.tasks, t.jobId = job.id ∧ t.state = state := by
  simp only [snapshot, tasksOf, List.mem_map, List.mem_mergeSort, List.mem_filter, beq_iff_eq,
    and_assoc]

theorem MigratedDatabase.mem_runningOwners_snapshot {state : TaskState} :
    state ∈ (db.snapshot job).runningOwners ↔ ∃ a ∈ db.attempts, a.jobId = job.id ∧
      a.state = .running ∧ ∃ t ∈ db.tasks, t.jobId = a.jobId ∧ t.id = a.taskId ∧
        t.state = state := by
  simp only [snapshot, runningOwners, List.mem_flatMap, List.mem_mergeSort, List.mem_filter,
    List.mem_map, Bool.and_eq_true, beq_iff_eq, and_assoc]

/-- Of a job that has been published exactly if it is completed, the validator asks what makes
it settled. -/
theorem MigratedDatabase.snapshot_valid_iff
    (hphase : job.acceptancePhase = if job.state = .completed then .published else .none) :
    validateJobSnapshot (db.snapshot job) = .ok () ↔
      job.toLegacyJob.Settled db.tasks db.attempts := by
  have hvalid : validateJobSnapshot (db.snapshot job) = .ok () ↔
      JobSnapshot.Valid job.state (db.snapshot job).tasks (db.snapshot job).runningOwners
        (job.stopRequested != 0) job.acceptancePhase := validateJobSnapshot_eq_ok
  rw [hvalid]
  constructor
  -- a valid snapshot gives each condition of `Settled`
  · intro h
    refine ⟨fun hstate => ⟨by simpa using h.completed_stop hstate, fun t ht hjob => ?_⟩,
      fun hstate t ht hjob => ?_, fun hstate => by simpa using h.stopped_stop hstate, ?_⟩
    · exact h.completed_tasks hstate _ (mem_tasks_snapshot.mpr ⟨t, ht, hjob, rfl⟩)
    · exact h.settled_tasks hstate _ (mem_tasks_snapshot.mpr ⟨t, ht, hjob, rfl⟩)
    · -- by its foreign key, a running attempt has an owner among the tasks
      intro a ha hjob hrun
      obtain ⟨-, owner, howner, hid, hownerJob⟩ := db.attemptTask a ha
      have hne : (db.snapshot job).runningOwners ≠ [] := List.ne_nil_of_mem
        (mem_runningOwners_snapshot.mpr ⟨a, ha, hjob, hrun, owner, howner, hownerJob, hid, rfl⟩)
      refine ⟨h.running_state hne, fun t ht htask htjob => ?_⟩
      exact h.running_inflight _ (mem_runningOwners_snapshot.mpr
        ⟨a, ha, hjob, hrun, t, ht, htjob.trans hjob.symm, htask, rfl⟩)
  -- and each condition of `Settled` one of the snapshot
  · intro h
    have htasks (hcompleted : job.state = .completed) (item : TaskState)
        (hitem : item ∈ (db.snapshot job).tasks) : item = .completed := by
      obtain ⟨t, ht, hjob, rfl⟩ := mem_tasks_snapshot.mp hitem
      exact (h.completed hcompleted).2 t ht hjob
    -- a running attempt in the snapshot is one in the table
    have hrunning (hne : (db.snapshot job).runningOwners ≠ []) :
        job.state ∈ [JobState.running, .stopping] := by
      obtain ⟨state, hstate⟩ := List.exists_mem_of_ne_nil _ hne
      obtain ⟨a, ha, hjob, hrun, -⟩ := mem_runningOwners_snapshot.mp hstate
      exact (h.running a ha hjob hrun).1
    -- a migrated job has begun acceptance only where it is completed
    have hbegun (hne : job.acceptancePhase ≠ .none) : job.state = .completed := by
      by_contra hstate
      rw [hphase, if_neg hstate] at hne
      exact hne rfl
    exact
      { completed_tasks  := htasks
        settled_tasks    := fun hstate item hitem => by
          obtain ⟨t, ht, hjob, rfl⟩ := mem_tasks_snapshot.mp hitem
          exact h.ended hstate t ht hjob
        stopped_stop     := fun hstate => by simpa using h.stopped hstate
        completed_stop   := fun hstate => by simpa using (h.completed hstate).1
        running_state    := hrunning
        running_inflight := fun owner howner => by
          obtain ⟨a, ha, hjob, hrun, t, ht, htjob, htask, rfl⟩ :=
            mem_runningOwners_snapshot.mp howner
          exact (h.running a ha hjob hrun).2 t ht htask (htjob.trans hjob)
        accepted_tasks   := fun hne => htasks (hbegun hne)
        -- a completed job is not in a running state
        accepted_running := fun hne => by
          by_contra howners
          have hstate := hrunning howners
          rw [hbegun hne] at hstate
          exact absurd hstate (by decide)
        accepted_state   := fun hmem => by
          rw [hphase] at hmem
          split_ifs at hmem <;> exact absurd hmem (by decide)
        -- `hphase` sets the phase with the state
        published_iff    := by
          rw [hphase]
          split_ifs with hstate
          · exact ⟨fun _ => hstate, fun _ => rfl⟩
          · exact ⟨nofun, fun h => absurd h hstate⟩ }

end Snapshots

/-- Opening a database of an earlier version gives one whose jobs the reference model accepts
exactly where their tasks and running attempts agreed with their states before. -/
theorem migrated_snapshots_valid_iff (backup : Str) (db : LegacyDatabase)
    (migrated : MigratedDatabase) (h : initDatabase backup db = .ok migrated) :
    (∀ job ∈ migrated.jobs, validateJobSnapshot (migrated.snapshot job) = .ok ()) ↔ db.Settled := by
  obtain ⟨⟨events, hjobs⟩, htasks, hattempts⟩ := initDatabase_rows h
  rw [hjobs, List.forall_mem_map]
  unfold LegacyDatabase.Settled
  rw [← htasks, ← hattempts]
  refine forall₂_congr fun job _ => ?_
  rw [MigratedDatabase.snapshot_valid_iff (by simp [backfillJob_phase]), backfillJob_toLegacyJob]

/-- A database of version 3 with one job and its one task. -/
def oneTaskDatabase (jobState : JobState) (taskState : TaskState) : LegacyDatabase where
  version  := .v3
  jobs     := [
    { id := Text.lit "job", repo := Text.lit "/repo", goal := Text.lit "goal", state := jobState
      baseBranch := Text.lit "main", baseCommit := Text.lit "base"
      integrationBranch := Text.lit "yolo/job", createdAt := 0, updatedAt := 0 }]
  tasks    := some [
    { id := Text.lit "task", jobId := Text.lit "job", seq := 1, logicalId := Text.lit "t1"
      title := Text.lit "title", description := Text.lit "description", state := taskState
      createdAt := 0, updatedAt := 0 }]
  events   := some []
  dossiers := .published []

/-- A completed job with a pending task is published as it is. -/
theorem migrated_completed_pending :
    ∃ migrated, initDatabase [] (oneTaskDatabase .completed .pending) = .ok migrated ∧
      ∃ job ∈ migrated.jobs, validateJobSnapshot (migrated.snapshot job) ≠ .ok () := by
  refine ⟨_, rfl, _, List.mem_cons_self, ?_⟩
  rw [Ne, MigratedDatabase.snapshot_valid_iff rfl]
  intro h
  have hpending := (h.completed rfl).2 _ List.mem_cons_self rfl
  cases hpending

/-- A queued job with a pending task. -/
theorem migrated_queued_pending :
    ∃ migrated, initDatabase [] (oneTaskDatabase .queued .pending) = .ok migrated ∧
      ∀ job ∈ migrated.jobs, validateJobSnapshot (migrated.snapshot job) = .ok () := by
  refine ⟨_, rfl, (migrated_snapshots_valid_iff [] (oneTaskDatabase .queued .pending) _ rfl).mpr ?_⟩
  intro job hjob
  rw [List.mem_singleton.mp hjob]
  refine ⟨nofun, fun _ t ht _ => ?_, nofun, fun a ha => absurd ha List.not_mem_nil⟩
  rw [List.mem_singleton.mp ht]
  rfl

end OmarchyYolo
