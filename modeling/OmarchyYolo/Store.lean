import Mathlib.Data.Prod.Basic
import OmarchyYolo.Lib.Table
import OmarchyYolo.StateMachine

/-!
# OmarchyYolo.Store — the durable store

The five tables of the database, the statements the operations execute on them,
and `_validate_snapshot_locked`.

A `Store` carries the database's own constraints: unique keys (by its tables),
foreign keys, and event numbers that are never reused. The statements are what
can be said to a store; each of them keeps the constraints or raises.
-/

namespace OmarchyYolo

open Py Sql

/-! ## Rows -/

/-- A reading of the clock. -/
abbrev Timestamp := Nat

structure JobRow where
  id : Text
  repo : Text
  goal : Text
  state : JobState
  baseBranch : Text
  baseCommit : Text
  integrationBranch : Text
  integrationPath : Text := Text.lit ""
  autoApply : Bool := false
  stopRequested : Bool := false
  finalSummary : Text := Text.lit ""
  error : Text := Text.lit ""
  createdAt : Timestamp
  updatedAt : Timestamp
  acceptedCommit : Text := Text.lit ""
  acceptancePhase : AcceptancePhase := .none
  sourceApplyIntent : SourceApplyIntent := .notRequested
  sourceApplyOutcome : SourceApplyOutcome := .none
  sourceApplyReason : Text := Text.lit ""
deriving DecidableEq, Repr

/-- `dependencies` and `acceptance` are the lists whose JSON texts are stored. -/
structure TaskRow where
  id : Text
  jobId : Text
  seq : Nat
  logicalId : Text
  title : Text
  description : Text
  state : TaskState
  dependencies : List Text := []
  acceptance : List Text := []
  preferredAgent : Option Text := none
  attempts : Int := 0
  branch : Text := Text.lit ""
  worktree : Text := Text.lit ""
  baseCommit : Text := Text.lit ""
  lastError : Text := Text.lit ""
  resultSummary : Text := Text.lit ""
  createdAt : Timestamp
  updatedAt : Timestamp
deriving DecidableEq, Repr

structure AttemptRow where
  id : Text
  jobId : Text
  taskId : Text
  number : Int
  agent : Text
  state : AttemptState
  worktree : Text
  branch : Text
  logPath : Text
  startedAt : Timestamp
  finishedAt : Option Timestamp := none
  returncode : Option Int := none
  summary : Text := Text.lit ""
deriving DecidableEq, Repr

structure EventRow where
  id : Nat
  jobId : Text
  taskId : Option Text
  kind : Text
  payload : Text
  createdAt : Timestamp
deriving DecidableEq, Repr

structure DossierRow where
  jobId : Text
  schemaVersion : Int
  sha256 : Text
  content : Text
  published : Bool := false
  createdAt : Timestamp
deriving DecidableEq, Repr

instance : Row JobRow where
  Key := Text
  key := JobRow.id
  Clash := Eq
  symm := Eq.symm
  refl _ := rfl
  decidable := inferInstance

/-- `id`, and `UNIQUE(job_id, logical_id)`. -/
instance : Row TaskRow where
  Key := Text × Text × Text
  key t := (t.id, t.jobId, t.logicalId)
  Clash a b := a.1 = b.1 ∨ a.2 = b.2
  symm h := h.imp Eq.symm Eq.symm
  refl _ := Or.inl rfl
  decidable _ _ := inferInstanceAs (Decidable (_ ∨ _))

/-- `id`, and `UNIQUE(task_id, number)`. -/
instance : Row AttemptRow where
  Key := Text × Text × Text × Int
  key a := (a.id, a.jobId, a.taskId, a.number)
  Clash a b := a.1 = b.1 ∨ a.2.2 = b.2.2
  symm h := h.imp Eq.symm Eq.symm
  refl _ := Or.inl rfl
  decidable _ _ := inferInstanceAs (Decidable (_ ∨ _))

instance : Row EventRow where
  Key := Nat × Text
  key e := (e.id, e.jobId)
  Clash a b := a.1 = b.1
  symm := Eq.symm
  refl _ := rfl
  decidable _ _ := inferInstanceAs (Decidable (_ = _))

instance : Row DossierRow where
  Key := Text
  key := DossierRow.jobId
  Clash := Eq
  symm := Eq.symm
  refl _ := rfl
  decidable := inferInstance

/-! ## The store -/

/-- The database, with its foreign keys. -/
@[ext] structure Store where
  jobs : Table JobRow
  tasks : Table TaskRow
  attempts : Table AttemptRow
  events : Table EventRow
  dossiers : Table DossierRow
  taskJob : ∀ t ∈ tasks, ∃ j ∈ jobs, j.id = t.jobId
  attemptTask : ∀ a ∈ attempts, ∃ t ∈ tasks, t.id = a.taskId ∧ t.jobId = a.jobId
  eventJob : ∀ e ∈ events, ∃ j ∈ jobs, j.id = e.jobId
  dossierJob : ∀ d ∈ dossiers, ∃ j ∈ jobs, j.id = d.jobId
  eventIds : ∀ e ∈ events, e.id ≤ events.rows.length

namespace Store

/-- A new database. -/
def empty : Store where
  jobs := Table.empty
  tasks := Table.empty
  attempts := Table.empty
  events := Table.empty
  dossiers := Table.empty
  taskJob _ h := absurd h (Table.not_mem_empty _)
  attemptTask _ h := absurd h (Table.not_mem_empty _)
  eventJob _ h := absurd h (Table.not_mem_empty _)
  dossierJob _ h := absurd h (Table.not_mem_empty _)
  eventIds _ h := absurd h (Table.not_mem_empty _)

/-- The job of an id. -/
def job? (s : Store) (jobId : Text) : Option JobRow := s.jobs.find? fun j => j.id == jobId

/-- The task of an id. -/
def task? (s : Store) (taskId : Text) : Option TaskRow := s.tasks.find? fun t => t.id == taskId

/-- The attempt of an id. -/
def attempt? (s : Store) (attemptId : Text) : Option AttemptRow :=
  s.attempts.find? fun a => a.id == attemptId

/-- The first running attempt of a task. -/
def runningAttempt? (s : Store) (taskId : Text) : Option AttemptRow :=
  s.attempts.find? fun a => a.taskId == taskId && a.state == .running

/-- The staged dossier of a job. -/
def dossier? (s : Store) (jobId : Text) : Option DossierRow :=
  s.dossiers.find? fun d => d.jobId == jobId

/-- The tasks of a job, `ORDER BY seq`. -/
def tasksOf (s : Store) (jobId : Text) : List TaskRow :=
  (s.tasks.select fun t => t.jobId == jobId).mergeSort fun t t' => t.seq ≤ t'.seq

/-- The running attempts of a job, `ORDER BY started_at, id`. -/
def runningAttempts (s : Store) (jobId : Text) : List AttemptRow :=
  (s.attempts.select fun a => a.jobId == jobId && a.state == .running).mergeSort fun a a' =>
    a.startedAt < a'.startedAt || (a.startedAt == a'.startedAt && strLe a.id.val a'.id.val)

/-- The states of the tasks that own a running attempt of a job. -/
def runningOwners (s : Store) (jobId : Text) : List TaskState :=
  (s.runningAttempts jobId).flatMap fun a =>
    (s.tasks.select fun t => t.jobId == a.jobId && t.id == a.taskId).map TaskRow.state

variable {s : Store} {jobId taskId : Text}

theorem mem_of_job? {j : JobRow} (h : s.job? jobId = some j) : j ∈ s.jobs ∧ j.id = jobId :=
  ⟨Table.mem_of_find? h, by simpa using Table.sat_of_find? h⟩

theorem mem_of_task? {t : TaskRow} (h : s.task? taskId = some t) : t ∈ s.tasks ∧ t.id = taskId :=
  ⟨Table.mem_of_find? h, by simpa using Table.sat_of_find? h⟩

theorem mem_of_attempt? {attemptId : Text} {a : AttemptRow} (h : s.attempt? attemptId = some a) :
    a ∈ s.attempts ∧ a.id = attemptId :=
  ⟨Table.mem_of_find? h, by simpa using Table.sat_of_find? h⟩

theorem mem_of_dossier? {d : DossierRow} (h : s.dossier? jobId = some d) :
    d ∈ s.dossiers ∧ d.jobId = jobId :=
  ⟨Table.mem_of_find? h, by simpa using Table.sat_of_find? h⟩

theorem runningAttempt?_isSome :
    (s.runningAttempt? taskId).isSome = true ↔
      ∃ a ∈ s.attempts, a.taskId = taskId ∧ a.state = .running := by
  unfold runningAttempt? Table.find?
  rw [List.find?_isSome]
  simp only [Bool.and_eq_true, beq_iff_eq]
  rfl

theorem job?_eq_some {j : JobRow} (h : j ∈ s.jobs) : s.job? j.id = some j := by
  apply Table.find?_eq_some h
  · exact beq_self_eq_true j.id
  · intro r' hr'
    exact eq_of_beq hr'

@[simp] theorem mem_tasksOf {t : TaskRow} :
    t ∈ s.tasksOf jobId ↔ t ∈ s.tasks ∧ t.jobId = jobId := by
  simp [tasksOf]

@[simp] theorem mem_runningAttempts {a : AttemptRow} :
    a ∈ s.runningAttempts jobId ↔ a ∈ s.attempts ∧ a.jobId = jobId ∧ a.state = .running := by
  simp [runningAttempts]

theorem mem_runningOwners {state : TaskState} :
    state ∈ s.runningOwners jobId ↔ ∃ a ∈ s.attempts, a.jobId = jobId ∧ a.state = .running ∧
      ∃ t ∈ s.tasks, t.id = a.taskId ∧ t.jobId = a.jobId ∧ t.state = state := by
  simp only [runningOwners, List.mem_flatMap, mem_runningAttempts, List.mem_map, Table.mem_select,
    Bool.and_eq_true, beq_iff_eq, and_assoc]
  constructor
  · rintro ⟨a, ha, hjob, hrun, t, ht, htjob, htid, hstate⟩
    exact ⟨a, ha, hjob, hrun, t, ht, htid, htjob, hstate⟩
  · rintro ⟨a, ha, hjob, hrun, t, ht, htid, htjob, hstate⟩
    exact ⟨a, ha, hjob, hrun, t, ht, htjob, htid, hstate⟩

/-- Every running attempt has an owner. -/
theorem runningOwners_eq_nil :
    s.runningOwners jobId = [] ↔ ∀ a ∈ s.attempts, a.jobId = jobId → a.state ≠ .running := by
  rw [List.eq_nil_iff_forall_not_mem]
  constructor
  · intro h a ha hjob hrun
    obtain ⟨t, ht, htid, htjob⟩ := s.attemptTask a ha
    exact h t.state (mem_runningOwners.mpr ⟨a, ha, hjob, hrun, t, ht, htid, htjob, rfl⟩)
  · intro h state hmem
    obtain ⟨a, ha, hjob, hrun, -⟩ := mem_runningOwners.mp hmem
    exact h a ha hjob hrun

/-! ## Writes -/

section Writes

variable (s : Store)

/-- `UPDATE jobs SET f WHERE p`. -/
def updateJobs (p : JobRow → Bool) (f : JobRow → JobRow) (keeps : ∀ j, (f j).id = j.id) :
    Store where
  jobs := s.jobs.update p f keeps
  tasks := s.tasks
  attempts := s.attempts
  events := s.events
  dossiers := s.dossiers
  taskJob t ht := Table.exists_update (s.taskJob t ht) fun j h => by rw [← h]; exact keeps j
  attemptTask := s.attemptTask
  eventJob e he := Table.exists_update (s.eventJob e he) fun j h => by rw [← h]; exact keeps j
  dossierJob d hd := Table.exists_update (s.dossierJob d hd) fun j h => by rw [← h]; exact keeps j
  eventIds := s.eventIds

/-- `UPDATE tasks SET f WHERE p`. -/
def updateTasks (p : TaskRow → Bool) (f : TaskRow → TaskRow)
    (keeps : ∀ t, Row.key (f t) = Row.key t) : Store where
  jobs := s.jobs
  tasks := s.tasks.update p f keeps
  attempts := s.attempts
  events := s.events
  dossiers := s.dossiers
  taskJob t ht := by
    obtain ⟨t', ht', hkey⟩ := Table.exists_of_mem_update ht
    obtain ⟨j, hj, hid⟩ := s.taskJob t' ht'
    exact ⟨j, hj, hid.trans (congrArg (fun k => k.2.1) hkey).symm⟩
  attemptTask a ha := Table.exists_update (s.attemptTask a ha) fun t h => by
    have hkey := keeps t
    have hid : (f t).id = t.id := congrArg Prod.fst hkey
    have hjob : (f t).jobId = t.jobId := congrArg (fun k => k.2.1) hkey
    rwa [hid, hjob]
  eventJob := s.eventJob
  dossierJob := s.dossierJob
  eventIds := s.eventIds

/-- `UPDATE attempts SET f WHERE p`. -/
def updateAttempts (p : AttemptRow → Bool) (f : AttemptRow → AttemptRow)
    (keeps : ∀ a, Row.key (f a) = Row.key a) : Store where
  jobs := s.jobs
  tasks := s.tasks
  attempts := s.attempts.update p f keeps
  events := s.events
  dossiers := s.dossiers
  taskJob := s.taskJob
  attemptTask a ha := by
    obtain ⟨a', ha', hkey⟩ := Table.exists_of_mem_update ha
    obtain ⟨t, ht, hid, hjob⟩ := s.attemptTask a' ha'
    have htask : a.taskId = a'.taskId := congrArg (fun k => k.2.2.1) hkey
    have hown : a.jobId = a'.jobId := congrArg (fun k => k.2.1) hkey
    exact ⟨t, ht, hid.trans htask.symm, hjob.trans hown.symm⟩
  eventJob := s.eventJob
  dossierJob := s.dossierJob
  eventIds := s.eventIds

/-- `UPDATE dossiers SET f WHERE p`. -/
def updateDossiers (p : DossierRow → Bool) (f : DossierRow → DossierRow)
    (keeps : ∀ d, (f d).jobId = d.jobId) : Store where
  jobs := s.jobs
  tasks := s.tasks
  attempts := s.attempts
  events := s.events
  dossiers := s.dossiers.update p f keeps
  taskJob := s.taskJob
  attemptTask := s.attemptTask
  eventJob := s.eventJob
  dossierJob d hd := by
    obtain ⟨d', hd', hkey⟩ := Table.exists_of_mem_update hd
    obtain ⟨j, hj, hid⟩ := s.dossierJob d' hd'
    exact ⟨j, hj, hid.trans hkey.symm⟩
  eventIds := s.eventIds

end Writes

/-- The store with `jobs` in place of its jobs, all of which are among them. -/
def withJobs (s : Store) (jobs : Table JobRow) (h : ∀ j ∈ s.jobs, j ∈ jobs) : Store where
  jobs := jobs
  tasks := s.tasks
  attempts := s.attempts
  events := s.events
  dossiers := s.dossiers
  taskJob t ht := let ⟨j, hj, hid⟩ := s.taskJob t ht; ⟨j, h j hj, hid⟩
  attemptTask := s.attemptTask
  eventJob e he := let ⟨j, hj, hid⟩ := s.eventJob e he; ⟨j, h j hj, hid⟩
  dossierJob d hd := let ⟨j, hj, hid⟩ := s.dossierJob d hd; ⟨j, h j hj, hid⟩
  eventIds := s.eventIds

/-- `INSERT INTO jobs`. -/
def insertJob? (s : Store) (job : JobRow) : Option Store :=
  match h : s.jobs.insert? job with
  | none => none
  | some jobs => some (s.withJobs jobs fun _ hj => (Table.mem_insert? h).mpr (Or.inl hj))

/-- `INSERT INTO tasks`. -/
def insertTask? (s : Store) (task : TaskRow) : Option Store :=
  if hown : ∃ j ∈ s.jobs.rows, j.id = task.jobId then
    match h : s.tasks.insert? task with
    | none => none
    | some tasks => some
        { s with
          tasks := tasks
          taskJob := fun t ht => by
            rcases (Table.mem_insert? h).mp ht with ht | rfl
            · exact s.taskJob t ht
            · exact hown
          attemptTask := fun a ha =>
            let ⟨t, ht, hid⟩ := s.attemptTask a ha
            ⟨t, (Table.mem_insert? h).mpr (Or.inl ht), hid⟩ }
  else none

/-- `INSERT INTO attempts`. -/
def insertAttempt? (s : Store) (attempt : AttemptRow) : Option Store :=
  if hown : ∃ t ∈ s.tasks.rows, t.id = attempt.taskId ∧ t.jobId = attempt.jobId then
    match h : s.attempts.insert? attempt with
    | none => none
    | some attempts => some
        { s with
          attempts := attempts
          attemptTask := fun a ha => by
            rcases (Table.mem_insert? h).mp ha with ha | rfl
            · exact s.attemptTask a ha
            · exact hown }
  else none

/-- The number of the next event. -/
def nextEventId (s : Store) : Nat := s.events.rows.length + 1

/-- `INSERT INTO events`; the number is the database's choice. -/
def insertEvent? (s : Store) (jobId : Text) (taskId : Option Text) (kind payload : Text)
    (createdAt : Timestamp) : Option Store :=
  if hown : ∃ j ∈ s.jobs.rows, j.id = jobId then
    match h : s.events.insert? ⟨s.nextEventId, jobId, taskId, kind, payload, createdAt⟩ with
    | none => none
    | some events => some
        { s with
          events := events
          eventJob := fun e he => by
            rcases (Table.mem_insert? h).mp he with he | rfl
            · exact s.eventJob e he
            · exact hown
          eventIds := fun e he => by
            rw [(Table.insert?_eq_some.mp h).2, List.length_append, List.length_singleton]
            rcases (Table.mem_insert? h).mp he with he | rfl
            · exact Nat.le_succ_of_le (s.eventIds e he)
            · exact Nat.le_refl _ }
  else none

/-- `INSERT INTO dossiers ... ON CONFLICT(job_id) DO UPDATE`. -/
def upsertDossier? (s : Store) (dossier : DossierRow) : Option Store :=
  if hown : ∃ j ∈ s.jobs.rows, j.id = dossier.jobId then
    match h : s.dossiers.insert? dossier with
    | none => some (s.updateDossiers (fun d => d.jobId == dossier.jobId)
        (fun d => { dossier with jobId := d.jobId }) fun _ => rfl)
    | some dossiers => some
        { s with
          dossiers := dossiers
          dossierJob := fun d hd => by
            rcases (Table.mem_insert? h).mp hd with hd | rfl
            · exact s.dossierJob d hd
            · exact hown }
  else none

/-! ## What an insertion does -/

section Inserts

variable {s s' : Store}

theorem insertJob?_eq_some {job : JobRow} (h : s.insertJob? job = some s') :
    ∃ jobs keeps, s.jobs.insert? job = some jobs ∧ s' = s.withJobs jobs keeps := by
  unfold insertJob? at h
  split at h
  · cases h
  · rename_i jobs hjobs
    cases h
    exact ⟨jobs, _, hjobs, rfl⟩

/-- The other tables are as they were. -/
structure OnlyTasks (s s' : Store) : Prop where
  jobs : s'.jobs = s.jobs
  attempts : s'.attempts = s.attempts
  events : s'.events = s.events
  dossiers : s'.dossiers = s.dossiers

structure OnlyAttempts (s s' : Store) : Prop where
  jobs : s'.jobs = s.jobs
  tasks : s'.tasks = s.tasks
  events : s'.events = s.events
  dossiers : s'.dossiers = s.dossiers

structure OnlyEvents (s s' : Store) : Prop where
  jobs : s'.jobs = s.jobs
  tasks : s'.tasks = s.tasks
  attempts : s'.attempts = s.attempts
  dossiers : s'.dossiers = s.dossiers

theorem OnlyEvents.trans {t : Store} (h : OnlyEvents s t) (h' : OnlyEvents t s') :
    OnlyEvents s s' :=
  ⟨h'.jobs.trans h.jobs, h'.tasks.trans h.tasks, h'.attempts.trans h.attempts,
    h'.dossiers.trans h.dossiers⟩

structure OnlyDossiers (s s' : Store) : Prop where
  jobs : s'.jobs = s.jobs
  tasks : s'.tasks = s.tasks
  attempts : s'.attempts = s.attempts
  events : s'.events = s.events

theorem insertTask?_eq_some {task : TaskRow} (h : s.insertTask? task = some s') :
    s.tasks.insert? task = some s'.tasks ∧ OnlyTasks s s' := by
  unfold insertTask? at h
  split_ifs at h with hown
  split at h
  · cases h
  · rename_i tasks htasks
    cases h
    exact ⟨htasks, rfl, rfl, rfl, rfl⟩

theorem insertAttempt?_eq_some {attempt : AttemptRow} (h : s.insertAttempt? attempt = some s') :
    s.attempts.insert? attempt = some s'.attempts ∧ OnlyAttempts s s' := by
  unfold insertAttempt? at h
  split_ifs at h with hown
  split at h
  · cases h
  · rename_i attempts hattempts
    cases h
    exact ⟨hattempts, rfl, rfl, rfl, rfl⟩

theorem insertEvent?_eq_some {jobId : Text} {taskId : Option Text} {kind payload : Text}
    {now : Timestamp} (h : s.insertEvent? jobId taskId kind payload now = some s') :
    s.events.insert? ⟨s.nextEventId, jobId, taskId, kind, payload, now⟩ = some s'.events ∧
      OnlyEvents s s' := by
  unfold insertEvent? at h
  split_ifs at h with hown
  split at h
  · cases h
  · rename_i events hevents
    cases h
    exact ⟨hevents, rfl, rfl, rfl, rfl⟩

/-- An event of a job is never refused: its number is new. -/
theorem exists_insertEvent? {jobId : Text} (hown : ∃ j ∈ s.jobs, j.id = jobId)
    (taskId : Option Text) (kind payload : Text) (now : Timestamp) :
    ∃ s', s.insertEvent? jobId taskId kind payload now = some s' := by
  have hfresh : s.events.insert? ⟨s.nextEventId, jobId, taskId, kind, payload, now⟩ ≠ none := by
    intro hnone
    rw [Table.insert?_eq_none] at hnone
    obtain ⟨e, he, hclash⟩ := hnone
    have hle := s.eventIds e he
    have heq : e.id = s.nextEventId := hclash
    unfold nextEventId at heq
    omega
  unfold insertEvent?
  split_ifs with h
  · split
    · contradiction
    · exact ⟨_, rfl⟩
  · exact absurd hown h

theorem upsertDossier?_eq_some {dossier : DossierRow} (h : s.upsertDossier? dossier = some s') :
    (s.dossiers.insert? dossier = some s'.dossiers ∨
      s'.dossiers = s.dossiers.update (fun d => d.jobId == dossier.jobId)
        (fun d => { dossier with jobId := d.jobId }) (fun _ => rfl)) ∧ OnlyDossiers s s' := by
  unfold upsertDossier? at h
  split_ifs at h with hown
  split at h
  · cases h
    exact ⟨Or.inr rfl, rfl, rfl, rfl, rfl⟩
  · rename_i dossiers hdossiers
    cases h
    exact ⟨Or.inl hdossiers, rfl, rfl, rfl, rfl⟩

end Inserts

end Store
end OmarchyYolo
