import OmarchyYolo.Lib.Ddl
import OmarchyYolo.Lib.PyStr

/-!
# OmarchyYolo.SchemaMigrations — the statements of the migrations

`_migrate` brings a database of an earlier version to the current one in one
transaction, statement by statement. The rows may have any values here; what
becomes of rows that are in order is in `OmarchyYolo.Migration`.

* `migrations` — the statements from each version; `migrate` — the transaction;
* `OfVersion` — a database whose tables are those of a version;
* `Migrated` — what becomes of it; `migrate_exact`: that, or nothing.
-/

namespace OmarchyYolo

open Py Ddl

/-! ## Names and values -/

inductive TableName where
  | jobs
  | tasks
  | attempts
  | attemptsV3
  | events
  | dossiers
  | other (name : Str)
deriving DecidableEq

inductive ColumnName where
  | id
  | repo
  | goal
  | state
  | baseBranch
  | baseCommit
  | integrationBranch
  | integrationPath
  | autoApply
  | stopRequested
  | finalSummary
  | error
  | createdAt
  | updatedAt
  | acceptedCommit
  | acceptancePhase
  | sourceApplyIntent
  | sourceApplyOutcome
  | sourceApplyReason
  | jobId
  | seq
  | logicalId
  | title
  | description
  | dependencies
  | acceptance
  | preferredAgent
  | attempts
  | branch
  | worktree
  | lastError
  | resultSummary
  | taskId
  | number
  | agent
  | logPath
  | startedAt
  | finishedAt
  | returncode
  | summary
  | kind
  | payload
  | schemaVersion
  | sha256
  | content
  | published
  | other (name : Str)
deriving DecidableEq

inductive IndexName where
  | idxTasksJobIdId
  | idxAttemptsJobTask
  | other (name : Str)
deriving DecidableEq

/-- A value that is not NULL; a real number by its bits. -/
inductive SqlValue where
  | integer (n : Int)
  | real (bits : UInt64)
  | text (s : Str)
  | blob (bytes : List UInt8)
deriving DecidableEq

abbrev SqlRow := Row ColumnName SqlValue
abbrev SqlTable := Table TableName ColumnName SqlValue
abbrev SqlDatabase := Database TableName ColumnName IndexName SqlValue
abbrev SqlStatement := Statement TableName ColumnName IndexName SqlValue

/-! ## Tables -/

/-- A column `NOT NULL`, perhaps with a default. -/
def required (name : ColumnName) (default : Option SqlValue := none) :
    Column ColumnName SqlValue :=
  { name := name, notNull := true, default := default }

def optional (name : ColumnName) : Column ColumnName SqlValue := { name := name }

def textValue (s : String) : Option SqlValue := some (.text (lit s))

/-- `REFERENCES parent(id) ON DELETE CASCADE`. -/
def references (column : ColumnName) (parent : TableName) : ForeignKey TableName ColumnName :=
  ⟨[column], parent, [.id]⟩

/-- `dossiers`, without its last column. -/
def dossiersTable : SqlTable where
  columns := [optional .jobId, required .schemaVersion, required .sha256, required .content,
    required .createdAt]
  unique := [[.jobId]]
  foreignKeys := [references .jobId .jobs]

def tasksTable : SqlTable where
  columns := [optional .id, required .jobId, required .seq, required .logicalId, required .title,
    required .description, required .state, required .dependencies (textValue "[]"),
    required .acceptance (textValue "[]"), optional .preferredAgent,
    required .attempts (some (.integer 0)), required .branch (textValue ""),
    required .worktree (textValue ""), required .baseCommit (textValue ""),
    required .lastError (textValue ""), required .resultSummary (textValue ""),
    required .createdAt, required .updatedAt]
  unique := [[.id], [.jobId, .logicalId]]
  foreignKeys := [references .jobId .jobs]

def attemptColumns : List (Column ColumnName SqlValue) :=
  [optional .id, required .jobId, required .taskId, required .number, required .agent,
    required .state, required .worktree, required .branch, required .logPath, required .startedAt,
    optional .finishedAt, optional .returncode, required .summary (textValue "")]

def attemptsTable : SqlTable where
  columns := attemptColumns
  unique := [[.id], [.taskId, .number]]
  foreignKeys := [references .jobId .jobs, references .taskId .tasks]

/-- `attempts_v3`: an attempt belongs to its task in its job. -/
def attemptsV3Table : SqlTable where
  columns := attemptColumns
  unique := [[.id], [.taskId, .number]]
  foreignKeys := [references .jobId .jobs, ⟨[.jobId, .taskId], .tasks, [.jobId, .id]⟩]

def eventsTable : SqlTable where
  columns := [required .id, required .jobId, optional .taskId, required .kind,
    required .payload (textValue "\x7b\x7d"), required .createdAt]
  unique := [[.id]]
  foreignKeys := [references .jobId .jobs]

/-! ## The migrations -/

/-- `CHECK(column IN (...))` -/
def oneOf (values : List SqlValue) (value : SqlValue) : Bool := decide (value ∈ values)

/-- `state = 'completed'` -/
def isCompleted (job : SqlRow) : Bool := decide (job .state = textValue "completed")

/-- `EXISTS(SELECT 1 FROM events WHERE events.job_id = jobs.id AND events.kind = ...)` -/
def hasEvent (events : List SqlRow) (job : SqlRow) (kind : String) : Bool :=
  events.any fun event =>
    decide (event .jobId ≠ none ∧ event .jobId = job .id ∧ event .kind = textValue kind)

/-- The intent of a job that had been completed. -/
def backfilledIntent (job : SqlRow) : Option SqlValue :=
  if job .autoApply = some (.integer 1) then textValue "requested" else textValue "not-requested"

/-- The outcome of a job that had been completed. -/
def backfilledOutcome (events : List SqlRow) (job : SqlRow) : Option SqlValue :=
  if hasEvent events job "job.applied" then textValue "applied"
  else if hasEvent events job "job.apply_skipped" then textValue "skipped"
  else if job .autoApply = some (.integer 0) then textValue "not-requested"
  else textValue ""

/-- From version 1: a table of dossiers. -/
def migration1 : List SqlStatement := [.createTable .dossiers dossiersTable true]

/-- From version 2: the tables, and whether a dossier is published. -/
def migration2Tables : List SqlStatement :=
  [.createTable .tasks tasksTable true,
    .createTable .attempts attemptsTable true,
    .createTable .events eventsTable true,
    .createIndex ⟨.idxTasksJobIdId, .tasks, [.jobId, .id], true⟩,
    .addColumn .dossiers
      { name := .published, notNull := true, default := some (.integer 0)
        check := oneOf [.integer 0, .integer 1] },
    .update .dossiers [.jobs] [.published] (fun _ _ _ => some (.integer 1)) fun db dossier =>
      (db.rows .jobs).any fun job => decide (job .id ≠ none ∧ dossier .jobId = job .id ∧
        isCompleted job ∧ job .stopRequested = some (.integer 0))]

/-- Attempts under the foreign key of their owner. -/
def migration2Rebuild : List SqlStatement :=
  [.createTable .attemptsV3 attemptsV3Table false,
    .insertSelect .attemptsV3 (attemptColumns.map Column.name) .attempts,
    .dropTable .attempts,
    .renameTable .attemptsV3 .attempts]

def migration2 : List SqlStatement :=
  migration2Tables ++ migration2Rebuild ++
    [.createIndex ⟨.idxAttemptsJobTask, .attempts, [.jobId, .taskId, .number], false⟩]

/-- From version 3: the columns of the acceptance journal. -/
def migration3Columns : List SqlStatement :=
  [.addColumn .jobs (required .acceptedCommit (textValue "")),
    .addColumn .jobs
      { name := .acceptancePhase, notNull := true, default := textValue "none"
        check := oneOf [.text (lit "none"), .text (lit "accepted"), .text (lit "applying"),
          .text (lit "published")] },
    .addColumn .jobs
      { name := .sourceApplyIntent, notNull := true, default := textValue "not-requested"
        check := oneOf [.text (lit "requested"), .text (lit "not-requested")] },
    .addColumn .jobs
      { name := .sourceApplyOutcome, notNull := true, default := textValue ""
        check := oneOf [.text (lit ""), .text (lit "applied"), .text (lit "skipped"),
          .text (lit "not-requested")] },
    .addColumn .jobs (required .sourceApplyReason (textValue ""))]

/-- The journal of the jobs that had been completed. -/
def migration3Backfill : SqlStatement :=
  .update .jobs [.events] [.acceptancePhase, .sourceApplyIntent, .sourceApplyOutcome]
    (fun db job column =>
      match column with
      | .acceptancePhase => textValue "published"
      | .sourceApplyIntent => backfilledIntent job
      | .sourceApplyOutcome => backfilledOutcome (db.rows .events) job
      | _ => none)
    fun _ job => isCompleted job

def migration3 : List SqlStatement := migration3Columns ++ [migration3Backfill]

/-- `_MIGRATIONS` -/
def migrations : Nat → Option (List SqlStatement)
  | 1 => some migration1
  | 2 => some migration2
  | 3 => some migration3
  | _ => none

def currentSchemaVersion : Nat := 4

/-- What `_migrate` raises. -/
inductive MigrateError where
  | sqlite (failure : Failure)
  /-- No migration path from a version to the next. -/
  | noPath (current : Nat)

/-- The loop of `_migrate`, with so many steps to go, and the commit. -/
def migrateLoop (unavailable : Nat → Bool) :
    Nat → Nat → Nat → SqlDatabase → Except MigrateError SqlDatabase
  | 0, _, executed, db =>
    if unavailable executed then .error (.sqlite .unavailable) else .ok db
  | steps + 1, current, executed, db =>
    match migrations current with
    | none => .error (.noPath current)
    | some statements =>
      match runStatements unavailable executed (statements ++ [.setVersion (current + 1)]) db with
      | .error failure => .error (.sqlite failure)
      | .ok db => migrateLoop unavailable steps (current + 1)
          (executed + statements.length + 1) db

/-- `_migrate`; the database may be unavailable to any of its statements. -/
def migrateSchema (unavailable : Nat → Bool) (version : Nat) :
    Txn.Db MigrateError SqlDatabase Unit :=
  Txn.transaction fun db =>
    if unavailable 0 then .error (.sqlite .unavailable)
    else (migrateLoop unavailable (currentSchemaVersion - version) version 1 db).map fun db =>
      ((), db)

/-! ## Databases of a version -/

def historyTables : List TableName := [.jobs, .tasks, .attempts, .events, .dossiers]

def jobColumns : List ColumnName :=
  [.id, .repo, .goal, .state, .baseBranch, .baseCommit, .integrationBranch, .integrationPath,
    .autoApply, .stopRequested, .finalSummary, .error, .createdAt, .updatedAt]

/-- The columns of the tables of a version before the current one. -/
def columnsOf (version : Nat) : TableName → List ColumnName
  | .jobs => jobColumns
  | .tasks => tasksTable.columns.map Column.name
  | .attempts => attemptColumns.map Column.name
  | .events => eventsTable.columns.map Column.name
  | .dossiers =>
    if version < 3 then dossiersTable.columns.map Column.name
    else [.jobId, .schemaVersion, .sha256, .content, .published, .createdAt]
  | _ => []

/-- The tables have the columns of their version, and no table refers to the attempts. Some
tables may be missing. -/
structure OfVersion (version : Nat) (db : SqlDatabase) : Prop where
  columns : ∀ name ∈ historyTables, ∀ table, db.table? name = some table →
    table.columns.map Column.name ⊆ columnsOf version name
  free : db.Unreferenced .attempts

/-- What the journal says of a job, from its row and the events before the migration. -/
structure JournalFilled (events : List SqlRow) (job job' : SqlRow) : Prop where
  phase : job' .acceptancePhase =
    if isCompleted job then textValue "published" else textValue "none"
  intent : isCompleted job = true → job' .sourceApplyIntent = backfilledIntent job
  outcome : isCompleted job = true → job' .sourceApplyOutcome = backfilledOutcome events job

/-- Every row of every table is there, with the values of all the columns that its table had,
and no other row; the jobs are journaled. -/
structure Migrated (db db' : SqlDatabase) : Prop where
  version : db'.version = currentSchemaVersion
  history : ∀ name ∈ historyTables, ∀ table, db.table? name = some table →
    Carries (table.columns.map Column.name) name db db'
  missing : ∀ name ∈ historyTables, db.table? name = none → db'.rows name = []
  others : ∀ name columns, Carries columns (.other name) db db'
  journal : List.Forall₂ (JournalFilled (db.rows .events)) (db.rows .jobs) (db'.rows .jobs)

/-! ## One version -/

/-- The statements of a version have run, and the next version is set. -/
def Steps (unavailable : Nat → Bool) (current : Nat) (db db' : SqlDatabase) : Prop :=
  ∃ executed statements, migrations current = some statements ∧
    runStatements unavailable executed (statements ++ [.setVersion (current + 1)]) db = .ok db'

theorem carries_nil {columns : List ColumnName} {name : TableName} {db db' : SqlDatabase}
    (h : Carries columns name db db') (hnone : db.table? name = none) : db'.rows name = [] := by
  have hrows := h.rows
  rw [Database.rows_of_none hnone] at hrows
  cases hforall : db'.rows name with
  | nil => rfl
  | cons row rows =>
    rw [hforall] at hrows
    cases hrows

instance (columns : List ColumnName) (name : TableName) (statement : SqlStatement) :
    Decidable (statement.Keeps columns name) := by
  cases statement <;> unfold Statement.Keeps <;> infer_instance

/-- The columns of a table that the statements before version 3 do not write. -/
structure TableKept (version : Nat) (columns : List ColumnName) (name : TableName) : Prop where
  one : ∀ s ∈ migration1 ++ [.setVersion 2], Statement.Keeps columns name s
  two : version < 3 → ∀ s ∈ migration2Tables, Statement.Keeps columns name s
  copied : name = .attempts → columns ⊆ attemptColumns.map Column.name
  notCopy : name ≠ .attemptsV3

/-- No column that a version has is written on the way from it. -/
theorem kept_columnsOf {version : Nat} (hversion : version ∈ [1, 2, 3]) {name : TableName}
    (hname : name ∈ historyTables) :
    TableKept version (columnsOf version name) name ∧
      ∀ s ∈ migration3 ++ [.setVersion 4],
        Statement.Keeps (columnsOf version name) name s := by
  have hall : ∀ version ∈ [1, 2, 3], ∀ name ∈ historyTables,
      ((∀ s ∈ migration1 ++ [.setVersion 2], Statement.Keeps (columnsOf version name) name s) ∧
        (version < 3 → ∀ s ∈ migration2Tables,
          Statement.Keeps (columnsOf version name) name s) ∧
        (name = .attempts → columnsOf version name ⊆ attemptColumns.map Column.name) ∧
        name ≠ .attemptsV3) ∧
      ∀ s ∈ migration3 ++ [.setVersion 4],
        Statement.Keeps (columnsOf version name) name s := by
    decide
  obtain ⟨⟨one, two, copied, notCopy⟩, three⟩ := hall version hversion name hname
  exact ⟨⟨one, two, copied, notCopy⟩, three⟩

/-- The statements name no other table. -/
theorem kept_other (version : Nat) (columns : List ColumnName) (name : Str) :
    TableKept version columns (.other name) ∧
      ∀ s ∈ migration3 ++ [.setVersion 4], Statement.Keeps columns (.other name) s := by
  refine ⟨⟨?_, fun _ => ?_, nofun, nofun⟩, ?_⟩
  · simp [migration1, Statement.Keeps]
  · simp [migration2Tables, Statement.Keeps]
  · simp [migration3, migration3Columns, migration3Backfill, Statement.Keeps]

section Steps

variable {unavailable : Nat → Bool} {db db' : SqlDatabase} {columns : List ColumnName}
  {name : TableName}

theorem steps_one (hkeep : ∀ s ∈ migration1 ++ [.setVersion 2], Statement.Keeps columns name s)
    (h : Steps unavailable 1 db db') : Carries columns name db db' := by
  obtain ⟨executed, statements, hstatements, hrun⟩ := h
  cases hstatements
  exact runStatements_carries hkeep hrun

/-- The table of dossiers does not refer to the attempts. -/
theorem steps_one_free (hfree : db.Unreferenced .attempts) (h : Steps unavailable 1 db db') :
    db'.Unreferenced .attempts := by
  obtain ⟨executed, statements, hstatements, hrun⟩ := h
  cases hstatements
  refine runStatements_unreferenced ?_ hfree hrun
  intro statement hmem
  rcases List.mem_cons.mp hmem with rfl | hmem
  · intro foreignKey hkey
    rw [List.mem_singleton.mp hkey]
    exact nofun
  · rw [List.mem_singleton.mp hmem]
    trivial

/-- The attempts are copied with all their columns. -/
theorem steps_two (hkeep : ∀ s ∈ migration2Tables, Statement.Keeps columns name s)
    (hcopy : name ≠ .attemptsV3)
    (hattempts : name = .attempts → columns ⊆ attemptColumns.map Column.name)
    (hfree : db.Unreferenced .attempts) (h : Steps unavailable 2 db db') :
    Carries columns name db db' := by
  obtain ⟨executed, statements, hstatements, hrun⟩ := h
  cases hstatements
  rw [migration2, List.append_assoc, List.append_assoc] at hrun
  obtain ⟨db₁, htables, hrun⟩ := runStatements_append hrun
  obtain ⟨db₂, hrebuild, hlast⟩ := runStatements_append hrun
  -- no foreign key of the first part refers to the attempts
  have hfree₁ : db₁.Unreferenced .attempts := by
    refine runStatements_unreferenced ?_ hfree htables
    intro statement hmem
    have hkeys : ∀ table ∈ [tasksTable, attemptsTable, eventsTable],
        ∀ foreignKey ∈ table.foreignKeys, foreignKey.parent ≠ .attempts := by decide
    simp only [migration2Tables, List.mem_cons, List.not_mem_nil, or_false] at hmem
    -- the three tables have keys of their own; the other statements have none
    rcases hmem with rfl | rfl | rfl | rfl | rfl | rfl
    · exact hkeys _ (by simp)
    · exact hkeys _ (by simp)
    · exact hkeys _ (by simp)
    all_goals trivial
  have hkeys : ∀ foreignKey ∈ attemptsV3Table.foreignKeys, foreignKey.parent ≠ .attempts := by
    decide
  -- the index and the version carry every table
  have hindex : ∀ s ∈ [Statement.createIndex ⟨.idxAttemptsJobTask, .attempts,
      [.jobId, .taskId, .number], false⟩] ++ [.setVersion (2 + 1)],
      Statement.Keeps columns name (s : SqlStatement) := by
    intro statement hmem
    rcases List.mem_cons.mp hmem with rfl | hmem
    · trivial
    · rw [List.mem_singleton.mp hmem]
      trivial
  have hfirst := runStatements_carries hkeep htables
  have hsecond : Carries columns name db₁ db₂ :=
    rebuild_carries hfree₁ hkeys (by decide : TableName.attemptsV3 ≠ .attempts) hrebuild hcopy
      hattempts
  exact hfirst.trans (hsecond.trans (runStatements_carries hindex hlast))

theorem steps_three (hkeep : ∀ s ∈ migration3 ++ [.setVersion 4], Statement.Keeps columns name s)
    (h : Steps unavailable 3 db db') : Carries columns name db db' := by
  obtain ⟨executed, statements, hstatements, hrun⟩ := h
  cases hstatements
  exact runStatements_carries hkeep hrun

end Steps

/-! ## The journal -/

theorem hasEvent_congr {events events' : List SqlRow} {job job' : SqlRow}
    (hevents : Agree [.jobId, .kind] events events') (hid : job' .id = job .id) (kind : String) :
    hasEvent events' job' kind = hasEvent events job kind := by
  unfold hasEvent
  induction hevents with
  | nil => rfl
  | @cons event event' _ _ hevent _ ih =>
    have hjob : event' .jobId = event .jobId := hevent _ (by decide)
    have hkind : event' .kind = event .kind := hevent _ (by decide)
    rw [List.any_cons, List.any_cons, ih, hjob, hkind, hid]

theorem Agree.forall {rows rows' : List SqlRow} {column : ColumnName} {value : Option SqlValue}
    (h : Agree [column] rows rows') (hall : ∀ row ∈ rows, row column = value) :
    ∀ row ∈ rows', row column = value := by
  induction h with
  | nil => exact hall
  | @cons row row' _ _ hrow _ ih =>
    intro other hother
    rcases List.mem_cons.mp hother with rfl | hother
    · rw [hrow column (List.mem_singleton_self _), hall row List.mem_cons_self]
    · exact ih (fun row hrow => hall row (List.mem_cons_of_mem _ hrow)) other hother

/-- What the update makes of a job. -/
def backfillRow (db : SqlDatabase) (job : SqlRow) : SqlRow :=
  if isCompleted job then
    job.assign [.acceptancePhase, .sourceApplyIntent, .sourceApplyOutcome] fun column =>
      match column with
      | .acceptancePhase => textValue "published"
      | .sourceApplyIntent => backfilledIntent job
      | .sourceApplyOutcome => backfilledOutcome (db.rows .events) job
      | _ => none
  else job

/-- The journal of a job that has its values and the default phase. -/
theorem journaled_row {db : SqlDatabase} {events : List SqlRow} {job job₁ : SqlRow}
    (hevents : Agree [.jobId, .kind] events (db.rows .events))
    (hjob : ∀ c ∈ [ColumnName.id, .state, .autoApply], job₁ c = job c)
    (hphase : job₁ .acceptancePhase = textValue "none") :
    JournalFilled events job (backfillRow db job₁) := by
  have hid : job₁ .id = job .id := hjob _ (by decide)
  have happly : job₁ .autoApply = job .autoApply := hjob _ (by decide)
  have hstate : isCompleted job₁ = isCompleted job := by
    rw [isCompleted, isCompleted, hjob .state (by decide)]
  have hintent : backfilledIntent job₁ = backfilledIntent job := by
    rw [backfilledIntent, backfilledIntent, happly]
  have houtcome : backfilledOutcome (db.rows .events) job₁ = backfilledOutcome events job := by
    rw [backfilledOutcome, backfilledOutcome, hasEvent_congr hevents hid,
      hasEvent_congr hevents hid, happly]
  rw [backfillRow, hstate, hintent, houtcome]
  split_ifs with hcompleted
  · refine ⟨?_, fun _ => ?_, fun _ => ?_⟩
    · rw [if_pos hcompleted]
      rfl
    · rfl
    · rfl
  · refine ⟨?_, fun h => absurd h hcompleted, fun h => absurd h hcompleted⟩
    rw [if_neg hcompleted, hphase]

theorem journaled_rows {db : SqlDatabase} {events jobs jobs₁ : List SqlRow}
    (hevents : Agree [.jobId, .kind] events (db.rows .events))
    (hjobs : Agree [.id, .state, .autoApply] jobs jobs₁)
    (hphase : ∀ row ∈ jobs₁, row .acceptancePhase = textValue "none") :
    List.Forall₂ (JournalFilled events) jobs (jobs₁.map (backfillRow db)) := by
  induction hjobs with
  | nil => exact .nil
  | @cons job job₁ _ _ hjob _ ih =>
    refine .cons (journaled_row hevents hjob (hphase job₁ List.mem_cons_self)) ?_
    exact ih fun row hrow => hphase row (List.mem_cons_of_mem _ hrow)

section Journal

variable {unavailable : Nat → Bool} {db₀ db db' : SqlDatabase}

theorem steps_three_journal (hevents : Carries [.jobId, .kind] .events db₀ db)
    (hjobs : Carries [.id, .state, .autoApply] .jobs db₀ db) (h : Steps unavailable 3 db db') :
    List.Forall₂ (JournalFilled (db₀.rows .events)) (db₀.rows .jobs) (db'.rows .jobs) := by
  obtain ⟨executed, statements, hstatements, hrun⟩ := h
  cases hstatements
  rw [migration3, List.append_assoc] at hrun
  obtain ⟨db₁, hcolumns, hrun⟩ := runStatements_append hrun
  obtain ⟨db₂, hupdate, hrun⟩ := runStatements_cons hrun
  obtain ⟨db₃, hversion, hrun⟩ := runStatements_cons hrun
  cases hrun
  cases hversion
  have hevents₁ : Carries [.jobId, .kind] .events db db₁ :=
    runStatements_carries (by decide) hcolumns
  have hjobs₁ : Carries [.id, .state, .autoApply] .jobs db db₁ :=
    runStatements_carries (by decide) hcolumns
  -- the phase is added second, and no later column is the phase
  have hphase : ∀ row ∈ db₁.rows .jobs, row .acceptancePhase = textValue "none" := by
    obtain ⟨dbA, -, hcolumns⟩ := runStatements_cons hcolumns
    obtain ⟨dbB, hadd, hcolumns⟩ := runStatements_cons hcolumns
    have hrest : Carries [.acceptancePhase] .jobs dbB db₁ :=
      runStatements_carries (by decide) hcolumns
    exact Agree.forall hrest.rows (default_of_addColumn hadd)
  have hrows : db₂.rows .jobs = (db₁.rows .jobs).map (backfillRow db₁) := rows_of_update hupdate
  change List.Forall₂ _ _ (db₂.rows .jobs)
  rw [hrows]
  exact journaled_rows (hevents.rows.trans hevents₁.rows) (hjobs.rows.trans hjobs₁.rows) hphase

end Journal

/-! ## The whole migration -/

section Migrate

variable {unavailable : Nat → Bool} {version : Nat} {db db₂ db₃ db' : SqlDatabase}

theorem migrateLoop_cons {steps current executed : Nat}
    (h : migrateLoop unavailable (steps + 1) current executed db = .ok db') :
    ∃ next, Steps unavailable current db next ∧
      ∃ executed, migrateLoop unavailable steps (current + 1) executed next = .ok db' := by
  rw [migrateLoop] at h
  cases hstatements : migrations current with
  | none =>
    rw [hstatements] at h
    cases h
  | some statements =>
    rw [hstatements] at h
    simp only at h
    split at h
    · cases h
    · rename_i next hrun
      exact ⟨next, ⟨executed, statements, hstatements, hrun⟩, _, h⟩

theorem migrateLoop_zero {current executed : Nat}
    (h : migrateLoop unavailable 0 current executed db = .ok db') : db' = db := by
  rw [migrateLoop] at h
  split_ifs at h
  cases h
  rfl

/-- The versions that a database goes through: `db₂` is of version 2, or of the version that
it had if that is later, and `db₃` is of version 3. -/
structure Path (unavailable : Nat → Bool) (version : Nat) (db db₂ db₃ db' : SqlDatabase) :
    Prop where
  one : if version = 1 then Steps unavailable 1 db db₂ else db₂ = db
  two : if version < 3 then Steps unavailable 2 db₂ db₃ else db₃ = db₂
  three : Steps unavailable 3 db₃ db'

theorem exists_path (hversion : version ∈ [1, 2, 3]) {executed : Nat}
    (h : migrateLoop unavailable (currentSchemaVersion - version) version executed db = .ok db') :
    ∃ db₂ db₃, Path unavailable version db db₂ db₃ db' := by
  simp only [List.mem_cons, List.not_mem_nil, or_false] at hversion
  rcases hversion with rfl | rfl | rfl
  · obtain ⟨db₂, hone, executed, h⟩ := migrateLoop_cons h
    obtain ⟨db₃, htwo, executed, h⟩ := migrateLoop_cons h
    obtain ⟨db₄, hthree, executed, h⟩ := migrateLoop_cons h
    cases migrateLoop_zero h
    exact ⟨db₂, db₃, hone, htwo, hthree⟩
  · obtain ⟨db₃, htwo, executed, h⟩ := migrateLoop_cons h
    obtain ⟨db₄, hthree, executed, h⟩ := migrateLoop_cons h
    cases migrateLoop_zero h
    exact ⟨db, db₃, rfl, htwo, hthree⟩
  · obtain ⟨db₄, hthree, executed, h⟩ := migrateLoop_cons h
    cases migrateLoop_zero h
    exact ⟨db, db, rfl, rfl, hthree⟩

/-- What the statements before version 3 keep. -/
theorem Path.carries {columns : List ColumnName} {name : TableName}
    (h : Path unavailable version db db₂ db₃ db') (hfree : db.Unreferenced .attempts)
    (hkept : TableKept version columns name) : Carries columns name db db₃ := by
  have hone : Carries columns name db db₂ ∧ db₂.Unreferenced .attempts := by
    have hpath := h.one
    split_ifs at hpath
    · exact ⟨steps_one hkept.one hpath, steps_one_free hfree hpath⟩
    · rw [hpath]
      exact ⟨.refl columns name db, hfree⟩
  have htwo : Carries columns name db₂ db₃ := by
    have hpath := h.two
    split_ifs at hpath with hlt
    · exact steps_two (hkept.two hlt) hkept.notCopy hkept.copied hone.2 hpath
    · rw [hpath]
      exact .refl columns name db₂
  exact hone.1.trans htwo

theorem steps_three_version (h : Steps unavailable 3 db db') :
    db'.version = currentSchemaVersion := by
  obtain ⟨executed, statements, -, hrun⟩ := h
  obtain ⟨db₁, -, hrun⟩ := runStatements_append hrun
  obtain ⟨db₂, hversion, hrun⟩ := runStatements_cons hrun
  cases hrun
  cases hversion
  rfl

/-- The migration of a database either raises and leaves it as it was, or commits the current
version with every row that there was. -/
theorem migrate_exact (unavailable : Nat → Bool) (version : Nat)
    (hversion : version ∈ [1, 2, 3]) (db : SqlDatabase) (hdb : OfVersion version db) :
    (∃ e, migrateSchema unavailable version db = .error e db) ∨
      ∃ db', migrateSchema unavailable version db = .ok () db' ∧ Migrated db db' := by
  unfold migrateSchema Txn.transaction
  simp only
  -- `BEGIN` fails, and nothing has been done
  split_ifs with hbegin
  · exact .inl ⟨_, rfl⟩
  -- a statement fails, and the transaction rolls back; or all are done
  cases hloop : migrateLoop unavailable (currentSchemaVersion - version) version 1 db with
  | error e => exact .inl ⟨e, rfl⟩
  | ok db' =>
    refine .inr ⟨db', rfl, ?_⟩
    obtain ⟨db₂, db₃, hpath⟩ := exists_path hversion hloop
    have hhistory : ∀ name ∈ historyTables, Carries (columnsOf version name) name db db' := by
      intro name hname
      obtain ⟨hkept, hthree⟩ := kept_columnsOf hversion hname
      exact (hpath.carries hdb.free hkept).trans (steps_three hthree hpath.three)
    -- the parts of `Migrated`: the version, the history, the other tables and the journal
    refine ⟨steps_three_version hpath.three, ?_, ?_, ?_, ?_⟩
    · intro name hname table htable
      have hcarries := hhistory name hname
      refine ⟨hcarries.table, hcarries.rows.imp fun row row' h c hc => ?_⟩
      exact h c (hdb.columns name hname table htable hc)
    · exact fun name hname hnone => carries_nil (hhistory name hname) hnone
    · intro name columns
      obtain ⟨hkept, hthree⟩ := kept_other version columns name
      exact (hpath.carries hdb.free hkept).trans (steps_three hthree hpath.three)
    · refine steps_three_journal ?_ ?_ hpath.three
      · exact hpath.carries hdb.free ⟨by decide, fun _ => by decide, by decide, by decide⟩
      · exact hpath.carries hdb.free ⟨by decide, fun _ => by decide, by decide, by decide⟩

end Migrate

/-- A database of version 2 with a job that was completed, an attempt of its task and the
event that its branch was applied. -/
def completedJobDatabase : SqlDatabase where
  version := 2
  tables := [
    (.jobs, {
      columns := jobColumns.map optional
      unique := [[.id]]
      rows := [fun column => match column with
        | .id => textValue "job"
        | .state => textValue "completed"
        | .autoApply => some (.integer 1)
        | .stopRequested => some (.integer 0)
        | _ => textValue "text"] }),
    (.tasks, { tasksTable with
      rows := [fun column => match column with
        | .id => textValue "task"
        | .jobId => textValue "job"
        | _ => textValue "text"] }),
    (.attempts, { attemptsTable with
      rows := [fun column => match column with
        | .jobId => textValue "job"
        | .taskId => textValue "task"
        | _ => textValue "text"] }),
    (.events, { eventsTable with
      rows := [fun column => match column with
        | .jobId => textValue "job"
        | .kind => textValue "job.applied"
        | _ => textValue "text"] }),
    (.dossiers, dossiersTable)]

theorem completedJobDatabase_ofVersion : OfVersion 2 completedJobDatabase := by
  constructor
  · have hall : ∀ name ∈ historyTables, ∀ table ∈ completedJobDatabase.table? name,
        table.columns.map Column.name ⊆ columnsOf 2 name := by decide
    exact hall
  · intro item hitem
    have hall : ∀ foreignKey ∈ completedJobDatabase.tables.flatMap (·.2.foreignKeys),
        foreignKey.parent ≠ .attempts := by decide
    exact fun foreignKey hkey => hall foreignKey (List.mem_flatMap.mpr ⟨item, hitem, hkey⟩)

theorem migrate_completedJob :
    (∃ e, migrateSchema (fun _ => false) 2 completedJobDatabase = .error e completedJobDatabase) ∨
      ∃ db', migrateSchema (fun _ => false) 2 completedJobDatabase = .ok () db' ∧
        Migrated completedJobDatabase db' :=
  migrate_exact (fun _ => false) 2 (by decide) completedJobDatabase completedJobDatabase_ofVersion

/-- The migration commits, and the attempt is there. -/
example : (match migrateSchema (fun _ => false) 2 completedJobDatabase with
    | .ok _ db' => (db'.rows .attempts).map (· .taskId) == [textValue "task"] &&
        (db'.rows .jobs).map (· .sourceApplyOutcome) == [textValue "applied"]
    | .error _ _ => false) = true := by
  decide +kernel

end OmarchyYolo
