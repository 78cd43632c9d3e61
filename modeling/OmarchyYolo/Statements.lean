import OmarchyYolo.Lib.Transaction
import OmarchyYolo.Store

/-!
# OmarchyYolo.Statements — what the operations execute

The statements of the store inside a transaction: parameters are bound first
(a string with a lone surrogate does not bind, an integer beyond 64 bits
neither), an `UPDATE` returns its row count, and `validateSnapshot` is
`_validate_snapshot_locked`.
-/

namespace OmarchyYolo

open Py PyJson Sql Txn

abbrev StoreTx := Tx Exn Store
abbrev StoreDb := Db Exn Store

/-! ## Parameters -/

/-- A string parameter. -/
def bindText (text : Str) : Except Exn Text :=
  if h : isText text = true then .ok ⟨text, h⟩ else .error .unicodeEncodeError

/-- A nullable string parameter. -/
def bindOption : Option Str → Except Exn (Option Text)
  | none => .ok none
  | some text => (bindText text).map some

/-- String parameters. -/
def bindTexts (texts : List Str) : Except Exn (List Text) := texts.mapM bindText

/-- An integer parameter. -/
def bindInt (n : Int) : Except Exn Int :=
  if -2 ^ 63 ≤ n ∧ n < 2 ^ 63 then .ok n else .error .overflowError

@[simp] theorem bindText_eq_ok {text : Str} {t : Text} : bindText text = .ok t ↔ t.val = text := by
  unfold bindText
  split_ifs with h
  · rw [Except.ok.injEq]
    exact ⟨fun heq => by rw [← heq], fun heq => Text.ext heq.symm⟩
  · refine ⟨nofun, fun heq => absurd ?_ h⟩
    rw [← heq]
    exact t.encodes

theorem bindOption_map_val (column : Option Text) :
    bindOption (column.map Text.val) = .ok column := by
  cases column with
  | none => rfl
  | some text =>
    rw [Option.map_some, bindOption, bindText_eq_ok.mpr rfl]
    rfl

theorem bindOption_val {text : Option Str} {column : Option Text}
    (h : bindOption text = .ok column) : column.map Text.val = text := by
  cases text with
  | none =>
    cases h
    rfl
  | some text =>
    simp only [bindOption, Except.map] at h
    split at h
    · cases h
    · rename_i column' hcolumn
      cases h
      rw [Option.map_some, bindText_eq_ok.mp hcolumn]

theorem bindTexts_val {texts : List Str} {ts : List Text} (h : bindTexts texts = .ok ts) :
    ts.map Text.val = texts := by
  induction texts generalizing ts with
  | nil =>
    cases h
    rfl
  | cons text texts ih =>
    rw [bindTexts, List.mapM_cons] at h
    obtain ⟨t, ht, h⟩ := bind_ok_iff.mp h
    obtain ⟨ts', hts, h⟩ := bind_ok_iff.mp h
    cases h
    rw [List.map_cons, bindText_eq_ok.mp ht, ih hts]

theorem bindInt_eq {n m : Int} (h : bindInt n = .ok m) : m = n := by
  unfold bindInt at h
  split_ifs at h with hn
  cases h
  rfl

/-! ## Queries -/

def selectJob (jobId : Text) : StoreTx (Option JobRow) := query fun s => s.job? jobId

def selectTask (taskId : Text) : StoreTx (Option TaskRow) := query fun s => s.task? taskId

def selectAttempt (attemptId : Text) : StoreTx (Option AttemptRow) :=
  query fun s => s.attempt? attemptId

def selectDossier (jobId : Text) : StoreTx (Option DossierRow) := query fun s => s.dossier? jobId

def selectRunningAttempt (taskId : Text) : StoreTx (Option AttemptRow) :=
  query fun s => s.runningAttempt? taskId

/-! ## Updates -/

def updateJobs (p : JobRow → Bool) (f : JobRow → JobRow)
    (keeps : ∀ j, (f j).id = j.id := by exact fun _ => rfl) : StoreTx Nat :=
  write fun s => ((s.jobs.select p).length, s.updateJobs p f keeps)

def updateTasks (p : TaskRow → Bool) (f : TaskRow → TaskRow)
    (keeps : ∀ t, Row.key (f t) = Row.key t := by exact fun _ => rfl) : StoreTx Nat :=
  write fun s => ((s.tasks.select p).length, s.updateTasks p f keeps)

def updateAttempts (p : AttemptRow → Bool) (f : AttemptRow → AttemptRow)
    (keeps : ∀ a, Row.key (f a) = Row.key a := by exact fun _ => rfl) : StoreTx Nat :=
  write fun s => ((s.attempts.select p).length, s.updateAttempts p f keeps)

def updateDossiers (p : DossierRow → Bool) (f : DossierRow → DossierRow)
    (keeps : ∀ d, (f d).jobId = d.jobId := by exact fun _ => rfl) : StoreTx Nat :=
  write fun s => ((s.dossiers.select p).length, s.updateDossiers p f keeps)

theorem Store.mem_updateAttempts {s : Store} {p : AttemptRow → Bool}
    {f : AttemptRow → AttemptRow} {keeps : ∀ a, Row.key (f a) = Row.key a} {a : AttemptRow} :
    a ∈ (s.updateAttempts p f keeps).attempts ↔ ∃ b ∈ s.attempts, a = Table.setWhere p f b :=
  @Table.mem_update _ _ s.attempts p f keeps a

/-! ## Insertions -/

def insertJob (job : JobRow) : StoreTx Unit :=
  writeOrRaise (fun s => s.insertJob? job) .integrityError

def insertTask (task : TaskRow) : StoreTx Unit :=
  writeOrRaise (fun s => s.insertTask? task) .integrityError

def insertAttempt (attempt : AttemptRow) : StoreTx Unit :=
  writeOrRaise (fun s => s.insertAttempt? attempt) .integrityError

def upsertDossier (dossier : DossierRow) : StoreTx Unit :=
  writeOrRaise (fun s => s.upsertDossier? dossier) .integrityError

def insertEvent (jobId : Text) (taskId : Option Text) (kind : Text) (payload : Str)
    (now : Timestamp) : StoreTx Unit := do
  let payload ← lift (bindText payload)
  writeOrRaise (fun s => s.insertEvent? jobId taskId kind payload now) .integrityError

/-- Events of a job, one after another: kinds and payloads. -/
def insertJobEvents (jobId : Text) (now : Timestamp) : List (String × Json NonFinite) → StoreTx Unit
  | [] => pure ()
  | (kind, payload) :: events => do
    insertEvent jobId none (Text.lit kind) (jsonDumps payload) now
    insertJobEvents jobId now events

/-! ## The snapshot -/

/-- `_snapshot_locked`. -/
def Store.snapshot (s : Store) (job : JobRow) : JobSnapshot where
  state := job.state
  tasks := (s.tasksOf job.id).map TaskRow.state
  runningOwners := s.runningOwners job.id
  stopRequested := job.stopRequested
  acceptancePhase := some job.acceptancePhase

/-- `_validate_snapshot_locked`. -/
def validateSnapshot (jobId : Text) : StoreTx Unit := do
  let job ← orRaise (← selectJob jobId) (.keyError jobId.val)
  let snapshot ← query fun s => s.snapshot job
  lift (validateJobSnapshot snapshot)

/-- What `_validate_snapshot_locked` checks of a job, on the rows. -/
structure Store.JobValid (s : Store) (job : JobRow) : Prop where
  completed_tasks : job.state = .completed → ∀ t ∈ s.tasks, t.jobId = job.id → t.state = .completed
  settled_tasks : job.state ∈ [JobState.queued, .stopped, .failed] →
    ∀ t ∈ s.tasks, t.jobId = job.id → t.state.inflight = false
  stopped_stop : job.state = .stopped → job.stopRequested = true
  completed_stop : job.state = .completed → job.stopRequested = false
  running_state : ∀ a ∈ s.attempts, a.jobId = job.id → a.state = .running →
    job.state ∈ [JobState.running, .stopping]
  running_inflight : ∀ a ∈ s.attempts, a.jobId = job.id → a.state = .running →
    ∀ t ∈ s.tasks, t.id = a.taskId → t.jobId = a.jobId → t.state.inflight = true
  accepted_tasks : job.acceptancePhase ≠ .none →
    ∀ t ∈ s.tasks, t.jobId = job.id → t.state = .completed
  accepted_running : job.acceptancePhase ≠ .none →
    ∀ a ∈ s.attempts, a.jobId = job.id → a.state ≠ .running
  accepted_state : job.acceptancePhase ∈ [AcceptancePhase.accepted, .applying] →
    job.state ∈ [JobState.running, .stopping]
  published_iff : job.acceptancePhase = .published ↔ job.state = .completed

theorem Store.jobValid_iff {s : Store} {job : JobRow} :
    JobSnapshot.Valid job.state ((s.tasksOf job.id).map TaskRow.state) (s.runningOwners job.id)
      job.stopRequested job.acceptancePhase ↔ s.JobValid job := by
  -- what is asked of the states of the snapshot is asked of the rows
  have htasks : ∀ P : TaskState → Prop,
      (∀ item ∈ (s.tasksOf job.id).map TaskRow.state, P item) ↔
        ∀ t ∈ s.tasks, t.jobId = job.id → P t.state := by
    intro P
    simp only [List.mem_map, mem_tasksOf]
    constructor
    · intro h t ht hjob
      exact h _ ⟨t, ⟨ht, hjob⟩, rfl⟩
    · rintro h _ ⟨t, ⟨ht, hjob⟩, hstate⟩
      rw [← hstate]
      exact h t ht hjob
  -- condition by condition: the rows of the tasks, and the owners of running attempts
  constructor
  · intro h
    refine ⟨fun hs => (htasks _).mp (h.completed_tasks hs),
      fun hs => (htasks _).mp (h.settled_tasks hs), h.stopped_stop, h.completed_stop, ?_, ?_,
      fun hp => (htasks _).mp (h.accepted_tasks hp),
      fun hp => runningOwners_eq_nil.mp (h.accepted_running hp), h.accepted_state, h.published_iff⟩
    · intro a ha hjob hrun
      apply h.running_state
      intro hnil
      exact runningOwners_eq_nil.mp hnil a ha hjob hrun
    · intro a ha hjob hrun t ht htid htjob
      exact h.running_inflight _ (mem_runningOwners.mpr
        ⟨a, ha, hjob, hrun, t, ht, htid, htjob, rfl⟩)
  · intro h
    refine ⟨fun hs => (htasks _).mpr (h.completed_tasks hs),
      fun hs => (htasks _).mpr (h.settled_tasks hs), h.stopped_stop, h.completed_stop, ?_, ?_,
      fun hp => (htasks _).mpr (h.accepted_tasks hp),
      fun hp => runningOwners_eq_nil.mpr (h.accepted_running hp), h.accepted_state, h.published_iff⟩
    · intro hne
      obtain ⟨state, hstate⟩ := List.exists_mem_of_ne_nil _ hne
      obtain ⟨a, ha, hjob, hrun, -⟩ := mem_runningOwners.mp hstate
      exact h.running_state a ha hjob hrun
    · intro owner howner
      obtain ⟨a, ha, hjob, hrun, t, ht, htid, htjob, rfl⟩ := mem_runningOwners.mp howner
      exact h.running_inflight a ha hjob hrun t ht htid htjob

/-- A validated job. -/
def Store.Validated (s : Store) (jobId : Text) : Prop :=
  ∃ job, s.job? jobId = some job ∧ s.JobValid job

/-! ## Taking statements apart -/

section Inversion

variable {s s' : Store}

@[simp] theorem selectJob_ok_iff {jobId : Text} {r : Option JobRow × Store} :
    selectJob jobId s = .ok r ↔ r = (s.job? jobId, s) := query_ok_iff

@[simp] theorem selectTask_ok_iff {taskId : Text} {r : Option TaskRow × Store} :
    selectTask taskId s = .ok r ↔ r = (s.task? taskId, s) := query_ok_iff

@[simp] theorem selectAttempt_ok_iff {attemptId : Text} {r : Option AttemptRow × Store} :
    selectAttempt attemptId s = .ok r ↔ r = (s.attempt? attemptId, s) := query_ok_iff

@[simp] theorem selectDossier_ok_iff {jobId : Text} {r : Option DossierRow × Store} :
    selectDossier jobId s = .ok r ↔ r = (s.dossier? jobId, s) := query_ok_iff

@[simp] theorem selectRunningAttempt_ok_iff {taskId : Text} {r : Option AttemptRow × Store} :
    selectRunningAttempt taskId s = .ok r ↔ r = (s.runningAttempt? taskId, s) := query_ok_iff

@[simp] theorem updateJobs_ok_iff {p : JobRow → Bool} {f : JobRow → JobRow}
    {keeps : ∀ j, (f j).id = j.id} {r : Nat × Store} :
    updateJobs p f keeps s = .ok r ↔ r = ((s.jobs.select p).length, s.updateJobs p f keeps) :=
  write_ok_iff

@[simp] theorem updateTasks_ok_iff {p : TaskRow → Bool} {f : TaskRow → TaskRow}
    {keeps : ∀ t, Row.key (f t) = Row.key t} {r : Nat × Store} :
    updateTasks p f keeps s = .ok r ↔ r = ((s.tasks.select p).length, s.updateTasks p f keeps) :=
  write_ok_iff

@[simp] theorem updateAttempts_ok_iff {p : AttemptRow → Bool} {f : AttemptRow → AttemptRow}
    {keeps : ∀ a, Row.key (f a) = Row.key a} {r : Nat × Store} :
    updateAttempts p f keeps s = .ok r ↔
      r = ((s.attempts.select p).length, s.updateAttempts p f keeps) := write_ok_iff

@[simp] theorem updateDossiers_ok_iff {p : DossierRow → Bool} {f : DossierRow → DossierRow}
    {keeps : ∀ d, (f d).jobId = d.jobId} {r : Nat × Store} :
    updateDossiers p f keeps s = .ok r ↔
      r = ((s.dossiers.select p).length, s.updateDossiers p f keeps) := write_ok_iff

theorem insertEvent_ok {jobId : Text} {taskId : Option Text} {kind : Text} {payload : Str}
    {now : Timestamp} {r : Unit × Store}
    (h : insertEvent jobId taskId kind payload now s = .ok r) :
    ∃ payload' : Text, payload'.val = payload ∧
      s.insertEvent? jobId taskId kind payload' now = some r.2 := by
  unfold insertEvent at h
  simp only [tx_bind_ok_iff, lift_ok_iff, bindText_eq_ok, writeOrRaise_ok_iff] at h
  obtain ⟨payload', t, ⟨hval, rfl⟩, hevent⟩ := h
  exact ⟨payload', hval, hevent⟩

/-- Events of a job have been appended, with these kinds and payloads. -/
def AppendsEvents (jobId : Text) (events : List (String × Json NonFinite)) (s s' : Store) : Prop :=
  Store.OnlyEvents s s' ∧ ∃ added, s'.events.rows = s.events.rows ++ added ∧
    (∀ e ∈ added, e.jobId = jobId) ∧
    added.map (fun e => (e.kind.val, e.payload.val)) =
      events.map fun event => (lit event.1, jsonDumps event.2)

theorem insertJobEvents_ok {jobId : Text} {now : Timestamp}
    {events : List (String × Json NonFinite)} {r : Unit × Store}
    (h : insertJobEvents jobId now events s = .ok r) : AppendsEvents jobId events s r.2 := by
  induction events generalizing s with
  | nil =>
    rw [insertJobEvents, tx_pure_ok_iff] at h
    rw [h]
    exact ⟨⟨rfl, rfl, rfl, rfl⟩, [], by simp, by simp, rfl⟩
  | cons event events ih =>
    obtain ⟨kind, payload⟩ := event
    rw [insertJobEvents, tx_bind_ok_iff] at h
    obtain ⟨_, t, hins, hrest⟩ := h
    obtain ⟨payload', hpayload, hins⟩ := insertEvent_ok hins
    obtain ⟨hrow, honly⟩ := Store.insertEvent?_eq_some hins
    obtain ⟨honly', added, hrows, hown, hmap⟩ := ih hrest
    refine ⟨⟨honly'.jobs.trans honly.jobs, honly'.tasks.trans honly.tasks,
      honly'.attempts.trans honly.attempts, honly'.dossiers.trans honly.dossiers⟩,
      ⟨s.nextEventId, jobId, none, Text.lit kind, payload', now⟩ :: added, ?_, ?_, ?_⟩
    · rw [hrows, (Table.insert?_eq_some.mp hrow).2, List.append_assoc, List.singleton_append]
    · intro e he
      rcases List.mem_cons.mp he with rfl | he
      · rfl
      · exact hown e he
    · rw [List.map_cons, List.map_cons, hmap, hpayload]
      rfl

@[simp] theorem validateSnapshot_ok_iff {jobId : Text} {r : Unit × Store} :
    validateSnapshot jobId s = .ok r ↔ r = ((), s) ∧ s.Validated jobId := by
  unfold validateSnapshot Store.Validated
  simp only [tx_bind_ok_iff, selectJob_ok_iff, orRaise_ok_iff, query_ok_iff, lift_ok_iff]
  constructor
  · rintro ⟨_, _, h, job, _, ⟨hjob, rfl⟩, _, _, hsnap, hvalid, hr⟩
    cases h
    cases hsnap
    exact ⟨Prod.ext rfl hr, job, hjob, Store.jobValid_iff.mp (validateJobSnapshot_eq_ok.mp hvalid)⟩
  · rintro ⟨rfl, job, hjob, hvalid⟩
    exact ⟨_, _, rfl, job, _, ⟨hjob, rfl⟩, _, _, rfl,
      validateJobSnapshot_eq_ok.mpr (Store.jobValid_iff.mpr hvalid), rfl⟩

end Inversion

end OmarchyYolo
