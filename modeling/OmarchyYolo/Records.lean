import OmarchyYolo.Lib.JsonAscii
import OmarchyYolo.Statements

/-!
# OmarchyYolo.Records — jobs, tasks and events

`create_job`, `add_tasks` and `event`, with the queries they answer from. What a
fresh identifier or the clock returns is an argument.
-/

namespace OmarchyYolo

open Py PyJson Sql Txn

/-! ## Jobs -/

/-- The keyword arguments of `create_job`. -/
structure NewJob where
  repo : Str
  goal : Str
  baseBranch : Str
  baseCommit : Str
  integrationBranch : Str
  autoApply : Bool
deriving DecidableEq, Repr

/-- `get_job`. -/
def getJob (jobId : Str) : StoreDb JobRow :=
  transaction do
    let id ← lift (bindText jobId)
    orRaise (← selectJob id) (.keyError jobId)

/-- `{"goal": goal, "repo": repo}`. -/
def createdPayload (goal repo : Str) : Json NonFinite :=
  .obj (.ofList [(lit "goal", .str goal), (lit "repo", .str repo)])

/-- `create_job`; `newId` is the result of `new_id("job")`. -/
def createJob (newId : Text) (now : Timestamp) (args : NewJob) : StoreDb JobRow := do
  transaction do
    let repo ← lift (bindText args.repo)
    let goal ← lift (bindText args.goal)
    let baseBranch ← lift (bindText args.baseBranch)
    let baseCommit ← lift (bindText args.baseCommit)
    let integrationBranch ← lift (bindText args.integrationBranch)
    insertJob
      { id := newId, repo := repo, goal := goal, state := .queued, baseBranch := baseBranch
        baseCommit := baseCommit, integrationBranch := integrationBranch
        autoApply := args.autoApply, createdAt := now, updatedAt := now }
    insertJobEvents newId now [("job.created", createdPayload args.goal args.repo)]
    validateSnapshot newId
  getJob newId.val

/-! ## Tasks -/

/-- `_task_from_row`: an empty agent name reads as none. -/
def taskFromRow (row : TaskRow) : TaskRow :=
  { row with preferredAgent := row.preferredAgent.filter fun agent => agent.val ≠ [] }

/-- `get_task`. -/
def getTask (taskId : Str) : StoreDb TaskRow :=
  transaction do
    let id ← lift (bindText taskId)
    let row ← orRaise (← selectTask id) (.keyError taskId)
    return taskFromRow row

/-- `list_tasks`. -/
def listTasks (jobId : Str) : StoreDb (List TaskRow) :=
  transaction do
    let id ← lift (bindText jobId)
    query fun s => (s.tasksOf id).map taskFromRow

/-- The loop over the planned tasks: `seq` is the last number given, `newId` the
results of `new_id("task")`. -/
def insertPlanned (jobId : Text) (newId : Nat → Text) (now : Timestamp) :
    List PlannedTask → Nat → StoreTx Unit
  | [], _ => pure ()
  | task :: planned, seq => do
    let logicalId ← lift (bindText task.logicalId)
    let title ← lift (bindText task.title)
    let description ← lift (bindText task.description)
    let dependencies ← lift (bindTexts task.dependsOn)
    let acceptance ← lift (bindTexts task.acceptance)
    let preferredAgent ← lift (bindOption task.preferredAgent)
    insertTask
      { id := newId (seq + 1), jobId := jobId, seq := seq + 1, logicalId := logicalId
        title := title, description := description, state := .pending
        dependencies := dependencies, acceptance := acceptance
        preferredAgent := preferredAgent, createdAt := now, updatedAt := now }
    insertPlanned jobId newId now planned (seq + 1)

/-- `COALESCE(MAX(seq), 0)` over the tasks of a job. -/
def Store.lastSeq (s : Store) (jobId : Text) : Nat :=
  ((s.tasks.select fun t => t.jobId == jobId).map TaskRow.seq).foldl max 0

/-- `add_tasks`. -/
def addTasks (jobId : Str) (newId : Nat → Text) (now : Timestamp) (planned : List PlannedTask) :
    StoreDb (List TaskRow) := do
  transaction do
    let id ← lift (bindText jobId)
    let job ← orRaise (← selectJob id) (.keyError jobId)
    lift (forbidIf (job.state ∉ [JobState.queued, .planning])
      (lit "tasks can only be added while job is queued/planning, got " ++ lit job.state.value))
    lift (forbidIf (job.acceptancePhase ≠ .none)
      (lit "tasks cannot be added after acceptance begins (" ++ lit job.acceptancePhase.value ++
        lit ")"))
    let startSeq ← query fun s => s.lastSeq id
    insertPlanned id newId now planned startSeq
    validateSnapshot id
  listTasks jobId

/-! ## Events -/

def maxEventPayloadChars : Nat := 8000

/-- The text stored for an event's payload. -/
def encodePayload {F : Type} [PyFloat F] (payload : Members F) : Str :=
  let encoded := jsonDumps (.obj payload)
  if maxEventPayloadChars < encoded.length then
    jsonDumps (F := F) (.obj (.ofList
      [(lit "truncated", .bool true),
       (lit "preview", .str (encoded.take (maxEventPayloadChars - 100)))]))
  else encoded

/-- `event`; no payload is the empty one. -/
def event {F : Type} [PyFloat F] (jobId : Str) (kind : Str) (payload : Members F)
    (taskId : Option Str) (now : Timestamp) : StoreDb Nat :=
  transaction do
    let id ← lift (bindText jobId)
    let task ← lift (bindOption taskId)
    let kind ← lift (bindText (kind.take 128))
    let rowid ← query Store.nextEventId
    insertEvent id task kind (encodePayload payload) now
    return rowid

/-- An event of a job without task and payload. -/
def jobEvent (jobId : Str) (kind : String) (now : Timestamp) : StoreDb Unit := do
  let _ ← event (F := NonFinite) jobId (lit kind) .nil none now

/-! ## What a successful call has done -/

section Cases

variable {s s' : Store}

theorem getJob_cases {jobId : Str} {job : JobRow} (h : getJob jobId s = .ok job s') :
    s' = s ∧ ∃ id : Text, id.val = jobId ∧ s.job? id = some job := by
  rw [getJob, transaction_ok_iff] at h
  simp only [tx_bind_ok_iff, lift_ok_iff, bindText_eq_ok, selectJob_ok_iff, orRaise_ok_iff] at h
  obtain ⟨id, _, ⟨hid, rfl⟩, _, _, hsel, hjob, hs⟩ := h
  cases hsel
  exact ⟨hs, id, hid, hjob⟩

theorem getJob_ok {jobId : Text} {job : JobRow} (h : s.job? jobId = some job) :
    getJob jobId.val s = .ok job s := by
  rw [getJob, transaction_ok_iff]
  simp only [tx_bind_ok_iff, lift_ok_iff, bindText_eq_ok, selectJob_ok_iff, orRaise_ok_iff]
  exact ⟨jobId, s, ⟨rfl, rfl⟩, _, _, rfl, h, rfl⟩

theorem getTask_cases {taskId : Str} {task : TaskRow} (h : getTask taskId s = .ok task s') :
    s' = s ∧ ∃ row ∈ s.tasks, row.id.val = taskId ∧ task = taskFromRow row := by
  rw [getTask, transaction_ok_iff] at h
  simp only [tx_bind_ok_iff, lift_ok_iff, bindText_eq_ok, selectTask_ok_iff, orRaise_ok_iff,
    tx_pure_ok_iff] at h
  obtain ⟨id, _, ⟨hid, rfl⟩, _, _, hsel, row, _, ⟨hrow, rfl⟩, hret⟩ := h
  cases hsel
  cases hret
  obtain ⟨hmem, rfl⟩ := Store.mem_of_task? hrow
  exact ⟨rfl, row, hmem, hid, rfl⟩

theorem listTasks_ok (jobId : Text) (s : Store) :
    listTasks jobId.val s = .ok ((s.tasksOf jobId).map taskFromRow) s := by
  rw [listTasks, transaction_ok_iff]
  simp only [tx_bind_ok_iff, lift_ok_iff, bindText_eq_ok, query_ok_iff]
  exact ⟨jobId, s, ⟨rfl, rfl⟩, rfl⟩

theorem createJob_cases {newId : Text} {now : Timestamp} {args : NewJob} {reply : JobRow}
    (h : createJob newId now args s = .ok reply s') :
    ∃ (job : JobRow) (t : Store), job.id = newId ∧ job.state = .queued ∧
      job.acceptancePhase = .none ∧ job.acceptedCommit.val = [] ∧ job.sourceApplyOutcome = .none ∧
      s.insertJob? job = some t ∧
      AppendsEvents newId [("job.created", createdPayload args.goal args.repo)] t s' ∧
      s'.Validated newId := by
  rw [createJob, db_bind_ok_iff] at h
  obtain ⟨_, u, htx, hget⟩ := h
  obtain ⟨rfl, -⟩ := getJob_cases hget
  rw [transaction_ok_iff] at htx
  simp only [tx_bind_ok_iff, lift_ok_iff, bindText_eq_ok, insertJob, writeOrRaise_ok_iff,
    validateSnapshot_ok_iff] at htx
  obtain ⟨repo, _, ⟨-, rfl⟩, goal, _, ⟨-, rfl⟩, branch, _, ⟨-, rfl⟩, commit, _, ⟨-, rfl⟩,
    integration, _, ⟨-, rfl⟩, _, t, hins, _, _, hevents, hret, hvalid⟩ := htx
  cases hret
  exact ⟨_, t, rfl, rfl, rfl, rfl, rfl, hins, insertJobEvents_ok hevents, hvalid⟩

theorem isText_createdPayload {goal repo : Str} (hgoal : isText goal = true)
    (hrepo : isText repo = true) : isText (jsonDumps (createdPayload goal repo)) = true := by
  have hsorted : (createdPayload goal repo).sortKeys = createdPayload goal repo := rfl
  rw [jsonDumps, hsorted, createdPayload]
  simp only [Members.ofList, dumps, dumpsMembers, isText_cons, isText_append,
    isText_dumpsStr (isText_lit _), isText_dumpsStr hgoal, isText_dumpsStr hrepo]
  rfl

/-- A job under a new identifier is always created. -/
theorem createJob_ok {newId repo goal baseBranch baseCommit integrationBranch : Text}
    {autoApply : Bool} {now : Timestamp} {job : JobRow} (hnew : ∀ j ∈ s.jobs, j.id ≠ newId)
    (hjob : job =
      { id := newId, repo := repo, goal := goal, state := .queued, baseBranch := baseBranch
        baseCommit := baseCommit, integrationBranch := integrationBranch
        autoApply := autoApply, createdAt := now, updatedAt := now }) :
    ∃ s', createJob newId now
        ⟨repo.val, goal.val, baseBranch.val, baseCommit.val, integrationBranch.val, autoApply⟩ s =
          .ok job s' ∧ s'.jobs.rows = s.jobs.rows ++ [job] := by
  have hid : job.id = newId := by rw [hjob]
  have hfresh : s.jobs.insert? job ≠ none := by
    rw [ne_eq, Table.insert?_eq_none]
    rintro ⟨j, hj, hclash⟩
    -- the identity is new, so the row is inserted
    exact hnew j hj ((show j.id = job.id from hclash).trans hid)
  obtain ⟨t, ht⟩ : ∃ t, s.insertJob? job = some t := by
    unfold Store.insertJob?
    split
    · contradiction
    · exact ⟨_, rfl⟩
  obtain ⟨jobs, keeps, hinsert, htables⟩ := Store.insertJob?_eq_some ht
  have hrows : t.jobs.rows = s.jobs.rows ++ [job] := by
    rw [htables]
    exact (Table.insert?_eq_some.mp hinsert).2
  have hmem : job ∈ t.jobs := by
    rw [← Table.mem_rows, hrows]
    exact List.mem_append_right _ List.mem_cons_self
  -- the event is inserted for the job that has just been added
  let payload : Text := ⟨_, isText_createdPayload goal.encodes repo.encodes⟩
  obtain ⟨s', hs'⟩ := Store.exists_insertEvent? ⟨job, hmem, hid⟩ none (Text.lit "job.created")
    payload now
  have honly := (Store.insertEvent?_eq_some hs').2
  -- nothing is in the store yet that would belong to the job
  have hnotask : ∀ task ∈ s'.tasks, task.jobId ≠ job.id := by
    intro task htask
    rw [honly.tasks, htables] at htask
    obtain ⟨j, hj, hown⟩ := s.taskJob task htask
    rw [← hown, hid]
    exact hnew j hj
  have hnoattempt : ∀ attempt ∈ s'.attempts, attempt.jobId ≠ job.id := by
    intro attempt hattempt
    obtain ⟨task, htask, -, hown⟩ := s'.attemptTask attempt hattempt
    rw [← hown]
    exact hnotask task htask
  have hstate : job.state = .queued := by rw [hjob]
  have hphase : job.acceptancePhase = .none := by rw [hjob]
  -- the snapshot is valid, as the job has no task and no attempt
  have hvalid : s'.JobValid job :=
    { completed_tasks  := fun _ task htask hown => absurd hown (hnotask task htask)
      settled_tasks    := fun _ task htask hown => absurd hown (hnotask task htask)
      stopped_stop     := by rw [hstate]; exact nofun
      completed_stop   := by rw [hstate]; exact nofun
      running_state    := fun a ha hown => absurd hown (hnoattempt a ha)
      running_inflight := fun a ha hown => absurd hown (hnoattempt a ha)
      accepted_tasks   := fun h => absurd hphase h
      accepted_running := fun h => absurd hphase h
      accepted_state   := by rw [hphase]; exact fun h => absurd h (by decide)
      published_iff    := by rw [hphase, hstate]; decide }
  have hfind : s'.job? newId = some job := by
    rw [← hid]
    exact Store.job?_eq_some (by rw [honly.jobs]; exact hmem)
  refine ⟨s', ?_, by rw [honly.jobs, hrows]⟩
  rw [createJob, db_bind_ok_iff]
  refine ⟨(), s', ?_, getJob_ok hfind⟩
  -- the transaction, statement by statement
  rw [transaction_ok_iff]
  simp only [tx_bind_ok_iff, lift_ok_iff, bindText_eq_ok, insertJob, writeOrRaise_ok_iff,
    validateSnapshot_ok_iff]
  refine ⟨repo, s, ⟨rfl, rfl⟩, goal, s, ⟨rfl, rfl⟩, baseBranch, s, ⟨rfl, rfl⟩, baseCommit, s,
    ⟨rfl, rfl⟩, integrationBranch, s, ⟨rfl, rfl⟩, (), t, hjob ▸ ht, (), s', ?_, rfl, job, hfind,
    hvalid⟩
  simp only [insertJobEvents, tx_bind_ok_iff, insertEvent, lift_ok_iff, bindText_eq_ok,
    writeOrRaise_ok_iff, tx_pure_ok_iff]
  exact ⟨(), s', ⟨payload, t, ⟨rfl, rfl⟩, hs'⟩, rfl⟩

/-- A job that has been created can be read back. -/
theorem createJob_atomic (newId : Text) (now : Timestamp) (args : NewJob) (s : Store) :
    Atomic (createJob newId now args) s := by
  apply atomic_bind (atomic_transaction _ s)
  intro _ t htx
  rw [transaction_ok_iff] at htx
  simp only [tx_bind_ok_iff, validateSnapshot_ok_iff] at htx
  obtain ⟨_, _, -, _, _, -, _, _, -, _, _, -, _, _, -, _, _, -, _, _, -, hret, job, hjob, -⟩ := htx
  cases hret
  exact ⟨job, _, getJob_ok hjob⟩

/-- A row stores a planned task, under one of the new identifiers. -/
structure Stores (newId : Nat → Text) (task : PlannedTask) (row : TaskRow) : Prop where
  logicalId : row.logicalId.val = task.logicalId
  dependencies : row.dependencies.map Text.val = task.dependsOn
  id : ∃ seq, row.id = newId seq

/-- The tasks that the loop has inserted. -/
theorem insertPlanned_ok {jobId : Text} {newId : Nat → Text} {now : Timestamp}
    {planned : List PlannedTask} {seq : Nat} {r : Unit × Store}
    (h : insertPlanned jobId newId now planned seq s = .ok r) :
    Store.OnlyTasks s r.2 ∧ ∃ added, r.2.tasks.rows = s.tasks.rows ++ added ∧
      (∀ t ∈ added, t.jobId = jobId ∧ t.state = .pending) ∧
      added.map TaskRow.seq = List.range' (seq + 1) planned.length ∧
      List.Forall₂ (Stores newId) planned added := by
  induction planned generalizing s seq with
  | nil =>
    rw [insertPlanned, tx_pure_ok_iff] at h
    rw [h]
    exact ⟨⟨rfl, rfl, rfl, rfl⟩, [], by simp, by simp, rfl, .nil⟩
  | cons task planned ih =>
    simp only [insertPlanned, tx_bind_ok_iff, lift_ok_iff, insertTask, writeOrRaise_ok_iff,
      bindText_eq_ok] at h
    obtain ⟨_, _, ⟨hid, rfl⟩, _, _, ⟨-, rfl⟩, _, _, ⟨-, rfl⟩, _, _, ⟨hdeps, rfl⟩, _, _, ⟨-, rfl⟩,
      _, _, ⟨-, rfl⟩, _, t, hins, hrest⟩ := h
    obtain ⟨hrow, honly⟩ := Store.insertTask?_eq_some hins
    obtain ⟨honly', added, hrows, hown, hseq, hstores⟩ := ih hrest
    refine ⟨⟨honly'.jobs.trans honly.jobs, honly'.attempts.trans honly.attempts,
      honly'.events.trans honly.events, honly'.dossiers.trans honly.dossiers⟩, _ :: added,
      by rw [hrows, (Table.insert?_eq_some.mp hrow).2, List.append_assoc, List.singleton_append],
      ?_, ?_, ?_⟩
    · intro t ht
      rcases List.mem_cons.mp ht with rfl | ht
      · exact ⟨rfl, rfl⟩
      · exact hown t ht
    · rw [List.map_cons, hseq, List.length_cons, List.range'_succ]
    · exact .cons ⟨hid, bindTexts_val hdeps, _, rfl⟩ hstores

theorem addTasks_cases {jobId : Str} {newId : Nat → Text} {now : Timestamp}
    {planned : List PlannedTask} {reply : List TaskRow}
    (h : addTasks jobId newId now planned s = .ok reply s') :
    ∃ job ∈ s.jobs, job.id.val = jobId ∧ job.state ∈ [JobState.queued, .planning] ∧
      job.acceptancePhase = .none ∧ Store.OnlyTasks s s' ∧
      (∃ added, s'.tasks.rows = s.tasks.rows ++ added ∧
        (∀ t ∈ added, t.jobId = job.id ∧ t.state = .pending) ∧
        added.map TaskRow.seq = List.range' (s.lastSeq job.id + 1) planned.length ∧
        List.Forall₂ (Stores newId) planned added) ∧
      s'.Validated job.id := by
  rw [addTasks, db_bind_ok_iff] at h
  obtain ⟨_, u, htx, hlist⟩ := h
  rw [transaction_ok_iff] at htx
  simp only [tx_bind_ok_iff, lift_ok_iff, bindText_eq_ok, selectJob_ok_iff, orRaise_ok_iff,
    forbidIf_eq_ok, query_ok_iff, validateSnapshot_ok_iff, Decidable.not_not, ne_eq] at htx
  obtain ⟨id, _, ⟨hid, rfl⟩, _, _, hsel, job, _, ⟨hjob, rfl⟩, _, _, ⟨hstate, rfl⟩, _, _,
    ⟨hphase, rfl⟩, _, _, hseq, _, _, hins, hret, hvalid⟩ := htx
  cases hsel
  cases hseq
  cases hret
  obtain ⟨hmem, rfl⟩ := Store.mem_of_job? hjob
  subst hid
  rw [listTasks_ok] at hlist
  cases hlist
  obtain ⟨honly, hadded⟩ := insertPlanned_ok hins
  exact ⟨job, hmem, rfl, hstate, hphase, honly, hadded, hvalid⟩

theorem addTasks_atomic (jobId : Str) (newId : Nat → Text) (now : Timestamp)
    (planned : List PlannedTask) (s : Store) : Atomic (addTasks jobId newId now planned) s := by
  apply atomic_bind (atomic_transaction _ s)
  intro _ t htx
  rw [transaction_ok_iff] at htx
  simp only [tx_bind_ok_iff, lift_ok_iff, bindText_eq_ok] at htx
  obtain ⟨id, _, ⟨rfl, -⟩, -⟩ := htx
  exact ⟨_, t, listTasks_ok id t⟩

/-- `add_tasks` raises only where the insertion of a row does. -/
theorem addTasks_ok {jobId : Text} {newId : Nat → Text} {now : Timestamp}
    {planned : List PlannedTask} {job : JobRow} (hjob : s.job? jobId = some job)
    (hstate : job.state ∈ [JobState.queued, .planning]) (hphase : job.acceptancePhase = .none)
    (hvalid : s.JobValid job)
    (hins : insertPlanned jobId newId now planned (s.lastSeq jobId) s = .ok ((), s')) :
    addTasks jobId.val newId now planned s = .ok ((s'.tasksOf jobId).map taskFromRow) s' := by
  obtain ⟨honly, added, hrows, hown, -⟩ := insertPlanned_ok hins
  -- no task is planned for a job that runs or has ended
  have hstopped : job.state ∉ [JobState.running, .stopping] := by
    intro hmem
    revert hstate hmem
    cases job.state <;> decide
  have hstopped' : job.state ≠ .stopped ∧ job.state ≠ .completed := by
    constructor <;>
    · intro heq
      rw [heq] at hstate
      revert hstate
      decide
  have hjob' : s'.job? jobId = some job := by
    rw [Store.job?, honly.jobs]
    exact hjob
  -- the added tasks are pending, and the job has no running attempt
  have hvalid' : s'.JobValid job := by
    refine ⟨fun h => absurd h hstopped'.2, ?_, fun h => absurd h hstopped'.1,
      fun h => absurd h hstopped'.2, ?_, ?_, fun h => absurd hphase h, fun h => absurd hphase h,
      ?_, hvalid.published_iff⟩
    -- the tasks that were there, and the new ones, are pending
    · intro hmem t ht hjobId
      rw [← Table.mem_rows, hrows, List.mem_append] at ht
      rcases ht with ht | ht
      · exact hvalid.settled_tasks hmem t ht hjobId
      · rw [(hown t ht).2]
        rfl
    -- the attempts are as before
    · intro a ha
      rw [honly.attempts] at ha
      exact hvalid.running_state a ha
    · intro a ha hjobId hrun
      rw [honly.attempts] at ha
      exact absurd (hvalid.running_state a ha hjobId hrun) hstopped
    · intro hmem
      rw [hphase] at hmem
      exact absurd hmem (by decide)
  rw [addTasks, db_bind_ok_iff]
  refine ⟨(), s', ?_, listTasks_ok jobId s'⟩
  -- the transaction, statement by statement
  rw [transaction_ok_iff]
  simp only [tx_bind_ok_iff, lift_ok_iff, bindText_eq_ok, selectJob_ok_iff, orRaise_ok_iff,
    forbidIf_eq_ok, query_ok_iff, validateSnapshot_ok_iff, Decidable.not_not, ne_eq]
  exact ⟨jobId, s, ⟨rfl, rfl⟩, _, _, rfl, job, s, ⟨hjob, rfl⟩, (), s, ⟨hstate, rfl⟩, (), s,
    ⟨hphase, rfl⟩, _, _, rfl, (), s', hins, rfl, job, hjob', hvalid'⟩

/-- An event of a job in the store is recorded when its texts can be bound. -/
theorem event_ok {F : Type} [PyFloat F] {jobId : Text} (hjob : ∃ j ∈ s.jobs, j.id = jobId)
    {kind : Str} (hkind : isText (kind.take 128) = true) {payload : Members F}
    (hpayload : isText (encodePayload payload) = true) (taskId : Option Text) (now : Timestamp) :
    ∃ s', event jobId.val kind payload (taskId.map Text.val) now s = .ok s.nextEventId s' := by
  obtain ⟨s', hs'⟩ := Store.exists_insertEvent? hjob taskId ⟨_, hkind⟩ ⟨_, hpayload⟩ now
  refine ⟨s', ?_⟩
  rw [event, transaction_ok_iff]
  simp only [tx_bind_ok_iff, lift_ok_iff, bindText_eq_ok, query_ok_iff, insertEvent,
    writeOrRaise_ok_iff, tx_pure_ok_iff]
  exact ⟨jobId, s, ⟨rfl, rfl⟩, taskId, s, ⟨bindOption_map_val taskId, rfl⟩, ⟨_, hkind⟩, s,
    ⟨rfl, rfl⟩, _, s, rfl, (), s', ⟨⟨_, hpayload⟩, s, ⟨rfl, rfl⟩, hs'⟩, rfl⟩

/-- The row of an event that has been recorded. -/
theorem event_cases {F : Type} [PyFloat F] {jobId kind : Str} {payload : Members F}
    {taskId : Option Str} {now : Timestamp} {reply : Nat}
    (h : event jobId kind payload taskId now s = .ok reply s') :
    ∃ (id : Text) (task : Option Text) (kind' payload' : Text), id.val = jobId ∧
      task.map Text.val = taskId ∧ kind'.val = kind.take 128 ∧
      payload'.val = encodePayload payload ∧
      s.insertEvent? id task kind' payload' now = some s' := by
  rw [event, transaction_ok_iff] at h
  simp only [tx_bind_ok_iff, lift_ok_iff, bindText_eq_ok, query_ok_iff, tx_pure_ok_iff] at h
  obtain ⟨id, _, ⟨hid, rfl⟩, task, _, ⟨htask, rfl⟩, kind', _, ⟨hkind, rfl⟩, _, _, hrow, _, _, hins,
    hret⟩ := h
  cases hret
  cases hrow
  obtain ⟨payload', hpayload, hins⟩ := insertEvent_ok hins
  exact ⟨id, task, kind', payload', hid, bindOption_val htask, hkind, hpayload, hins⟩

theorem event_onlyEvents {F : Type} [PyFloat F] {jobId kind : Str} {payload : Members F}
    {taskId : Option Str} {now : Timestamp} {reply : Nat}
    (h : event jobId kind payload taskId now s = .ok reply s') : Store.OnlyEvents s s' := by
  obtain ⟨id, task, kind', payload', -, -, -, -, hins⟩ := event_cases h
  exact (Store.insertEvent?_eq_some hins).2

/-- A job event of a job in the store is always recorded. -/
theorem jobEvent_ok {jobId : Text} (hjob : ∃ j ∈ s.jobs, j.id = jobId) (kind : String)
    (now : Timestamp) :
    ∃ s', jobEvent jobId.val kind now s = .ok () s' := by
  have hkind : isText ((lit kind).take 128) = true := by
    rw [lit, ← List.map_take]
    exact isText_ofChars _
  obtain ⟨s', hs'⟩ := @event_ok s NonFinite _ jobId hjob (lit kind) hkind .nil rfl none now
  refine ⟨s', ?_⟩
  rw [jobEvent, db_bind_ok_iff]
  exact ⟨s.nextEventId, s', hs', rfl⟩

theorem jobEvent_onlyEvents {jobId : Str} {kind : String} {now : Timestamp}
    (h : jobEvent jobId kind now s = .ok () s') : Store.OnlyEvents s s' := by
  rw [jobEvent, db_bind_ok_iff] at h
  obtain ⟨_, _, hevent, hret⟩ := h
  cases hret
  exact event_onlyEvents hevent

theorem jobEvent_cases {jobId : Text} {kind : String} {now : Timestamp}
    (h : jobEvent jobId.val kind now s = .ok () s') :
    ∃ kind' payload : Text, kind'.val = (lit kind).take 128 ∧
      s.insertEvent? jobId none kind' payload now = some s' := by
  rw [jobEvent, db_bind_ok_iff] at h
  obtain ⟨_, _, hevent, hret⟩ := h
  cases hret
  obtain ⟨id, task, kind', payload, hid, htask, hkind, -, hins⟩ := event_cases hevent
  cases Text.ext hid
  cases Option.map_eq_none_iff.mp htask
  exact ⟨kind', payload, hkind, hins⟩

end Cases

end OmarchyYolo
