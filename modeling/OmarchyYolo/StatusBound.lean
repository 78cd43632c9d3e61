import OmarchyYolo.ColumnBounds
import OmarchyYolo.Status
import OmarchyYolo.TaskBranch

/-!
# OmarchyYolo.StatusBound — a status always fits

After the last round a task takes at most 1700 bytes and the job at most 320200,
however its texts are escaped. With 256 tasks and 64 agents that is less than a
line may have, so `_status` never raises; and no round touches what identifies a
task.

* `StatusLimits`, `DrawnRows` — what is taken of the rows of a job;
* `finalRound_fits`: the last round fits;
* `status_fits`: what `_status` answers.
-/

namespace OmarchyYolo

open Py PyJson Sql Txn Lts

/-! ## Rounds -/

/-- What identifies a task, and how far it has come. -/
structure TaskIdentity where
  id : Str
  logicalId : Str
  seq : Nat
  state : TaskState
  attempts : Int
deriving DecidableEq, Repr

def TaskRow.identity (task : TaskRow) : TaskIdentity :=
  ⟨task.id.val, task.logicalId.val, task.seq, task.state, task.attempts⟩

section Rounds

variable {F : Type} {clock : Timestamp → F} {status status' : Status F}

def TaskItem.identity (task : TaskItem F) : TaskIdentity :=
  ⟨task.id, task.logicalId, task.seq, task.state, task.attempts⟩

/-- The rounds keep the tasks and their counts. -/
def Status.SameTasks (status status' : Status F) : Prop :=
  status'.tasks.map TaskItem.identity = status.tasks.map TaskItem.identity ∧
    status'.counts = status.counts

theorem Status.SameTasks.of_map {f : TaskItem F → TaskItem F}
    (hf : ∀ task, (f task).identity = task.identity) (htasks : status'.tasks = status.tasks.map f)
    (hcounts : status'.counts = status.counts) : status.SameTasks status' := by
  refine ⟨?_, hcounts⟩
  rw [htasks, List.map_map]
  exact List.map_congr_left fun task _ => hf task

theorem Status.SameTasks.trans {status'' : Status F} (h : status.SameTasks status')
    (h' : status'.SameTasks status'') : status.SameTasks status'' :=
  ⟨h'.1.trans h.1, h'.2.trans h.2⟩

theorem TaskItem.identity_cutTexts (chars : Nat) (task : TaskItem F) :
    (task.cutTexts chars).identity = task.identity := rfl

theorem sameTasks_cutPayloads (status : Status F) : status.SameTasks status.cutPayloads :=
  .of_map (TaskItem.identity_cutTexts 512) rfl rfl

theorem sameTasks_cutJob (status : Status F) : status.SameTasks status.cutJob :=
  .of_map (fun task => TaskItem.identity_cutTexts 128 task.cutPaths) rfl rfl

theorem sameTasks_cutTitles (status : Status F) : status.SameTasks status.cutTitles :=
  .of_map (f := TaskItem.cutTitle) (fun _ => rfl) rfl rfl

variable [PyFloat F]

/-- What is returned fits, and has the tasks. -/
theorem boundStatusResponse_ok (h : boundStatusResponse clock status = .ok status') :
    status'.Fits clock ∧ status.SameTasks status' := by
  unfold boundStatusResponse at h
  split_ifs at h with hfull hfirst hsecond hlast
  · cases h
    exact ⟨hfull, rfl, rfl⟩
  · cases h
    exact ⟨hfirst, sameTasks_cutPayloads status⟩
  · cases h
    exact ⟨hsecond, (sameTasks_cutPayloads status).trans (sameTasks_cutJob _)⟩
  · cases h
    exact ⟨hlast, ((sameTasks_cutPayloads status).trans
      (sameTasks_cutJob _)).trans (sameTasks_cutTitles _)⟩
  · exact absurd h nofun

/-- No round changes the row of the job. -/
theorem boundStatusResponse_row (h : boundStatusResponse clock status = .ok status') :
    status'.job.row = status.job.row := by
  unfold boundStatusResponse at h
  split_ifs at h
  · cases h
    rfl
  · cases h
    rfl
  · cases h
    rfl
  · cases h
    rfl
  · exact absurd h nofun

/-- Something is returned exactly if a round fits. -/
theorem boundStatusResponse_ok_iff : (∃ status', boundStatusResponse clock status = .ok status') ↔
    ∃ round ∈ status.rounds, round.Fits clock := by
  rw [Status.rounds]
  constructor
  · intro h
    rcases h with ⟨status', h⟩
    -- the round that is returned is the first one that fits
    unfold boundStatusResponse at h
    split_ifs at h with hfull hfirst hsecond hlast
    · exact ⟨_, by simp, hfull⟩
    · exact ⟨_, by simp, hfirst⟩
    · exact ⟨_, by simp, hsecond⟩
    · exact ⟨_, by simp, hlast⟩
    · cases h
  · intro h
    rcases h with ⟨round, hround, hfits⟩
    simp only [List.mem_cons, List.not_mem_nil, or_false] at hround
    unfold boundStatusResponse
    split_ifs with hfull hfirst hsecond hlast
    · exact ⟨_, rfl⟩
    · exact ⟨_, rfl⟩
    · exact ⟨_, rfl⟩
    · exact ⟨_, rfl⟩
    · rcases hround with rfl | rfl | rfl | rfl
      · exact absurd hfits hfull
      · exact absurd hfits hfirst
      · exact absurd hfits hsecond
      · exact absurd hfits hlast

/-- Something is returned, if the last round fits. -/
theorem exists_boundStatusResponse (h : status.cutPayloads.cutJob.cutTitles.Fits clock) :
    ∃ status', boundStatusResponse clock status = .ok status' :=
  boundStatusResponse_ok_iff.mpr ⟨_, by simp [Status.rounds], h⟩

end Rounds

/-! ## What is taken of the rows -/

/-- The limits within which a status always fits. -/
structure StatusLimits (s : Store) (job : JobRow) : Prop where
  tasks : (s.tasksOf job.id).length ≤ 256
  logicalIds : ∀ t ∈ s.tasksOf job.id, matchesIdRe t.logicalId.val = true
  preferred : ∀ t ∈ s.tasksOf job.id, ∀ agent ∈ t.preferredAgent, matchesAgentRe agent.val = true
  repo : job.repo.val.length ≤ 4096
  baseBranch : job.baseBranch.val.length ≤ 4096
  integrationBranch : job.integrationBranch.val.length ≤ 4096
  integrationPath : job.integrationPath.val.length ≤ 4096
  agents : ∀ a ∈ s.attemptsOf job.id, matchesAgentRe a.agent.val = true
  agentCount : ((s.attemptsOf job.id).map AttemptRow.agent).dedup.length ≤ 64

/-- What `new_id`, Git and the database give: identifiers of twelve digits, a commit of at most
128 characters, and rows that a 64-bit number counts. -/
structure DrawnRows (s : Store) (job : JobRow) : Prop where
  jobId : ∃ digits : List (Fin 16), digits.length = 12 ∧ job.id.val = newId (lit "job") digits
  taskIds : ∀ t ∈ s.tasksOf job.id,
    ∃ digits : List (Fin 16), digits.length = 12 ∧ t.id.val = newId (lit "task") digits
  baseCommit : job.baseCommit.val.length ≤ 128
  attemptRows : (s.attemptsOf job.id).length < 2 ^ 63

/-- A float is written in at most 24 characters. -/
def ShortFloat {F : Type} [PyFloat F] (x : F) : Prop := (PyFloat.spell x).length ≤ 24

instance {F : Type} [PyFloat F] (x : F) : Decidable (ShortFloat x) :=
  inferInstanceAs (Decidable (_ ≤ _))

structure Seconds.Short {F : Type} [PyFloat F] (seconds : Seconds F) : Prop where
  stamp : ∀ t, ShortFloat (seconds.stamp t)
  round : ∀ x, ShortFloat (seconds.round x)

/-- The counters of a coordinator that has run for any time that there is. -/
structure RuntimeSnapshot.Short {F : Type} [PyFloat F] (runtime : RuntimeSnapshot F) : Prop where
  counters : ∀ n ∈ [(runtime.counters.workerCapacity : Int), runtime.counters.workersActive,
    runtime.counters.workersWaiting, runtime.counters.repositoriesActive,
    runtime.counters.repositoryWaiters, runtime.counters.workerAcquisitionsTotal,
    runtime.counters.workerCancelledWaitsTotal, runtime.counters.workerPeakActive,
    runtime.counters.repositoryAcquisitionsTotal,
    runtime.counters.repositoryCancelledWaitsTotal], n.natAbs < 10 ^ 100
  seconds : ∀ x ∈ [runtime.workerWaitSecondsTotal, runtime.workerBusySecondsTotal,
    runtime.repositoryWaitSecondsTotal, runtime.repositoryBusySecondsTotal], ShortFloat x

/-! ## Texts and numbers -/

theorem isBare_of_isIdChar {c : PyChar} (h : isIdChar c = true) : isBare c = true := by
  cases c with
  | surrogate low bits => cases h
  -- quotes and the backslash are the printable characters that are escaped
  | scalar c =>
    have hmarks : isBare (.scalar '_') = true ∧ isBare (.scalar '.') = true ∧
        isBare (.scalar '-') = true := by decide
    -- the letters and digits are between the marks of punctuation
    have hrange : ∀ low high : Char, 0x23 ≤ low.toNat → high.toNat < 0x7f →
        (high.toNat < 0x5c ∨ 0x5c < low.toNat) → low ≤ c → c ≤ high →
        isBare (.scalar c) = true := by
      intro low high hlow hhigh hslash hle hle'
      have hle : low.toNat ≤ c.toNat := hle
      have hle' : c.toNat ≤ high.toNat := hle'
      have hne : ∀ d : Char, c.toNat ≠ d.toNat → PyChar.scalar c ≠ .scalar d := by
        rintro d hd heq
        cases heq
        exact hd rfl
      have hquote : c.toNat ≠ '"'.toNat := by
        have hval : '"'.toNat = 0x22 := rfl
        omega
      have hbackslash : c.toNat ≠ '\\'.toNat := by
        have hval : '\\'.toNat = 0x5c := rfl
        omega
      simp only [isBare, isPrintable, Bool.and_eq_true, bne_iff_ne, decide_eq_true_eq]
      exact ⟨⟨⟨by omega, by omega⟩, hne _ hquote⟩, hne _ hbackslash⟩
    simp only [isIdChar, isAlnum, Bool.or_eq_true, Bool.and_eq_true, beq_iff_eq,
      decide_eq_true_eq] at h
    -- by the range or the mark of the identifier
    rcases h with (((((⟨h, h'⟩ | ⟨h, h'⟩) | ⟨h, h'⟩) | h) | h) | h)
    · exact hrange _ _ (by decide) (by decide) (by decide) h h'
    · exact hrange _ _ (by decide) (by decide) (by decide) h h'
    · exact hrange _ _ (by decide) (by decide) (by decide) h h'
    · rw [h]
      exact hmarks.1
    · rw [h]
      exact hmarks.2.1
    · rw [h]
      exact hmarks.2.2

theorem strBytes_logicalId {s : Str} (h : matchesIdRe s = true) : strBytes s ≤ 34 := by
  have hchars := (isIdChar_of_matchesIdRe h).2.1
  have hlen : s.length ≤ 32 := by
    unfold matchesIdRe at h
    split at h
    · simp only [Bool.and_eq_true, decide_eq_true_eq] at h
      rw [List.length_cons]
      omega
    · cases h
  rw [strBytes_bare fun c hc => isBare_of_isIdChar (hchars c hc)]
  omega

theorem strBytes_agent {s : Str} (h : matchesAgentRe s = true) : strBytes s ≤ 66 := by
  unfold matchesAgentRe at h
  split at h
  · rename_i c rest
    simp only [Bool.and_eq_true, decide_eq_true_eq, List.all_eq_true] at h
    have hfirst : isIdChar c = true := by
      simp only [isIdChar, h.1.1, Bool.true_or]
    have hchars : ∀ d ∈ c :: rest, isIdChar d = true := by
      rw [List.forall_mem_cons]
      exact ⟨hfirst, h.2⟩
    rw [strBytes_bare fun d hd => isBare_of_isIdChar (hchars d hd), List.length_cons]
    omega
  · cases h

theorem strBytes_newId {kind : Str} (hkind : ∀ c ∈ kind, isIdChar c = true)
    (digits : List (Fin 16)) : strBytes (newId kind digits) = kind.length + digits.length + 3 := by
  have hdigit : ∀ digit : Fin 16, isBare (hexDigit digit) = true := by decide
  have hmark : ∀ c ∈ lit "_", isBare c = true := by decide
  rw [strBytes_bare]
  · rw [newId, List.length_append, List.length_append, List.length_map]
    have hlen : (lit "_").length = 1 := by decide
    omega
  · intro c hc
    rcases List.mem_append.mp hc with hc | hc
    · rcases List.mem_append.mp hc with hc | hc
      · exact isBare_of_isIdChar (hkind c hc)
      · exact hmark c hc
    · obtain ⟨digit, -, rfl⟩ := List.mem_map.mp hc
      exact hdigit digit

section Sizes

variable {F : Type} [PyFloat F]

theorem intBytes_column {n : Int} (h : FitsColumn n) : jsonBytes (.int n : Json F) ≤ 20 := by
  have hpow : (2 : Nat) ^ 63 < 10 ^ 19 := by decide
  have hlt : n.natAbs < 10 ^ 19 := by
    have hlow := h.1
    have hhigh := h.2
    omega
  rw [jsonBytes_int]
  exact intBytes_le (by decide) hlt

theorem intBytes_nat {n digits : Nat} (hpos : 0 < digits) (h : n < 10 ^ digits) :
    jsonBytes (.int n : Json F) ≤ digits + 1 := by
  rw [jsonBytes_int]
  exact intBytes_le hpos h

theorem floatBytes {x : F} (h : ShortFloat x) : jsonBytes (.float x) ≤ 24 := by
  rw [jsonBytes_float]
  exact h

theorem textBytes {s : Str} {chars : Nat} (h : s.length ≤ chars) :
    jsonBytes (.str s : Json F) ≤ 2 + 12 * chars := by
  rw [jsonBytes_str]
  exact strBytes_le_of_length h

/-- The states are short words. -/
theorem stateBytes :
    (∀ state : JobState, jsonBytes (.str (lit state.value) : Json F) ≤ 11) ∧
    (∀ state : TaskState, jsonBytes (.str (lit state.value) : Json F) ≤ 13) ∧
    (∀ state : AttemptState, jsonBytes (.str (lit state.value) : Json F) ≤ 11) ∧
    (∀ phase : AcceptancePhase, jsonBytes (.str (lit phase.value) : Json F) ≤ 11) ∧
    (∀ intent : SourceApplyIntent, jsonBytes (.str (lit intent.value) : Json F) ≤ 15) ∧
    ∀ outcome : SourceApplyOutcome, jsonBytes (.str (lit outcome.value) : Json F) ≤ 15 := by
  simp only [jsonBytes_str]
  refine ⟨?_, ?_, ?_, ?_, ?_, ?_⟩
  all_goals
    intro state
    cases state <;> decide +kernel

/-! ## Items -/

variable {seconds : Seconds F}

theorem attemptItem_bytes (hseconds : seconds.Short) {a : AttemptRow}
    (hnumber : FitsColumn a.number)
    (hagent : matchesAgentRe a.agent.val = true) (now : Timestamp) :
    jsonBytes (attemptItem seconds now a) ≤ 250 := by
  have hnull : jsonBytes (.null : Json F) ≤ 24 := by
    rw [jsonBytes_null]
    decide
  have hname : jsonBytes (.str a.agent.val : Json F) ≤ 66 := by
    rw [jsonBytes_str]
    exact strBytes_agent hagent
  refine (@jsonBytes_obj_le F _ _ [20, 66, 11, 24, 24, 24] ?_).trans ?_
  · refine .cons (intBytes_column hnumber) (.cons hname (.cons (stateBytes.2.2.1 a.state)
      (.cons (floatBytes (hseconds.stamp a.startedAt)) (.cons ?_
      (.cons (floatBytes (hseconds.round (a.elapsed seconds now))) .nil)))))
    cases a.finishedAt with
    | none => exact hnull
    | some finishedAt => exact floatBytes (hseconds.stamp finishedAt)
  · show 2 + ([lit "number", lit "agent", lit "state", lit "started_at", lit "finished_at",
      lit "elapsed_seconds"].map fun k => strBytes k + 2).sum + [20, 66, 11, 24, 24, 24].sum ≤ 250
    decide +kernel

/-- A task after the last round. -/
structure TaskItem.Small (task : TaskItem F) : Prop where
  id : strBytes task.id ≤ 19
  jobId : strBytes task.jobId ≤ 18
  seq : task.seq ≤ 256
  logicalId : strBytes task.logicalId ≤ 34
  title : task.title.length ≤ 80
  preferred : ∀ agent ∈ task.preferredAgent, strBytes agent ≤ 66
  attempts : FitsColumn task.attempts
  texts : ∀ text ∈ [task.branch, task.worktree, task.lastError, task.resultSummary], text = []
  floats : ∀ x ∈ [task.createdAt, task.updatedAt, task.stateAgeSeconds], ShortFloat x
  latestAttempt : jsonBytes task.latestAttempt ≤ 250

theorem TaskItem.Small.bytes {task : TaskItem F} (h : task.Small) :
    jsonBytes task.value ≤ 1700 := by
  -- the texts that were cut take two quotes each
  have hempty : ∀ text ∈ [task.branch, task.worktree, task.lastError, task.resultSummary],
      jsonBytes (.str text : Json F) ≤ 2 := by
    intro text htext
    rw [h.texts text htext]
    exact @textBytes F _ [] 0 (Nat.le_refl 0)
  have hnull : jsonBytes (.null : Json F) ≤ 66 := by
    rw [jsonBytes_null]
    decide
  have hseq : jsonBytes (.int task.seq : Json F) ≤ 4 := by
    refine @intBytes_nat F _ task.seq 3 (by decide) ?_
    have hle := h.seq
    omega
  simp only [List.forall_mem_cons, List.not_mem_nil, false_imp_iff, implies_true,
    and_true] at hempty
  have hfloats := h.floats
  simp only [List.forall_mem_cons, List.not_mem_nil, false_imp_iff, implies_true,
    and_true] at hfloats
  have hstr : ∀ {text : Str} {bound : Nat}, strBytes text ≤ bound →
      jsonBytes (.str text : Json F) ≤ bound := fun hle => by rwa [jsonBytes_str]
  refine (@jsonBytes_obj_le F _ _
    [19, 18, 4, 34, 962, 13, 66, 20, 2, 2, 2, 2, 24, 24, 24, 250] ?_).trans ?_
  -- the fields in order, each with its bound
  · refine .cons (hstr h.id) (.cons (hstr h.jobId) (.cons hseq (.cons (hstr h.logicalId)
      (.cons (textBytes h.title) (.cons (stateBytes.2.1 task.state) (.cons ?_
      (.cons (intBytes_column h.attempts) (.cons hempty.1 (.cons hempty.2.1 (.cons hempty.2.2.1
      (.cons hempty.2.2.2 (.cons (floatBytes hfloats.1) (.cons (floatBytes hfloats.2.1)
      (.cons (floatBytes hfloats.2.2) (.cons h.latestAttempt .nil)))))))))))))))
    cases hagent : task.preferredAgent with
    | none => exact hnull
    | some agent => exact hstr (h.preferred agent hagent)
  -- with their names and separators
  · show 2 + ([lit "id", lit "job_id", lit "seq", lit "logical_id", lit "title", lit "state",
      lit "preferred_agent", lit "attempts", lit "branch", lit "worktree", lit "last_error",
      lit "result_summary", lit "created_at", lit "updated_at", lit "state_age_seconds",
      lit "latest_attempt"].map fun k => strBytes k + 2).sum +
      [19, 18, 4, 34, 962, 13, 66, 20, 2, 2, 2, 2, 24, 24, 24, 250].sum ≤ 1700
    decide +kernel

/-- A job after the second round. -/
theorem jobDict_bytes (hseconds : seconds.Short) {s : Store} {job : JobRow}
    (hlimits : StatusLimits s job) (hdrawn : DrawnRows s job) (hbounded : job.Bounded)
    {goal finalSummary error : Str} (hgoal : goal.length ≤ 2000)
    (hsummary : finalSummary.length ≤ 2000) (herror : error.length ≤ 2000) :
    jsonBytes (jobDict seconds.stamp job goal finalSummary error) ≤ 320200 := by
  -- the identifier is drawn with a fixed number of digits
  have hid : jsonBytes (.str job.id.val : Json F) ≤ 18 := by
    obtain ⟨digits, hlen, hid⟩ := hdrawn.jobId
    have hkind : (lit "job").length = 3 := by decide
    rw [jsonBytes_str, hid, strBytes_newId (by decide)]
    omega
  have hbool : ∀ b : Bool, jsonBytes (.bool b : Json F) ≤ 5 := jsonBytes_bool_le
  refine (@jsonBytes_obj_le F _ _ [18, 2 + 12 * 4096, 2 + 12 * 2000, 11, 2 + 12 * 4096,
    2 + 12 * 128, 2 + 12 * 4096, 2 + 12 * 4096, 5, 5, 24, 24, 2 + 12 * 2000, 2 + 12 * 2000,
    2 + 12 * 128, 11, 15, 15, 2 + 12 * 4000] ?_).trans ?_
  -- the fields in order, each with its bound
  · exact .cons hid (.cons (textBytes hlimits.repo) (.cons (textBytes hgoal)
      (.cons (stateBytes.1 job.state) (.cons (textBytes hlimits.baseBranch)
      (.cons (textBytes hdrawn.baseCommit) (.cons (textBytes hlimits.integrationBranch)
      (.cons (textBytes hlimits.integrationPath) (.cons (hbool _) (.cons (hbool _)
      (.cons (floatBytes (hseconds.stamp _)) (.cons (floatBytes (hseconds.stamp _))
      (.cons (textBytes hsummary) (.cons (textBytes herror)
      (.cons (textBytes hbounded.acceptedCommit)
      (.cons (stateBytes.2.2.2.1 job.acceptancePhase)
      (.cons (stateBytes.2.2.2.2.1 job.sourceApplyIntent)
      (.cons (stateBytes.2.2.2.2.2 job.sourceApplyOutcome)
      (.cons (textBytes hbounded.sourceApplyReason) .nil))))))))))))))))))
  · show 2 + ([lit "id", lit "repo", lit "goal", lit "state", lit "base_branch",
      lit "base_commit", lit "integration_branch", lit "integration_path", lit "auto_apply",
      lit "stop_requested", lit "created_at", lit "updated_at", lit "final_summary", lit "error",
      lit "accepted_commit", lit "acceptance_phase", lit "source_apply_intent",
      lit "source_apply_outcome", lit "source_apply_reason"].map fun k => strBytes k + 2).sum +
      [18, 2 + 12 * 4096, 2 + 12 * 2000, 11, 2 + 12 * 4096, 2 + 12 * 128, 2 + 12 * 4096,
        2 + 12 * 4096, 5, 5, 24, 24, 2 + 12 * 2000, 2 + 12 * 2000, 2 + 12 * 128, 11, 15, 15,
        2 + 12 * 4000].sum ≤ 320200
    decide +kernel

theorem runtime_bytes {runtime : RuntimeSnapshot F} (h : runtime.Short) :
    jsonBytes runtime.value ≤ 1800 := by
  have hcounter : ∀ n ∈ [(runtime.counters.workerCapacity : Int), runtime.counters.workersActive,
      runtime.counters.workersWaiting, runtime.counters.repositoriesActive,
      runtime.counters.repositoryWaiters, runtime.counters.workerAcquisitionsTotal,
      runtime.counters.workerCancelledWaitsTotal, runtime.counters.workerPeakActive,
      runtime.counters.repositoryAcquisitionsTotal,
      runtime.counters.repositoryCancelledWaitsTotal], jsonBytes (.int n : Json F) ≤ 101 := by
    intro n hn
    rw [jsonBytes_int]
    exact intBytes_le (by decide) (h.counters n hn)
  simp only [List.forall_mem_cons, List.not_mem_nil, false_imp_iff, implies_true, and_true]
    at hcounter
  obtain ⟨h₁, h₂, h₃, h₄, h₅, h₆, h₇, h₈, h₉, h₁₀⟩ := hcounter
  have hfloats := h.seconds
  simp only [List.forall_mem_cons, List.not_mem_nil, false_imp_iff, implies_true,
    and_true] at hfloats
  obtain ⟨g₁, g₂, g₃, g₄⟩ := hfloats
  refine (@jsonBytes_obj_le F _ _
    [101, 101, 101, 101, 101, 101, 101, 24, 24, 101, 101, 101, 24, 24] ?_).trans ?_
  -- the fields in order, each with its bound
  · exact .cons h₁ (.cons h₂ (.cons h₃ (.cons h₄ (.cons h₅ (.cons h₆ (.cons h₇
      (.cons (floatBytes g₁) (.cons (floatBytes g₂) (.cons h₈ (.cons h₉ (.cons h₁₀
      (.cons (floatBytes g₃) (.cons (floatBytes g₄) .nil)))))))))))))
  · show 2 + ([lit "worker_capacity", lit "workers_active", lit "workers_waiting",
      lit "repositories_active", lit "repository_waiters", lit "worker_acquisitions_total",
      lit "worker_cancelled_waits_total", lit "worker_wait_seconds_total",
      lit "worker_busy_seconds_total", lit "worker_peak_active",
      lit "repository_acquisitions_total", lit "repository_cancelled_waits_total",
      lit "repository_wait_seconds_total", lit "repository_busy_seconds_total"].map
        fun k => strBytes k + 2).sum +
      [101, 101, 101, 101, 101, 101, 101, 24, 24, 101, 101, 101, 24, 24].sum ≤ 1800
    decide +kernel

/-- The counts of at most 256 tasks. -/
theorem counts_bytes {states : List TaskState} (hlen : states.length ≤ 256) :
    jsonBytes (countsValue (F := F) (dictTally states)) ≤ 170 := by
  have hmember : ∀ member ∈ (dictTally states).map
      fun item => (lit item.1.value, (.int item.2 : Json F)),
      strBytes member.1 + jsonBytes member.2 + 2 ≤ 21 := by
    intro member hmember
    obtain ⟨⟨state, n⟩, hitem, rfl⟩ := List.mem_map.mp hmember
    obtain ⟨-, rfl⟩ := mem_dictTally.mp hitem
    have hcount : states.count state ≤ states.length := List.count_le_length
    have hn := @intBytes_nat F _ (states.count state) 3 (by decide) (by omega)
    have hstate := @stateBytes F _ |>.2.1 state
    rw [jsonBytes_str] at hstate
    simp only
    omega
  have hkeys : (dictTally states).length ≤ 8 := by
    have hsub : (dictTally states).map Prod.fst ⊆ TaskState.all := by
      intro state _
      cases state <;> decide
    have hle := ((nodup_dictTally states).subperm hsub).length_le
    rwa [List.length_map] at hle
  have hle : jsonBytes (countsValue (F := F) (dictTally states)) ≤ 2 + _ * 21 :=
    jsonBytes_members_le hmember
  rw [List.length_map] at hle
  omega

end Sizes

/-! ## Metrics -/

section Metrics

variable {F : Type} {seconds : Seconds F}

/-- No number exceeds the total, and every agent is one of those named. -/
structure AttemptMetrics.Within (agents : List Str) (totals : AttemptMetrics F) : Prop where
  counts : ∀ state, totals.counts state ≤ totals.attemptsTotal
  agentCounts : ∀ item ∈ totals.byAgent,
    item.2.attempts ≤ totals.attemptsTotal ∧ ∀ state, item.2.counts state ≤ item.2.attempts
  nodup : (totals.byAgent.map Prod.fst).Nodup
  agents : ∀ agent ∈ totals.byAgent.map Prod.fst, agent ∈ agents

theorem addCount_le {counts : AttemptState → Nat} {total : Nat} (h : ∀ state, counts state ≤ total)
    (state : AttemptState) (attempts : Nat) (other : AttemptState) :
    addCount counts state attempts other ≤ total + attempts := by
  have hother := h other
  unfold addCount
  split_ifs
  · omega
  · omega

theorem within_start (agents : List Str) :
    (AttemptMetrics.start seconds).Within agents where
  counts _ := Nat.le_refl 0
  agentCounts _ h := absurd h List.not_mem_nil
  nodup := List.nodup_nil
  agents _ h := absurd h List.not_mem_nil

theorem AttemptMetrics.Within.add {agents : List Str} {totals : AttemptMetrics F}
    (h : totals.Within agents) {row : AttemptGroup F} (hagent : row.agent ∈ agents) :
    (totals.add seconds row).Within agents where
  counts := addCount_le h.counts row.state row.attempts
  agentCounts := by
    let P : Str → AgentMetrics F → Prop := fun _ metrics =>
      metrics.attempts ≤ totals.attemptsTotal ∧ ∀ state, metrics.counts state ≤ metrics.attempts
    let Q : Str → AgentMetrics F → Prop := fun _ metrics =>
      metrics.attempts ≤ totals.attemptsTotal + row.attempts ∧
        ∀ state, metrics.counts state ≤ metrics.attempts
    have hadd : ∀ agent metrics, P agent metrics → Q agent (metrics.add seconds row) :=
      fun agent metrics hmetrics => ⟨Nat.add_le_add_right hmetrics.1 row.attempts,
        addCount_le hmetrics.2 row.state row.attempts⟩
    refine @forall_dictSet _ _ _ row.agent _ totals.byAgent P Q h.agentCounts ?_ ?_ ?_
    · exact hadd row.agent _ ⟨Nat.zero_le _, fun _ => Nat.le_refl 0⟩
    · exact fun metrics hmetrics => hadd row.agent metrics hmetrics
    · exact fun agent metrics hmetrics => ⟨Nat.le_add_right_of_le hmetrics.1, hmetrics.2⟩
  nodup := nodup_dictSet h.nodup
  agents agent hmem := by
    rcases mem_dictSet_keys.mp hmem with rfl | hmem
    · exact hagent
    · exact h.agents agent hmem

theorem AttemptMetrics.Within.foldl {agents : List Str} {rows : List (AttemptGroup F)}
    (hrows : ∀ row ∈ rows, row.agent ∈ agents) {totals : AttemptMetrics F}
    (h : totals.Within agents) :
    (rows.foldl (AttemptMetrics.add seconds) totals).Within agents := by
  induction rows generalizing totals with
  | nil => exact h
  | cons row rows ih =>
    rw [List.forall_mem_cons] at hrows
    exact ih hrows.2 (h.add hrows.1)

theorem attemptsTotal_foldl (rows : List (AttemptGroup F)) (totals : AttemptMetrics F) :
    (rows.foldl (AttemptMetrics.add seconds) totals).attemptsTotal =
      totals.attemptsTotal + (rows.map AttemptGroup.attempts).sum := by
  induction rows generalizing totals with
  | nil => rfl
  | cons row rows ih =>
    rw [List.foldl_cons, ih, List.map_cons, List.sum_cons]
    exact Nat.add_assoc _ _ _

/-- The groups have all the attempts. -/
theorem sum_groups {s : Store} {jobId : Text} {groups : List (Text × AttemptState)}
    (h : s.Groups jobId groups) (now : Timestamp) :
    ((groups.map (attemptGroup seconds now (s.attemptsOf jobId))).map AttemptGroup.attempts).sum =
      (s.attemptsOf jobId).length := by
  have hall := List.sum_map_count_dedup_eq_length ((s.attemptsOf jobId).map AttemptRow.group)
  rw [List.length_map, ← (h.map _).sum_eq] at hall
  rw [List.map_map, ← hall]
  refine congrArg List.sum (List.map_congr_left fun group _ => ?_)
  change _ = List.countP (fun other => decide (other = group)) _
  rw [List.countP_map, List.countP_eq_length_filter]
  refine congrArg List.length (List.filter_congr fun a _ => ?_)
  rw [Bool.eq_iff_iff, beq_iff_eq, Function.comp_apply, decide_eq_true_eq]

/-- What `attempt_metrics` counts before it rounds. -/
theorem totals_within {s : Store} {jobId : Text} {groups : List (Text × AttemptState)}
    (h : s.Groups jobId groups) (now : Timestamp) {totals : AttemptMetrics F}
    (htotals : totals = (groups.map (attemptGroup seconds now (s.attemptsOf jobId))).foldl
      (AttemptMetrics.add seconds) (.start seconds)) :
    totals.Within (((s.attemptsOf jobId).map AttemptRow.agent).dedup.map Text.val) ∧
      totals.attemptsTotal = (s.attemptsOf jobId).length := by
  subst htotals
  constructor
  · refine AttemptMetrics.Within.foldl ?_ (within_start _)
    intro row hrow
    obtain ⟨group, hgroup, rfl⟩ := List.mem_map.mp hrow
    have hmem := List.mem_dedup.mp (h.mem_iff.mp hgroup)
    obtain ⟨a, ha, rfl⟩ := List.mem_map.mp hmem
    exact List.mem_map_of_mem (List.mem_dedup.mpr (List.mem_map_of_mem ha))
  · rw [attemptsTotal_foldl, sum_groups h]
    exact Nat.zero_add _

/-- Rounding and sorting keep the agents and their numbers. -/
theorem mem_finish {totals : AttemptMetrics F} {item : Str × AgentMetrics F}
    (h : item ∈ (totals.finish seconds).byAgent) :
    ∃ metrics, (item.1, metrics) ∈ totals.byAgent ∧
      item.2 = { metrics with elapsedSeconds := seconds.round metrics.elapsedSeconds } := by
  obtain ⟨⟨agent, metrics⟩, hitem, rfl⟩ := List.mem_map.mp (List.mem_mergeSort.mp h)
  exact ⟨metrics, hitem, rfl⟩

theorem length_finish (totals : AttemptMetrics F) :
    (totals.finish seconds).byAgent.length = totals.byAgent.length := by
  rw [AttemptMetrics.finish, List.length_mergeSort, List.length_map]

variable [PyFloat F]

theorem countBytes {n total : Nat} (h : n ≤ total) (htotal : total < 2 ^ 63) :
    jsonBytes (.int n : Json F) ≤ 20 := by
  have hpow : (2 : Nat) ^ 63 < 10 ^ 19 := by decide
  exact intBytes_nat (by decide) (by omega)

theorem agentMetrics_bytes (hseconds : seconds.Short) {metrics : AgentMetrics F} {x : F}
    (hx : metrics.elapsedSeconds = seconds.round x) (hattempts : metrics.attempts < 2 ^ 63)
    (hcounts : ∀ state, metrics.counts state ≤ metrics.attempts) :
    jsonBytes metrics.value ≤ 220 := by
  have hcount := fun state => countBytes (F := F) (hcounts state) hattempts
  have htotal : jsonBytes (.int metrics.attempts : Json F) ≤ 20 :=
    countBytes (Nat.le_refl _) hattempts
  have helapsed : jsonBytes (.float metrics.elapsedSeconds) ≤ 24 := by
    rw [hx]
    exact floatBytes (hseconds.round x)
  refine (@jsonBytes_obj_le F _ _ [20, 20, 20, 20, 20, 24] ?_).trans ?_
  · exact .cons htotal (.cons (hcount .running) (.cons (hcount .passed) (.cons (hcount .failed)
      (.cons (hcount .cancelled) (.cons helapsed .nil)))))
  · show 2 + ([lit "attempts", lit "running", lit "passed", lit "failed", lit "cancelled",
      lit "elapsed_seconds"].map fun k => strBytes k + 2).sum + [20, 20, 20, 20, 20, 24].sum ≤ 220
    decide +kernel

/-- `by_agent`, of at most 64 agents. -/
theorem byAgent_bytes (hseconds : seconds.Short) {totals : AttemptMetrics F} {agents : List Str}
    (h : totals.Within agents) (hlen : agents.length ≤ 64)
    (hagents : ∀ agent ∈ agents, matchesAgentRe agent = true)
    (htotal : totals.attemptsTotal < 2 ^ 63) :
    jsonBytes (.obj (.ofList ((totals.finish seconds).byAgent.map fun (agent, metrics) =>
      (agent, metrics.value)))) ≤ 18434 := by
  -- one agent takes at most 288 bytes
  have hmember : ∀ member ∈ (totals.finish seconds).byAgent.map fun (agent, metrics) =>
      (agent, metrics.value), strBytes member.1 + jsonBytes member.2 + 2 ≤ 288 := by
    intro member hmember
    obtain ⟨⟨agent, metrics⟩, hitem, rfl⟩ := List.mem_map.mp hmember
    obtain ⟨before, hbefore, hround⟩ := mem_finish hitem
    obtain ⟨hattempts, hcounts⟩ := h.agentCounts _ hbefore
    have hname : agent ∈ agents := h.agents agent (List.mem_map_of_mem (f := Prod.fst) hbefore)
    have hagent := strBytes_agent (hagents agent hname)
    have hround : metrics = { before with
      elapsedSeconds := seconds.round before.elapsedSeconds } := hround
    have hmetrics : jsonBytes metrics.value ≤ 220 := by
      rw [hround]
      exact agentMetrics_bytes hseconds rfl (Nat.lt_of_le_of_lt hattempts htotal) hcounts
    simp only
    omega
  -- and there are at most 64
  have hcount : (totals.finish seconds).byAgent.length ≤ 64 := by
    have hle := (h.nodup.subperm h.agents).length_le
    rw [List.length_map] at hle
    rw [length_finish]
    omega
  have hle := jsonBytes_members_le hmember
  rw [List.length_map] at hle
  omega

theorem telemetry_bytes (hseconds : seconds.Short) {totals : AttemptMetrics F} {agents : List Str}
    (h : totals.Within agents) (hlen : agents.length ≤ 64)
    (hagents : ∀ agent ∈ agents, matchesAgentRe agent = true)
    (htotal : totals.attemptsTotal < 2 ^ 63) (x y : F) :
    jsonBytes (Telemetry.value ⟨totals.finish seconds, seconds.round x, seconds.round y⟩) ≤
      19000 := by
  have hcount := fun state => countBytes (F := F) (h.counts state) htotal
  have hattempts : jsonBytes (.int totals.attemptsTotal : Json F) ≤ 20 :=
    countBytes (Nat.le_refl _) htotal
  have hstates : jsonBytes (.obj (.ofList (attemptCounts totals.counts)) : Json F) ≤ 126 := by
    refine (@jsonBytes_obj_le F _ _ [20, 20, 20, 20] ?_).trans ?_
    · exact .cons (hcount .running) (.cons (hcount .passed) (.cons (hcount .failed)
        (.cons (hcount .cancelled) .nil)))
    · show 2 + ([lit "running", lit "passed", lit "failed", lit "cancelled"].map
        fun k => strBytes k + 2).sum + [20, 20, 20, 20].sum ≤ 126
      decide +kernel
  refine (@jsonBytes_obj_le F _ _ [20, 126, 24, 24, 18434, 24, 24] ?_).trans ?_
  · exact .cons hattempts (.cons hstates (.cons (floatBytes (hseconds.round _))
      (.cons (floatBytes (hseconds.round _)) (.cons (byAgent_bytes hseconds h hlen hagents htotal)
      (.cons (floatBytes (hseconds.round _)) (.cons (floatBytes (hseconds.round _)) .nil))))))
  · show 2 + ([lit "attempts_total", lit "states", lit "elapsed_seconds_total",
      lit "completed_seconds_total", lit "by_agent", lit "job_elapsed_seconds",
      lit "state_age_seconds"].map fun k => strBytes k + 2).sum +
      [20, 126, 24, 24, 18434, 24, 24].sum ≤ 19000
    decide +kernel

end Metrics

/-! ## The last round -/

section Fits

variable {F : Type} [PyFloat F] {sha256 : Str → Str} {seconds : Seconds F}
  {context : StatusContext F} {s : Store} {job : JobRow}

/-- The numbers of a job's tasks are those up to their number. -/
theorem seq_le_length (h : NumberedTasks s.tasks) {t : TaskRow} (ht : t ∈ s.tasksOf job.id) :
    t.seq ≤ (s.tasksOf job.id).length := by
  rw [h.tasksOf_eq] at ht ⊢
  have hmem : t.seq ∈ seqsOf s.tasks job.id := List.mem_map_of_mem ht
  rw [h job.id, List.mem_range'_1, seqsOf, List.length_map] at hmem
  omega

theorem latestAttempt_mem {taskId : Text} {a : AttemptRow}
    (h : latestAttempt? s job.id taskId = some a) : a ∈ s.attemptsOf job.id :=
  (List.mem_filter.mp (List.mem_filter.mp (List.mem_of_getLast? h)).1).1

theorem mem_attemptsOf {a : AttemptRow} (h : a ∈ s.attemptsOf job.id) : a ∈ s.attempts :=
  (List.mem_filter.mp h).1

theorem latestAttempt_bytes (hbounded : s.Bounded) (hseconds : seconds.Short)
    (hlimits : StatusLimits s job) (taskId : Text) (now : Timestamp) :
    jsonBytes (match latestAttempt? s job.id taskId with
      | some attempt => attemptItem seconds now attempt
      | none => .null) ≤ 250 := by
  cases hlatest : latestAttempt? s job.id taskId with
  | none =>
    rw [jsonBytes_null]
    decide
  | some a =>
    have hmem := latestAttempt_mem hlatest
    exact attemptItem_bytes hseconds (hbounded.attempts a (mem_attemptsOf hmem))
      (hlimits.agents a hmem) now

/-- A task as the last round leaves it. -/
theorem finalTask_small (hnumbered : NumberedTasks s.tasks) (hbounded : s.Bounded)
    (hseconds : seconds.Short) (hlimits : StatusLimits s job) (hdrawn : DrawnRows s job)
    {t : TaskRow} (ht : t ∈ s.tasksOf job.id) :
    ((((taskItem seconds context s t).cutTexts 512).cutPaths.cutTexts 128).cutTitle).Small := by
  -- the bounds of `Small`, field by field
  obtain ⟨hmem, hown⟩ := Store.mem_tasksOf.mp ht
  -- the identifiers are drawn with a fixed number of digits
  constructor
  · show strBytes t.id.val ≤ 19
    obtain ⟨digits, hlen, hid⟩ := hdrawn.taskIds t ht
    have hkind : (lit "task").length = 4 := by decide
    rw [hid, strBytes_newId (by decide)]
    omega
  · show strBytes t.jobId.val ≤ 18
    obtain ⟨digits, hlen, hid⟩ := hdrawn.jobId
    have hkind : (lit "job").length = 3 := by decide
    rw [hown, hid, strBytes_newId (by decide)]
    omega
  -- the sequence number counts the tasks of the job
  · exact (seq_le_length hnumbered ht).trans hlimits.tasks
  · exact strBytes_logicalId (hlimits.logicalIds t ht)
  · exact List.length_take_le 80 _
  · intro agent hagent
    obtain ⟨name, hname, rfl⟩ := Option.map_eq_some_iff.mp hagent
    exact strBytes_agent (hlimits.preferred t ht name hname)
  -- the counters of the row
  · exact hbounded.tasks t hmem
  -- the texts that this round cuts are empty
  · intro text htext
    simp only [List.mem_cons, List.not_mem_nil, or_false] at htext
    rcases htext with rfl | rfl | rfl | rfl
    · rfl
    · rfl
    · rfl
    · rfl
  -- the times, and the number of attempts
  · intro x hx
    simp only [List.mem_cons, List.not_mem_nil, or_false] at hx
    rcases hx with rfl | rfl | rfl
    · exact hseconds.stamp t.createdAt
    · exact hseconds.stamp t.updatedAt
    · exact hseconds.round _
  · have hlatest := latestAttempt_bytes hbounded hseconds hlimits t.id context.attemptsNow
    rw [← hown] at hlatest
    exact hlatest

/-- The texts of a job after the second round. -/
theorem JobItem.length_cut (item : JobItem) : item.cut.goal.length ≤ 2000 ∧
    item.cut.finalSummary.length ≤ 2000 ∧ item.cut.error.length ≤ 2000 := by
  simp only [JobItem.cut]
  exact ⟨List.length_take_le _ _, length_lastChars_le _ _, length_lastChars_le _ _⟩

/-- What the parts of an answer take after the last round. -/
structure Status.SmallParts (clock : Timestamp → F) (status : Status F) : Prop where
  job : jsonBytes (jobDict clock status.job.cut.row status.job.cut.goal status.job.cut.finalSummary
    status.job.cut.error) ≤ 320200
  tasks : ∀ task ∈ status.tasks, ((task.cutTexts 512).cutPaths.cutTexts 128).cutTitle.Small
  length : status.tasks.length ≤ 256
  counts : jsonBytes (countsValue (F := F) status.counts) ≤ 170
  runtime : jsonBytes status.runtime.value ≤ 1800
  telemetry : jsonBytes status.telemetry.value ≤ 19000

theorem Status.SmallParts.fits {clock : Timestamp → F} {status : Status F}
    (h : status.SmallParts clock) : status.cutPayloads.cutJob.cutTitles.Fits clock := by
  have htasks : jsonBytes (.arr (.ofList
      (status.cutPayloads.cutJob.cutTitles.tasks.map TaskItem.value))) ≤ 2 + 256 * 1701 := by
    refine (@jsonBytes_arr_le F _ _ 1700 ?_).trans ?_
    · intro value hvalue
      obtain ⟨last, hlast, rfl⟩ := List.mem_map.mp hvalue
      -- the item has come through the three rounds
      obtain ⟨second, hsecond, rfl⟩ := List.mem_map.mp hlast
      obtain ⟨first, hfirst, rfl⟩ := List.mem_map.mp hsecond
      obtain ⟨task, htask, rfl⟩ := List.mem_map.mp hfirst
      exact (h.tasks task htask).bytes
    · have hlen : (status.cutPayloads.cutJob.cutTitles.tasks.map TaskItem.value).length =
          status.tasks.length := by
        simp only [Status.cutTitles, Status.cutJob, Status.cutPayloads, List.length_map]
      rw [hlen]
      exact Nat.add_le_add_left (Nat.mul_le_mul_right 1701 h.length) 2
  refine (@jsonBytes_obj_le F _ _ [320200, 2 + 256 * 1701, 170, 2, 1800, 19000, 5] ?_).trans ?_
  · exact .cons h.job (.cons htasks (.cons h.counts (.cons (Nat.le_refl 2)
      (.cons h.runtime (.cons h.telemetry (.cons (jsonBytes_bool_le true) .nil))))))
  · show 2 + ([lit "job", lit "tasks", lit "counts", lit "last_events", lit "runtime",
      lit "telemetry", lit "truncated"].map fun k => strBytes k + 2).sum +
      [320200, 2 + 256 * 1701, 170, 2, 1800, 19000, 5].sum ≤ maxStatusResponseBytes
    decide +kernel

/-- After the last round the answer fits. -/
theorem finalRound_fits (hnumbered : NumberedTasks s.tasks) (hbounded : s.Bounded)
    (hseconds : seconds.Short) (hruntime : context.runtime.Short) (hjob : job ∈ s.jobs)
    (hlimits : StatusLimits s job) (hdrawn : DrawnRows s job)
    (hgroups : s.Groups job.id context.groups) (events : List (Json F)) :
    (fullStatus seconds context s job events).cutPayloads.cutJob.cutTitles.Fits seconds.stamp := by
  apply Status.SmallParts.fits
  constructor
  -- the parts of the reply, each within its share
  · obtain ⟨hgoal, hsummary, herror⟩ :=
      JobItem.length_cut (fullStatus seconds context s job events).job
    exact jobDict_bytes hseconds hlimits hdrawn (hbounded.jobs job hjob) hgoal hsummary herror
  · intro task htask
    obtain ⟨t, ht, rfl⟩ := List.mem_map.mp htask
    exact finalTask_small hnumbered hbounded hseconds hlimits hdrawn ht
  · rw [fullStatus, List.length_map]
    exact hlimits.tasks
  · apply counts_bytes
    rw [List.length_map]
    exact hlimits.tasks
  · exact runtime_bytes hruntime
  · obtain ⟨hwithin, htotal⟩ := @totals_within F seconds s job.id context.groups hgroups
      context.metricsNow _ rfl
    apply telemetry_bytes hseconds hwithin
    · rw [List.length_map]
      exact hlimits.agentCount
    · intro agent hagent
      obtain ⟨name, hname, rfl⟩ := List.mem_map.mp hagent
      obtain ⟨a, ha, rfl⟩ := List.mem_map.mp (List.mem_dedup.mp hname)
      exact hlimits.agents a ha
    · rw [htotal]
      exact hdrawn.attemptRows

/-- The events of a job can be read. -/
theorem exists_recentEvents (h : (database F sha256).Reachable s) (clock : Timestamp → F)
    (jobId : Text) (limit : Nat) : ∃ events, recentEvents clock s jobId limit = some events :=
  exists_events h fun _ hrow => List.mem_of_mem_drop hrow

/-- What `_status` answers of a job within the limits. -/
theorem jobStatus_ok (h : (database F sha256).Reachable s) (hseconds : seconds.Short)
    (hruntime : context.runtime.Short) (hjob : job ∈ s.jobs) (hlimits : StatusLimits s job)
    (hdrawn : DrawnRows s job) (hgroups : s.Groups job.id context.groups) :
    ∃ status, jobStatus seconds context s job = .ok status ∧ status.Fits seconds.stamp ∧
      status.tasks.map TaskItem.identity = (s.tasksOf job.id).map TaskRow.identity ∧
      status.counts = dictTally ((s.tasksOf job.id).map TaskRow.state) := by
  obtain ⟨events, hevents⟩ := exists_recentEvents h seconds.stamp job.id 12
  have hfits := finalRound_fits (reachable_sound h).tasks (reachable_bounded h) hseconds hruntime
    hjob hlimits hdrawn hgroups events
  obtain ⟨status, hstatus⟩ := exists_boundStatusResponse hfits
  obtain ⟨hsize, htasks, hcounts⟩ := boundStatusResponse_ok hstatus
  refine ⟨status, ?_, hsize, ?_, hcounts⟩
  · rw [jobStatus, hevents]
    exact hstatus
  · rw [htasks, fullStatus, List.map_map]
    rfl

/-- A status has the row that has been read. -/
theorem jobStatus_row {status : Status F} (h : jobStatus seconds context s job = .ok status) :
    status.job.row = job := by
  unfold jobStatus at h
  split at h
  · cases h
  · exact boundStatusResponse_row h

/-- The job that a reply is about. -/
theorem StatusReply.cases {jobId : Str} {r : Except Exn (Option (Status F))}
    (h : StatusReply seconds context s jobId r) (hjob : ∃ job, StatusJob s jobId job) :
    ∃ job, StatusJob s jobId job ∧ s.Groups job.id context.groups ∧
      r = (jobStatus seconds context s job).map some := by
  cases h with
  | named some_id found groups =>
    obtain ⟨-, id, hid, hfound⟩ := getJob_cases found
    obtain ⟨hmem, rfl⟩ := Store.mem_of_job? hfound
    refine ⟨_, ⟨hmem, ?_⟩, groups, rfl⟩
    rw [if_neg some_id]
    exact hid
  | unknown some_id missing =>
    -- the job that is named would have been found
    obtain ⟨job, hmem, hid⟩ := hjob
    rw [if_neg some_id] at hid
    rw [← hid, getJob_ok (Store.job?_eq_some hmem)] at missing
    cases missing
  | latest no_id found last groups =>
    refine ⟨_, ⟨found, ?_⟩, groups, rfl⟩
    rw [if_pos no_id]
    exact last
  | idle no_id empty =>
    obtain ⟨job, hmem, -⟩ := hjob
    rw [← Table.mem_rows, empty] at hmem
    exact absurd hmem List.not_mem_nil

/-- A status of a job within the limits is answered, it fits, and it has every task of the job,
in order, and the true number of tasks in each state. -/
theorem status_fits (h : (database F sha256).Reachable s) (hseconds : seconds.Short)
    (hruntime : context.runtime.Short) {jobId : Str} {r : Except Exn (Option (Status F))}
    (hreply : StatusReply seconds context s jobId r) (hjob : ∃ job, StatusJob s jobId job)
    (hlimits : ∀ job, StatusJob s jobId job → StatusLimits s job ∧ DrawnRows s job) :
    ∃ job status, StatusJob s jobId job ∧ r = .ok (some status) ∧
      jsonBytes (replyValue seconds context (some status)) ≤ maxStatusResponseBytes ∧
      status.tasks.map TaskItem.identity = (s.tasksOf job.id).map TaskRow.identity ∧
      (status.counts.map Prod.fst).Nodup ∧
      ∀ state n, (state, n) ∈ status.counts ↔
        0 < n ∧ n = (s.tasksOf job.id).countP fun t => t.state = state := by
  obtain ⟨job, hshown, hgroups, rfl⟩ := hreply.cases hjob
  obtain ⟨hwithin, hdrawn⟩ := hlimits job hshown
  obtain ⟨status, hstatus, hfits, htasks, hcounts⟩ :=
    jobStatus_ok h hseconds hruntime hshown.1 hwithin hdrawn hgroups
  refine ⟨job, status, hshown, ?_, hfits, htasks, ?_, ?_⟩
  · rw [hstatus]
    rfl
  · rw [hcounts]
    exact nodup_dictTally _
  · intro state n
    have hcount : ((s.tasksOf job.id).map TaskRow.state).count state =
        (s.tasksOf job.id).countP fun t => t.state = state := by
      change List.countP (fun other => decide (other = state)) _ = _
      rw [List.countP_map]
      rfl
    rw [hcounts, mem_dictTally, ← hcount]
    -- a state that is counted occurs
    constructor
    · rintro ⟨hmem, rfl⟩
      exact ⟨List.count_pos_iff.mpr hmem, rfl⟩
    · rintro ⟨hpos, rfl⟩
      exact ⟨List.count_pos_iff.mp hpos, rfl⟩

end Fits

/-! ## One task -/

/-- Whole seconds, up to a bound. -/
def demoSeconds : Seconds WholeFloat where
  stamp t              := .whole (min t 1000)
  elapsed earlier later := .whole (min (later - earlier) 1000)
  zero                 := .whole 0
  add _ x              := x
  sum xs               := xs.headD (.whole 0)
  round
    | .whole n => .whole (min n 1000)
    | x => x

theorem demoSeconds_short : demoSeconds.Short := by
  have hshort : ∀ n, (Nat.toDigits 10 (min n 1000) ++ ['.', '0']).length ≤ 24 := by
    intro n
    have hdigits : (Nat.toDigits 10 (min n 1000)).length ≤ 4 :=
      (Nat.length_toDigits_le_iff (by decide) (by decide)).mpr (by omega)
    rw [List.length_append]
    exact Nat.add_le_add hdigits (by decide : 2 ≤ 20)
  constructor
  · exact fun t => hshort t
  · intro x
    cases x with
    | whole n => exact hshort n
    | nan => decide
    | inf => decide
    | negInf => decide

/-- The counters of a new coordinator. -/
def demoContext : StatusContext WholeFloat where
  attemptsNow := 5
  now         := 5
  metricsNow  := 5
  runtime     :=
    { counters                   := ({ maxWorkers := 4 } : ResourceCoordinator).snapshot
      workerWaitSecondsTotal     := .whole 0
      workerBusySecondsTotal     := .whole 0
      repositoryWaitSecondsTotal := .whole 0
      repositoryBusySecondsTotal := .whole 0 }
  unreadable  := .valueError [] []
  groups      := [(Text.lit "codex", .running)]

def demoTaskId : Text := ⟨newId (lit "task") (List.replicate 12 0),
    isText_newId (isText_lit "task") _⟩

/-- A job with a task at its first attempt. -/
def demoTaskRun : List (Operation WholeFloat) :=
  [.call (.createJob (crowdId 0) 1
    { repo := lit "/src", goal := lit "Add the parser", baseBranch := lit "main"
      baseCommit := lit "c0", integrationBranch := lit "yolo/run/integration"
      autoApply := false }),
   .call (.addTasks (crowdId 0).val (fun _ => demoTaskId) 2
    [{ logicalId := lit "parser", title := lit "Parser", description := lit "Write it." }]),
   .call (.updateTask demoTaskId.val { state := some (lit "running"), attempts := some 1 } 3),
   .call (.startAttempt (Text.lit "attempt_1") 4
    { jobId := (crowdId 0).val, taskId := demoTaskId.val, number := 1, agent := lit "codex"
      worktree := lit "/w", branch := lit "yolo/task", logPath := lit "/log" })]

def demoStatusJob : JobRow where
  id                := crowdId 0
  repo              := Text.lit "/src"
  goal              := Text.lit "Add the parser"
  state             := .running
  baseBranch        := Text.lit "main"
  baseCommit        := Text.lit "c0"
  integrationBranch := Text.lit "yolo/run/integration"
  createdAt         := 1
  updatedAt         := 3

def demoStatusTask : TaskRow where
  id          := demoTaskId
  jobId       := crowdId 0
  seq         := 1
  logicalId   := Text.lit "parser"
  title       := Text.lit "Parser"
  description := Text.lit "Write it."
  state       := .running
  attempts    := 1
  createdAt   := 2
  updatedAt   := 3

def demoStatusAttempt : AttemptRow where
  id        := Text.lit "attempt_1"
  jobId     := crowdId 0
  taskId    := demoTaskId
  number    := 1
  agent     := Text.lit "codex"
  state     := .running
  worktree  := Text.lit "/w"
  branch    := Text.lit "yolo/task"
  logPath   := Text.lit "/log"
  startedAt := 4

theorem demoTaskRun_run : ∃ s, runOperations demoDigest demoTaskRun Store.empty = some s ∧
    s.jobs.rows = [demoStatusJob] ∧ s.tasks.rows = [demoStatusTask] ∧
    s.attempts.rows = [demoStatusAttempt] := by
  have hrun : (runOperations demoDigest demoTaskRun Store.empty).map
      (fun s => (s.jobs.rows, s.tasks.rows, s.attempts.rows)) =
      some ([demoStatusJob], [demoStatusTask], [demoStatusAttempt]) := by
    decide +kernel
  obtain ⟨s, hs, hrows⟩ := Option.map_eq_some_iff.mp hrun
  rw [Prod.mk.injEq, Prod.mk.injEq] at hrows
  exact ⟨s, hs, hrows⟩

/-- A status of that job is answered. -/
theorem status_fits_one :
    ∃ (s : Store) (status : Status WholeFloat), (database WholeFloat demoDigest).Reachable s ∧
      StatusReply demoSeconds demoContext s [] (.ok (some status)) ∧
      jsonBytes (replyValue demoSeconds demoContext (some status)) ≤ maxStatusResponseBytes ∧
      status.tasks.map TaskItem.identity =
        [⟨demoTaskId.val, lit "parser", 1, .running, 1⟩] := by
  obtain ⟨s, hs, hjobs, htasks, hattempts⟩ := demoTaskRun_run
  -- the store of the example, row by row
  have hreach := runOperations_reachable hs
  have hjob : ∀ job, job ∈ s.jobs ↔ job = demoStatusJob := by
    intro job
    rw [← Table.mem_rows, hjobs, List.mem_singleton]
  have htasksOf : s.tasksOf demoStatusJob.id = [demoStatusTask] := by
    rw [(reachable_sound hreach).tasks.tasksOf_eq, Table.select, htasks]
    decide +kernel
  have hattemptsOf : s.attemptsOf demoStatusJob.id = [demoStatusAttempt] := by
    rw [Store.attemptsOf, Table.select, hattempts]
    decide +kernel
  have hgroups : s.Groups demoStatusJob.id demoContext.groups := by
    rw [Store.Groups, hattemptsOf]
    exact .refl _
  -- the job is the latest one
  have hshown : StatusJob s [] demoStatusJob := by
    refine ⟨(hjob _).mpr rfl, ?_⟩
    rw [if_pos rfl]
    intro j hj
    rw [(hjob j).mp hj]
  have hreply : StatusReply demoSeconds demoContext s []
      ((jobStatus demoSeconds demoContext s demoStatusJob).map some) := by
    refine .latest rfl hshown.1 ?_ hgroups
    intro j hj
    rw [(hjob j).mp hj]
  -- its texts are within the limits
  have hlimits : StatusLimits s demoStatusJob := by
    constructor
    · rw [htasksOf]
      decide
    · rw [htasksOf]
      decide +kernel
    · rw [htasksOf]
      decide +kernel
    · decide +kernel
    · decide +kernel
    · decide +kernel
    · decide +kernel
    · rw [hattemptsOf]
      decide +kernel
    · rw [hattemptsOf]
      decide +kernel
  -- and its identifiers are drawn
  have hdrawn : DrawnRows s demoStatusJob := by
    constructor
    · exact ⟨List.replicate 12 0, by decide +kernel⟩
    · rw [htasksOf]
      intro t ht
      rw [List.mem_singleton.mp ht]
      exact ⟨List.replicate 12 0, by decide +kernel⟩
    · decide +kernel
    · rw [hattemptsOf]
      decide
  obtain ⟨job, status, hjob', hr, hfits, hitems, -⟩ := status_fits hreach demoSeconds_short
    ⟨by decide +kernel, by decide +kernel⟩ hreply ⟨_, hshown⟩ (by
      rintro job ⟨hmem, -⟩
      rw [(hjob job).mp hmem]
      exact ⟨hlimits, hdrawn⟩)
  rw [(hjob job).mp hjob'.1, htasksOf] at hitems
  rw [hr] at hreply
  exact ⟨s, status, hreach, hreply, hfits, hitems⟩

end OmarchyYolo
