import OmarchyYolo.AgentRegistry
import OmarchyYolo.EventDigest
import OmarchyYolo.Planner
import OmarchyYolo.ReviewEvidence
import OmarchyYolo.Status
import OmarchyYolo.Truncation

/-!
# OmarchyYolo.Dossier — the size of a dossier

`build_dossier` writes the configuration, the agents, the job, its tasks and
attempts, and the digest of its events as one canonical text, and raises where that
is longer than 512 000 bytes. Summaries are cut before they are written; the texts
of the plan and of the configuration are not.

* `Config`, `effectiveConfig`, `AgentRegistry.contracts` — what is told of the
  configuration;
* `dossierMembers`, `jobDossier` — `build_dossier`, from a store;
* `dossierBytes` — how long the text is, from its parts;
* `dossier_raised_iff`: when `build_dossier` raises.
-/

namespace OmarchyYolo

open Py PyJson Sql Txn Lts

/-! ## Configuration -/

structure Config.Engine where
  maxParallel : Nat := 4
  maxGlobalWorkers : Nat := 4
  maxAttempts : Nat := 3
  maxFinalCycles : Nat := 2
  maxTasks : Nat := 12
  agentTimeoutSeconds : Nat := 3600
  gateTimeoutSeconds : Nat := 1800
  plannerAgent : Str := lit "codex"
  reviewerAgent : Str := lit "claude"
  integratorAgent : Str := lit "codex"
  workerAgents : List Str := [lit "codex", lit "claude", lit "opencode"]
  autoApply : Bool := false
  cleanupWorktrees : Bool := true
  executionProfile : Str := lit "yolo-worktree"
  finalReviewChunkBytes : Nat := 60000
  finalReviewMaxFiles : Nat := 512
  finalReviewAllowBinary : Bool := false

/-- `GitConfig`, without the identity of the commits. -/
structure Config.Git where
  requireCleanRepo : Bool := true
  branchPrefix : Str := lit "yolo"
  commandTimeoutSeconds : Nat := 120
  allowRepositoryCommands : Bool := true

structure Config.Gates where
  commands : List Str := []
  finalCommands : List Str := []

structure Config.Sandbox extends SandboxConfig where
  gateEnvAllowlist : List Str := []
  agentEnvAllowlist : List Str := []

structure ResourcePolicy where
  backend : Str := lit "none"
  memoryMaxMib : Nat := 0
  memoryHighMib : Nat := 0
  tasksMax : Nat := 0
  cpuQuotaPercent : Nat := 0
  ioWeight : Nat := 0

structure Config where
  engine : Config.Engine := {}
  git : Config.Git := {}
  gates : Config.Gates := {}
  sandbox : Config.Sandbox := {}
  resources : ResourcePolicy := {}
  agents : List (Str × AgentConfig) := []
  safetyPreset : Str := lit "trusted-local"

/-- `DEFAULT_AGENT_COMMANDS`. -/
def defaultAgentCommands : List (Str × List Str) :=
  [(lit "codex", [lit "codex", lit "exec", lit "--full-auto", lit "--sandbox",
     lit "workspace-write"]),
   (lit "claude", [lit "claude", lit "-p", lit "--dangerously-skip-permissions",
     lit "--output-format", lit "json"]),
   (lit "opencode", [lit "opencode", lit "run", lit "--format", lit "json", lit "--auto"]),
   (lit "gemini", [lit "gemini", lit "-p"])]

/-- What `load_config` returns where there is no file. -/
def defaultConfig : Config where
  agents := defaultAgentCommands.map fun (name, command) =>
    (name, { enabled := name ≠ lit "gemini", command := command })

/-- `trust_posture`. -/
def Config.trustPosture (config : Config) : Str × Str :=
  let sandbox := config.sandbox
  if sandbox.backend = lit "bwrap" ∧ sandbox.hostileRepoMode ∧ sandbox.readOnlyHome ∧
      sandbox.networkFor (lit "review") = false ∧ sandbox.networkFor (lit "gate") = false ∧
      config.git.allowRepositoryCommands = false then
    (lit "hostile-repo",
      lit "bwrap; masked HOME/runtime; filtered env; gate/review network off; " ++
        lit "repository commands neutralized")
  else if sandbox.backend ∈ [lit "native", lit "none"] ∧ sandbox.hostileRepoMode = false ∧
      config.git.allowRepositoryCommands then
    (lit "trusted-local",
      lit "trusted repositories only; native execution is not a hostile-code " ++
        lit "security boundary")
  else
    (lit "custom",
      lit "custom isolation policy; inspect sandbox/network/Git settings before " ++
        lit "running untrusted code")

section Values

variable {F : Type}

/-- A list of strings. -/
def textList (texts : List Str) : Json F := .arr (.ofList (texts.map .str))

/-- A value that may be `None`. -/
def orNull {α : Type} (write : α → Json F) : Option α → Json F
  | some value => write value
  | none => .null

/-- `contract`, of the resources. -/
def ResourcePolicy.contract (policy : ResourcePolicy) : Json F :=
  .obj (.ofList
    [(lit "backend", .str policy.backend),
     (lit "enabled", .bool (policy.backend ≠ lit "none")),
     (lit "memory_max_mib", .int policy.memoryMaxMib),
     (lit "memory_high_mib", .int policy.memoryHighMib),
     (lit "tasks_max", .int policy.tasksMax),
     (lit "cpu_quota_percent", .int policy.cpuQuotaPercent),
     (lit "io_weight", .int policy.ioWeight)])

/-- `_effective_config`. -/
def effectiveConfig (config : Config) : Json F :=
  .obj (.ofList
    [(lit "safety", .obj (.ofList
       [(lit "preset", .str config.safetyPreset),
        (lit "effective_posture", .str config.trustPosture.1),
        (lit "detail", .str config.trustPosture.2)])),
     (lit "engine", .obj (.ofList
       [(lit "max_parallel", .int config.engine.maxParallel),
        (lit "max_global_workers", .int config.engine.maxGlobalWorkers),
        (lit "max_attempts", .int config.engine.maxAttempts),
        (lit "max_final_cycles", .int config.engine.maxFinalCycles),
        (lit "max_tasks", .int config.engine.maxTasks),
        (lit "agent_timeout_seconds", .int config.engine.agentTimeoutSeconds),
        (lit "gate_timeout_seconds", .int config.engine.gateTimeoutSeconds),
        (lit "planner_agent", .str config.engine.plannerAgent),
        (lit "reviewer_agent", .str config.engine.reviewerAgent),
        (lit "integrator_agent", .str config.engine.integratorAgent),
        (lit "worker_agents", textList config.engine.workerAgents),
        (lit "auto_apply", .bool config.engine.autoApply),
        (lit "cleanup_worktrees", .bool config.engine.cleanupWorktrees),
        (lit "execution_profile", .str config.engine.executionProfile),
        (lit "final_review_chunk_bytes", .int config.engine.finalReviewChunkBytes),
        (lit "final_review_max_files", .int config.engine.finalReviewMaxFiles),
        (lit "final_review_allow_binary", .bool config.engine.finalReviewAllowBinary)])),
     (lit "git", .obj (.ofList
       [(lit "require_clean_repo", .bool config.git.requireCleanRepo),
        (lit "branch_prefix", .str config.git.branchPrefix),
        (lit "command_timeout_seconds", .int config.git.commandTimeoutSeconds),
        (lit "allow_repository_commands", .bool config.git.allowRepositoryCommands)])),
     (lit "gates", .obj (.ofList
       [(lit "commands", textList config.gates.commands),
        (lit "final_commands", textList config.gates.finalCommands)])),
     (lit "sandbox", .obj (.ofList
       [(lit "backend", .str config.sandbox.backend),
        (lit "network", .bool config.sandbox.network),
        (lit "review_network", orNull .bool config.sandbox.reviewNetwork),
        (lit "gate_network", orNull .bool config.sandbox.gateNetwork),
        (lit "read_only_home", .bool config.sandbox.readOnlyHome),
        (lit "writable_home_paths", textList config.sandbox.writableHomePaths),
        (lit "hostile_repo_mode", .bool config.sandbox.hostileRepoMode),
        (lit "gate_env_allowlist", textList config.sandbox.gateEnvAllowlist),
        (lit "agent_env_allowlist", textList config.sandbox.agentEnvAllowlist)])),
     (lit "resources", config.resources.contract)])

/-- `contract`, of an agent. -/
def CommandAgent.contract (env : Executables) (agent : CommandAgent) : Json F :=
  let executable (command : List Str) : Str := (command.head?.bind env.which).getD []
  let explicit : Bool := agent.config.reviewCommand ≠ []
  let builtin := agent.trustedBuiltinReviewIdentity env
  .obj (.ofList
    [(lit "roles", textList ((agent.declaredRoles env).map AgentRole.value)),
     (lit "executable", .str (executable agent.config.command)),
     (lit "review_executable", .str (
       if explicit then executable agent.config.reviewCommand
       else if builtin then executable agent.config.command
       else [])),
     (lit "review_capability", .str (
       if explicit then lit "explicit-command"
       else if builtin then lit "verified-builtin"
       else lit "none"))])

/-- `contracts`; the registry has no overrides. -/
def AgentRegistry.contracts (env : Executables) (registry : AgentRegistry) : Json F :=
  .obj (.ofList (registry.agents.map fun (name, config) =>
    (name, CommandAgent.contract env ⟨name, config⟩)))

end Values

/-! ## The members of a dossier -/

def maxFingerprintBytes : Nat := 512

def maxGoalPreviewBytes : Nat := 2000

/-- What `build_dossier` raises of a dossier that is too large. -/
def dossierTooLarge : Str := lit "execution dossier exceeds the bounded serialization limit"

def previewMarker : Str := lit "...[truncated]..."

/-- What a dossier is made with. -/
structure DossierContext (F : Type) where
  sha256 : Str → Str
  clock : Timestamp → F
  env : Executables
  /-- `str(Path(path).resolve())`. -/
  resolve : Str → Str
  /-- `__version__`. -/
  version : Str

/-- The arguments of `build_dossier`, apart from the database. -/
structure DossierRequest where
  config : Config
  registry : AgentRegistry
  finalCommit : Str
  finalSummary : Str
  sourceApplyIntent : Str

section Members

variable {F : Type} [PyFloat F] (ctx : DossierContext F)

/-- `sha256_text`. -/
def sha256Text (value : Str) : Except Exn Str := do
  let _ ← utf8Bytes value
  return ctx.sha256 value

/-- `_summary_fingerprint`. -/
def summaryFingerprint (value : Str) : Except Exn (Json F) := do
  let bounded ← truncateUtf8 value maxFingerprintBytes previewMarker
  let sha256 ← sha256Text ctx value
  return .obj (.ofList [(lit "sha256", .str sha256), (lit "preview", .str bounded)])

/-- An item of `compact_tasks`. -/
def compactTask (task : TaskRow) : Except Exn (Json F) := do
  let resultSummary ← summaryFingerprint ctx task.resultSummary.val
  return .obj (.ofList
    [(lit "id", .str task.id.val),
     (lit "seq", .int task.seq),
     (lit "logical_id", .str task.logicalId.val),
     (lit "title", .str task.title.val),
     (lit "state", .str (lit task.state.value)),
     (lit "dependencies", textList (task.dependencies.map Text.val)),
     (lit "acceptance", textList (task.acceptance.map Text.val)),
     (lit "preferred_agent", orNull (fun agent => .str agent.val) task.preferredAgent),
     (lit "attempts", .int task.attempts),
     (lit "branch", .str task.branch.val),
     (lit "base_commit", .str task.baseCommit.val),
     (lit "result_summary", resultSummary)])

/-- An item of `compact_attempts`. -/
def compactAttempt (attempt : AttemptRow) : Except Exn (Json F) := do
  let summary ← summaryFingerprint ctx attempt.summary.val
  return .obj (.ofList
    [(lit "id", .str attempt.id.val),
     (lit "task_id", .str attempt.taskId.val),
     (lit "number", .int attempt.number),
     (lit "agent", .str attempt.agent.val),
     (lit "state", .str (lit attempt.state.value)),
     (lit "branch", .str attempt.branch.val),
     (lit "started_at", .float (ctx.clock attempt.startedAt)),
     (lit "finished_at", orNull (fun t => .float (ctx.clock t)) attempt.finishedAt),
     (lit "returncode", orNull .int attempt.returncode),
     (lit "summary", summary)])

/-- An item of `agent_config`. -/
def agentFingerprint (agent : AgentConfig) : Json F :=
  let commandSha256 (command : List Str) : Json F :=
    .str (ctx.sha256 (canonicalJson (textList (F := F) command)))
  .obj (.ofList
    [(lit "command_sha256", commandSha256 agent.command),
     (lit "review_command_sha256", commandSha256 agent.reviewCommand),
     (lit "roles", textList (agent.roles.map AgentRole.value))])

/-- `agent_config`. -/
def agentFingerprints (config : Config) : Json F :=
  .obj (.ofList ((config.agents.mergeSort fun a b => strLe a.1 b.1).map fun (name, agent) =>
    (name, agentFingerprint ctx agent)))

/-- The member `job`. -/
def dossierJob (request : DossierRequest) (job : JobRow) : Except Exn (Json F) := do
  let goalSha256 ← sha256Text ctx job.goal.val
  let goalPreview ← truncateUtf8 job.goal.val maxGoalPreviewBytes previewMarker
  let acceptedSummary ← summaryFingerprint ctx request.finalSummary
  return .obj (.ofList
    [(lit "id", .str job.id.val),
     (lit "repo", .str (ctx.resolve job.repo.val)),
     (lit "goal_sha256", .str goalSha256),
     (lit "goal_preview", .str goalPreview),
     (lit "base_branch", .str job.baseBranch.val),
     (lit "base_commit", .str job.baseCommit.val),
     (lit "integration_branch", .str job.integrationBranch.val),
     (lit "final_commit", .str request.finalCommit),
     (lit "auto_apply", .bool job.autoApply),
     (lit "source_apply_intent", .str request.sourceApplyIntent),
     (lit "accepted_state", .str (lit JobState.completed.value)),
     (lit "created_at", .float (ctx.clock job.createdAt)),
     (lit "accepted_summary", acceptedSummary)])

/-- The payload, without its member `event_ledger`. -/
def dossierMembers (request : DossierRequest) (job : JobRow) (tasks : List TaskRow)
    (attempts : List AttemptRow) : Except Exn (Members F) := do
  let compactTasks ← tasks.mapM (compactTask ctx)
  let compactAttempts ← attempts.mapM (compactAttempt ctx)
  let job ← dossierJob ctx request job
  return .ofList
    [(lit "dossier_schema_version", .int 1),
     (lit "omarchy_yolo_version", .str ctx.version),
     (lit "job", job),
     (lit "effective_config", effectiveConfig request.config),
     (lit "agent_contracts", request.registry.contracts ctx.env),
     (lit "agent_config_fingerprints", agentFingerprints ctx request.config),
     (lit "tasks", .arr (.ofList compactTasks)),
     (lit "attempts", .arr (.ofList compactAttempts))]

/-- `ORDER BY task_id, number`. -/
def Store.attemptsInOrder (s : Store) (jobId : Text) : List AttemptRow :=
  (s.attemptsOf jobId).mergeSort fun a b =>
    if a.taskId = b.taskId then a.number ≤ b.number else strLe a.taskId.val b.taskId.val

/-- What `provenance_snapshot` returns, as rows. -/
structure ProvenanceSnapshot (F : Type) where
  tasks : List TaskRow
  attempts : List AttemptRow
  events : List (EventDict F)

/-- `provenance_snapshot`; `none` when a payload cannot be read. -/
def provenanceSnapshot (clock : Timestamp → F) (s : Store) (jobId : Text) :
    Option (ProvenanceSnapshot F) :=
  (provenanceEvents clock s jobId).map fun events =>
    { tasks := s.tasksOf jobId, attempts := s.attemptsInOrder jobId, events := events }

/-- `build_dossier`, of what the database has returned. -/
def jobDossier (request : DossierRequest) (job : JobRow) (snapshot : ProvenanceSnapshot F) :
    Except Exn (Str × Str) := do
  let states := snapshot.tasks.map TaskRow.state
  -- the states are validated before anything is written of them
  validateJobSnapshot
    { state           := .completed
      tasks           := states
      runningOwners   := []
      stopRequested   := false
      acceptancePhase := none }
  let members ← dossierMembers ctx request job snapshot.tasks snapshot.attempts
  buildDossier ctx.sha256 states members snapshot.events

end Members

/-! ## Bytes -/

section Bytes

variable {F : Type} [PyFloat F] (ctx : DossierContext F)

/-- What `truncate_utf8` returns of a text. -/
def preview (maxBytes : Nat) (value : Str) : Str :=
  if byteLen value ≤ maxBytes then value
  else keptPart value maxBytes previewMarker ++ previewMarker

/-- The size of a fingerprint. -/
def fingerprintBytes (value : Str) : Nat :=
  22 + strBytes (ctx.sha256 value) + strBytes (preview maxFingerprintBytes value)

/-- The size of a list of texts. -/
def textsBytes (texts : List Text) : Nat := itemsBytes (texts.map fun text => strBytes text.val)

/-- The size of a value that may be missing. -/
def optionBytes {α : Type} (size : α → Nat) (value : Option α) : Nat := (value.map size).getD 4

/-- The size of a task. -/
def taskBytes (task : TaskRow) : Nat :=
  150 + strBytes task.id.val + intBytes task.seq + strBytes task.logicalId.val +
    strBytes task.title.val + strBytes (lit task.state.value) + textsBytes task.dependencies +
    textsBytes task.acceptance + optionBytes (fun agent => strBytes agent.val) task.preferredAgent +
    intBytes task.attempts + strBytes task.branch.val + strBytes task.baseCommit.val +
    fingerprintBytes ctx task.resultSummary.val

/-- The size of an attempt. -/
def attemptBytes (attempt : AttemptRow) : Nat :=
  110 + strBytes attempt.id.val + strBytes attempt.taskId.val + intBytes attempt.number +
    strBytes attempt.agent.val + strBytes (lit attempt.state.value) + strBytes attempt.branch.val +
    (PyFloat.spell (ctx.clock attempt.startedAt)).length +
    optionBytes (fun t => (PyFloat.spell (ctx.clock t)).length) attempt.finishedAt +
    optionBytes intBytes attempt.returncode + fingerprintBytes ctx attempt.summary.val

/-- The size of the job. -/
def jobBytes (request : DossierRequest) (job : JobRow) : Nat :=
  203 + strBytes job.id.val + strBytes (ctx.resolve job.repo.val) +
    strBytes (ctx.sha256 job.goal.val) + strBytes (preview maxGoalPreviewBytes job.goal.val) +
    strBytes job.baseBranch.val + strBytes job.baseCommit.val +
    strBytes job.integrationBranch.val + strBytes request.finalCommit +
    jsonBytes (.bool job.autoApply : Json F) + strBytes request.sourceApplyIntent +
    strBytes (lit JobState.completed.value) +
    (PyFloat.spell (ctx.clock job.createdAt)).length + fingerprintBytes ctx request.finalSummary

/-- The size of a dossier: the job, the configuration and the agents, the tasks, the attempts,
and the digest of the events. -/
def dossierBytes (request : DossierRequest) (job : JobRow) (snapshot : ProvenanceSnapshot F) :
    Nat :=
  164 + strBytes ctx.version + jobBytes ctx request job +
    jsonBytes (effectiveConfig request.config : Json F) +
    jsonBytes (request.registry.contracts ctx.env : Json F) +
    jsonBytes (agentFingerprints ctx request.config) +
    itemsBytes (snapshot.tasks.map (taskBytes ctx)) +
    itemsBytes (snapshot.attempts.map (attemptBytes ctx)) +
    jsonBytes ((eventDigest ctx.sha256 snapshot.events).value : Json F)

/-! ## Sizes of the parts -/

theorem truncateUtf8_preview {value : Str} (h : isText value = true) (maxBytes : Nat) :
    truncateUtf8 value maxBytes previewMarker = .ok (preview maxBytes value) := by
  rw [truncateUtf8, utf8Bytes_eq h, ok_bind, preview]
  split_ifs
  · rfl
  · rfl

omit [PyFloat F] in
theorem sha256Text_ok {value : Str} (h : isText value = true) :
    sha256Text ctx value = .ok (ctx.sha256 value) := by
  rw [sha256Text, utf8Bytes_eq h]
  rfl

theorem jsonBytes_textList (texts : List Text) :
    jsonBytes (textList (texts.map Text.val) : Json F) = textsBytes texts := by
  rw [textList, jsonBytes_items, textsBytes, List.map_map, List.map_map]
  have hone : ∀ text ∈ texts, ((jsonBytes (F := F) ∘ Json.str) ∘ Text.val) text =
      strBytes text.val := fun text _ => jsonBytes_str (F := F) text.val
  rw [List.map_congr_left hone]

theorem jsonBytes_orNull {α : Type} {write : α → Json F} {size : α → Nat}
    (h : ∀ value, jsonBytes (write value) = size value) (value : Option α) :
    jsonBytes (orNull write value) = optionBytes size value := by
  cases value with
  | none => rfl
  | some value => exact h value

theorem summaryFingerprint_bytes {value : Str} (h : isText value = true) :
    ∃ fingerprint, summaryFingerprint ctx value = .ok fingerprint ∧
      jsonBytes fingerprint = fingerprintBytes ctx value := by
  refine ⟨_, by
    rw [summaryFingerprint, truncateUtf8_preview h, ok_bind, sha256Text_ok ctx h]
    rfl, ?_⟩
  have hkeys : ([lit "sha256", lit "preview"].map fun k => strBytes k + 2).sum = 21 := by
    decide +kernel
  rw [jsonBytes_obj_keys hkeys, fingerprintBytes]
  · simp only [List.map_cons, List.map_nil, List.sum_cons, List.sum_nil, jsonBytes_str,
      ← Nat.add_assoc, Nat.add_zero, Nat.reduceAdd]
  · rfl

theorem compactTask_bytes (task : TaskRow) :
    ∃ item, compactTask ctx task = .ok item ∧ jsonBytes item = taskBytes ctx task := by
  obtain ⟨summary, hsummary, hsize⟩ := summaryFingerprint_bytes ctx
    task.resultSummary.encodes
  refine ⟨_, by rw [compactTask, hsummary]; rfl, ?_⟩
  have hkeys : ([lit "id", lit "seq", lit "logical_id", lit "title", lit "state",
      lit "dependencies", lit "acceptance", lit "preferred_agent", lit "attempts", lit "branch",
      lit "base_commit", lit "result_summary"].map fun k => strBytes k + 2).sum = 149 := by
    decide +kernel
  have hagent := jsonBytes_orNull (F := F) (fun agent : Text => jsonBytes_str agent.val)
    task.preferredAgent
  rw [jsonBytes_obj_keys hkeys, taskBytes]
  · simp only [List.map_cons, List.map_nil, List.sum_cons, List.sum_nil, jsonBytes_str,
      jsonBytes_int, jsonBytes_textList, hsize, hagent, ← Nat.add_assoc, Nat.add_zero,
      Nat.reduceAdd]
  · rfl

theorem compactAttempt_bytes (attempt : AttemptRow) :
    ∃ item, compactAttempt ctx attempt = .ok item ∧ jsonBytes item = attemptBytes ctx attempt := by
  obtain ⟨summary, hsummary, hsize⟩ := summaryFingerprint_bytes ctx attempt.summary.encodes
  refine ⟨_, by rw [compactAttempt, hsummary]; rfl, ?_⟩
  have hkeys : ([lit "id", lit "task_id", lit "number", lit "agent", lit "state", lit "branch",
      lit "started_at", lit "finished_at", lit "returncode", lit "summary"].map
      fun k => strBytes k + 2).sum = 109 := by
    decide +kernel
  have hfinished := jsonBytes_orNull (F := F) (fun t => jsonBytes_float (ctx.clock t))
    attempt.finishedAt
  have hreturncode := jsonBytes_orNull (F := F) (fun n : Int => jsonBytes_int n)
    attempt.returncode
  rw [jsonBytes_obj_keys hkeys, attemptBytes]
  · simp only [List.map_cons, List.map_nil, List.sum_cons, List.sum_nil, jsonBytes_str,
      jsonBytes_int, jsonBytes_float, hsize, hfinished, hreturncode, ← Nat.add_assoc,
      Nat.add_zero, Nat.reduceAdd]
  · rfl

theorem dossierJob_bytes {request : DossierRequest} (job : JobRow)
    (h : isText request.finalSummary = true) :
    ∃ item, dossierJob ctx request job = .ok item ∧ jsonBytes item = jobBytes ctx request job := by
  obtain ⟨summary, hsummary, hsize⟩ := summaryFingerprint_bytes ctx h
  have hgoal := truncateUtf8_preview job.goal.encodes maxGoalPreviewBytes
  have hdigest : sha256Text ctx job.goal.val = .ok (ctx.sha256 job.goal.val) :=
    sha256Text_ok ctx job.goal.encodes
  refine ⟨_, by rw [dossierJob, hdigest, ok_bind, hgoal, ok_bind, hsummary]; rfl, ?_⟩
  have hkeys : ([lit "id", lit "repo", lit "goal_sha256", lit "goal_preview", lit "base_branch",
      lit "base_commit", lit "integration_branch", lit "final_commit", lit "auto_apply",
      lit "source_apply_intent", lit "accepted_state", lit "created_at",
      lit "accepted_summary"].map fun k => strBytes k + 2).sum = 202 := by
    decide +kernel
  rw [jsonBytes_obj_keys hkeys, jobBytes]
  · simp only [List.map_cons, List.map_nil, List.sum_cons, List.sum_nil, jsonBytes_str,
      jsonBytes_float, hsize, ← Nat.add_assoc, Nat.add_zero, Nat.reduceAdd]
  · rfl

/-- Items that are written one by one. -/
theorem exists_mapM_bytes {α : Type} {write : α → Except Exn (Json F)} {size : α → Nat}
    (h : ∀ x, ∃ item, write x = .ok item ∧ jsonBytes item = size x) (xs : List α) :
    ∃ items, xs.mapM write = .ok items ∧ items.map jsonBytes = xs.map size := by
  induction xs with
  | nil => exact ⟨[], rfl, rfl⟩
  | cons x xs ih =>
    obtain ⟨item, hitem, hsize⟩ := h x
    obtain ⟨items, hitems, hsizes⟩ := ih
    refine ⟨item :: items, ?_, ?_⟩
    · rw [List.mapM_cons, hitem, hitems]
      rfl
    · rw [List.map_cons, List.map_cons, hsize, hsizes]

/-- The members of the payload, and the size that it has with a digest of events. -/
theorem dossierMembers_bytes {request : DossierRequest} (job : JobRow)
    (snapshot : ProvenanceSnapshot F) (h : isText request.finalSummary = true) :
    ∃ members, dossierMembers ctx request job snapshot.tasks snapshot.attempts =
        .ok (.ofList members) ∧
      jsonBytes (.obj (.ofList (members ++
        [(lit "event_ledger", (eventDigest ctx.sha256 snapshot.events).value)]))) =
          dossierBytes ctx request job snapshot := by
  obtain ⟨tasks, htasks, htaskSizes⟩ :=
    exists_mapM_bytes (compactTask_bytes ctx) snapshot.tasks
  obtain ⟨attempts, hattempts, hattemptSizes⟩ :=
    exists_mapM_bytes (compactAttempt_bytes ctx) snapshot.attempts
  obtain ⟨item, hitem, hsize⟩ := dossierJob_bytes ctx job h
  refine ⟨_, by rw [dossierMembers, htasks, ok_bind, hattempts, ok_bind, hitem]; rfl, ?_⟩
  have hkeys : ([lit "dossier_schema_version", lit "omarchy_yolo_version", lit "job",
      lit "effective_config", lit "agent_contracts", lit "agent_config_fingerprints", lit "tasks",
      lit "attempts", lit "event_ledger"].map fun k => strBytes k + 2).sum = 162 := by
    decide +kernel
  have hversion : jsonBytes (.int 1 : Json F) = 1 := rfl
  simp only [List.cons_append, List.nil_append]
  rw [jsonBytes_obj_keys hkeys, dossierBytes]
  · simp only [List.map_cons, List.map_nil, List.sum_cons, List.sum_nil, jsonBytes_str,
      jsonBytes_items, hversion, hsize, htaskSizes, hattemptSizes, ← Nat.add_assoc, Nat.add_zero,
      Nat.reduceAdd]
  · rfl

/-- A summary that is no text is not hashed. -/
theorem dossierMembers_error {request : DossierRequest} (job : JobRow)
    (snapshot : ProvenanceSnapshot F) (h : isText request.finalSummary = false) :
    dossierMembers ctx request job snapshot.tasks snapshot.attempts =
      .error .unicodeEncodeError := by
  obtain ⟨tasks, htasks, -⟩ :=
    exists_mapM_bytes (compactTask_bytes ctx) snapshot.tasks
  obtain ⟨attempts, hattempts, -⟩ :=
    exists_mapM_bytes (compactAttempt_bytes ctx) snapshot.attempts
  have hgoal := truncateUtf8_preview job.goal.encodes maxGoalPreviewBytes
  have hencode : utf8Bytes request.finalSummary = .error .unicodeEncodeError := by
    rw [utf8Bytes, h]
    rfl
  have hdigest : sha256Text ctx job.goal.val = .ok (ctx.sha256 job.goal.val) :=
    sha256Text_ok ctx job.goal.encodes
  rw [dossierMembers, htasks, ok_bind, hattempts, ok_bind, dossierJob, hdigest, ok_bind, hgoal,
    ok_bind, summaryFingerprint, truncateUtf8, hencode]
  rfl

/-- The canonical text is ASCII, and as long as the plain one. -/
theorem utf8Bytes_canonicalJson (value : Json F) :
    utf8Bytes (canonicalJson value) = .ok (jsonBytes value) := by
  have htext := isText_of_isPrintable (@dumps_printable F _ .wire rfl value.sortKeys)
  rw [← jsonBytes_sortKeys value]
  exact utf8Bytes_eq htext

theorem validateCompleted {states : List TaskState} (h : ∀ state ∈ states, state = .completed) :
    validateJobSnapshot
      { state           := .completed
        tasks           := states
        runningOwners   := []
        stopRequested   := false
        acceptancePhase := none } = .ok () := by
  simp only [validateJobSnapshot, bind_ok_iff, forbidIf_eq_ok, exists_const]
  refine ⟨?_, ?_, ?_, ?_, ?_, ?_, rfl⟩
  · rintro ⟨-, state, hstate, hne⟩
    exact hne (h state hstate)
  · rintro ⟨hstate, -⟩
    revert hstate
    decide
  · exact fun hstate => absurd hstate.1 (by decide)
  · exact fun hstop => absurd hstop.2 Bool.false_ne_true
  · exact fun hrunning => hrunning.1 rfl
  · rintro ⟨owner, howner, -⟩
    exact absurd howner List.not_mem_nil

theorem states_completed {tasks : List TaskRow} (h : ∀ task ∈ tasks, task.state = .completed) :
    ∀ state ∈ tasks.map TaskRow.state, state = .completed := by
  intro state hstate
  obtain ⟨task, htask, rfl⟩ := List.mem_map.mp hstate
  exact h task htask

/-- `build_dossier`, where all tasks are completed. -/
theorem jobDossier_eq {request : DossierRequest} (job : JobRow) {snapshot : ProvenanceSnapshot F}
    (hdone : ∀ task ∈ snapshot.tasks, task.state = .completed)
    (h : isText request.finalSummary = true) :
    ∃ content, utf8Bytes content = .ok (dossierBytes ctx request job snapshot) ∧
      jobDossier ctx request job snapshot =
        if maxDossierBytes < dossierBytes ctx request job snapshot then raise dossierTooLarge
        else .ok (content, ctx.sha256 content) := by
  obtain ⟨members, hmembers, hbytes⟩ := dossierMembers_bytes ctx job snapshot h
  have hvalid := validateCompleted (states_completed hdone)
  have hcontent : dossierContent (Members.ofList members) (eventDigest ctx.sha256 snapshot.events) =
      canonicalJson (.obj (.ofList (members ++
        [(lit "event_ledger", (eventDigest ctx.sha256 snapshot.events).value)]))) := by
    rw [dossierContent, Members.append_ofList]
  refine ⟨_, utf8Bytes_canonicalJson _ |>.trans (congrArg Except.ok hbytes), ?_⟩
  rw [jobDossier, hvalid, ok_bind, hmembers, ok_bind, buildDossier, hvalid, ok_bind, hcontent]
  dsimp only
  rw [utf8Bytes_canonicalJson, hbytes, ok_bind, rejectIf]
  split_ifs
  · rfl
  · rfl

theorem jobDossier_error {request : DossierRequest} (job : JobRow) {snapshot : ProvenanceSnapshot F}
    (hdone : ∀ task ∈ snapshot.tasks, task.state = .completed)
    (h : isText request.finalSummary = false) :
    jobDossier ctx request job snapshot = .error .unicodeEncodeError := by
  rw [jobDossier, validateCompleted (states_completed hdone), ok_bind,
    dossierMembers_error ctx job snapshot h]
  rfl

/-! ## When it raises -/

/-- The snapshot of a job in a reachable store can be read. -/
theorem exists_provenanceSnapshot {sha256 : Str → Str} {s : Store}
    (hreach : (database F sha256).Reachable s) (clock : Timestamp → F) (jobId : Text) :
    ∃ snapshot, provenanceSnapshot clock s jobId = some snapshot ∧
      snapshot.tasks = s.tasksOf jobId ∧ snapshot.attempts = s.attemptsInOrder jobId := by
  have hledger := reachable_ledger hreach
  obtain ⟨events, hevents⟩ : ∃ events, provenanceEvents clock s jobId = some events := by
    apply exists_eventDicts
    intro row hrow
    rw [hledger.eventsOf_eq, Table.mem_select] at hrow
    exact hledger.readable row hrow.1
  rw [provenanceSnapshot, hevents]
  exact ⟨_, rfl, rfl, rfl⟩

/-- Of a job whose tasks are all completed, whatever the configuration, the plan and the
attempts: `build_dossier` raises its limit error exactly when the parts of the dossier add up to
more than 512 000 bytes, and otherwise returns a text of just that size and its digest. -/
theorem dossier_raised_iff {s : Store} {job : JobRow} (request : DossierRequest)
    (hreach : (database F ctx.sha256).Reachable s)
    (hdone : ∀ task ∈ s.tasksOf job.id, task.state = .completed) :
    ∃ snapshot, provenanceSnapshot ctx.clock s job.id = some snapshot ∧
      (jobDossier ctx request job snapshot = raise dossierTooLarge ↔
        isText request.finalSummary = true ∧
          maxDossierBytes < dossierBytes ctx request job snapshot) ∧
      (isText request.finalSummary = true →
        dossierBytes ctx request job snapshot ≤ maxDossierBytes →
        ∃ content, jobDossier ctx request job snapshot = .ok (content, ctx.sha256 content) ∧
          utf8Bytes content = .ok (dossierBytes ctx request job snapshot)) := by
  obtain ⟨snapshot, hsnapshot, htasks, -⟩ := exists_provenanceSnapshot hreach ctx.clock job.id
  have hcompleted : ∀ task ∈ snapshot.tasks, task.state = .completed := by
    rw [htasks]
    exact hdone
  refine ⟨snapshot, hsnapshot, ?_⟩
  cases htext : isText request.finalSummary with
  | false =>
    have herror := jobDossier_error ctx job hcompleted htext
    refine ⟨iff_of_false ?_ ?_, fun h => absurd h Bool.false_ne_true⟩
    · rw [herror]
      exact nofun
    · exact fun h => absurd h.1 Bool.false_ne_true
  | true =>
    obtain ⟨content, hbytes, hdossier⟩ := jobDossier_eq ctx job hcompleted htext
    rw [hdossier]
    refine ⟨?_, ?_⟩
    · rw [and_iff_right rfl]
      split_ifs with hlarge
      · exact iff_of_true rfl hlarge
      · exact iff_of_false nofun hlarge
    · intro _ hfits
      rw [if_neg (Nat.not_lt.mpr hfits)]
      exact ⟨content, rfl, hbytes⟩

end Bytes

/-! ## A plan that is too long -/

/-- A criterion of 1000 characters, each of which is written in twelve. -/
def wideCriterion : Str := List.replicate 1000 (.scalar '😀')

/-- Three tasks, with as many such criteria as a task may have. -/
def widePlan : List PlannedTask :=
  ["T1", "T2", "T3"].map fun name =>
    { logicalId := lit name, title := lit "Icons", description := lit "Draw the icons"
      dependsOn := [], acceptance := List.replicate 16 wideCriterion, preferredAgent := none
      risk := lit "medium" }

/-- One attempt, after which the task is completed. -/
def completedIn (taskId attemptId : String) : List (Operation NonFinite) :=
  [.call (.updateTask (lit taskId) { state := some (lit "running"), attempts := some 1 } 3),
   .call (.startAttempt (Text.lit attemptId) 3
    { jobId := lit "job-1", taskId := lit taskId, number := 1, agent := lit "claude"
      worktree := lit "/task", branch := lit "task", logPath := lit "/log" }),
   .call (.finishAttempt (lit attemptId) (lit "passed") (some 0) [] 4),
   .call (.updateTask (lit taskId) { state := some (lit "reviewing") } 4),
   .call (.updateTask (lit taskId) { state := some (lit "integrating") } 4),
   .call (.updateTask (lit taskId) { state := some (lit "completed") } 4)]

/-- The job is planned, and its tasks are completed one after the other. -/
def wideRun : List (Operation NonFinite) :=
  demoAccepted.take 1 ++
    [.call (.updateJob (lit "job-1") { state := some (lit "planning") } 2),
     .call (.addTasks (lit "job-1")
      (fun n => Text.lit (if n = 1 then "task-1" else if n = 2 then "task-2" else "task-3"))
      2 widePlan),
     .call (.updateJob (lit "job-1") { state := some (lit "running") } 2)] ++
    completedIn "task-1" "attempt-1" ++ completedIn "task-2" "attempt-2" ++
    completedIn "task-3" "attempt-3"

/-- How many attempts a task has. -/
def attemptCount (s : Store) (task : TaskRow) : Nat :=
  (s.attempts.rows.filter fun a => a.taskId == task.id).length

/-- What the run leaves of a task. -/
structure WideTask where
  jobId : Text
  state : TaskState
  attempts : Nat
  acceptance : List Str
deriving DecidableEq

def wideTask (s : Store) (task : TaskRow) : WideTask :=
  ⟨task.jobId, task.state, attemptCount s task, task.acceptance.map Text.val⟩

def wideOutcome (s : Store) : List Text × List WideTask :=
  (s.jobs.rows.map JobRow.id, s.tasks.rows.map (wideTask s))

theorem wideRun_outcome : (runOperations demoDigest wideRun Store.empty).map wideOutcome =
    some ([Text.lit "job-1"], List.replicate 3
      ⟨Text.lit "job-1", .completed, 1, List.replicate 16 wideCriterion⟩) := by
  decide +kernel

/-- What the dossier is made with; the agents are not installed. -/
def wideContext : DossierContext NonFinite where
  sha256 := demoDigest
  clock _ := .nan
  env := { which := fun _ => none, resolve := fun path => path }
  resolve path := path
  version := lit "1.4.2"

/-- The configuration is the default one. -/
def wideRequest : DossierRequest where
  config := defaultConfig
  registry := ⟨defaultConfig.agents, by decide +kernel⟩
  finalCommit := lit "c1"
  finalSummary := lit "Drawn"
  sourceApplyIntent := lit "not-requested"

theorem strBytes_wideCriterion : strBytes wideCriterion = 12002 := by
  have hescape : (escape .wire (.scalar '😀')).length = 12 := by decide +kernel
  rw [wideCriterion, strBytes_replicate, hescape]

theorem taskBytes_wide {F : Type} [PyFloat F] (ctx : DossierContext F) {task : TaskRow}
    (h : task.acceptance.map Text.val = List.replicate 16 wideCriterion) :
    192049 ≤ taskBytes ctx task := by
  have htexts : textsBytes task.acceptance = 192049 := by
    have hsizes : task.acceptance.map (fun text => strBytes text.val) =
        List.replicate 16 12002 := by
      have hmap := congrArg (List.map strBytes) h
      rw [List.map_map, List.map_replicate, strBytes_wideCriterion] at hmap
      exact hmap
    rw [textsBytes, hsizes]
    decide +kernel
  rw [taskBytes, htexts]
  omega

theorem le_dossierBytes {F : Type} [PyFloat F] (ctx : DossierContext F) (request : DossierRequest)
    (job : JobRow) (snapshot : ProvenanceSnapshot F) :
    (snapshot.tasks.map (taskBytes ctx)).sum ≤ dossierBytes ctx request job snapshot := by
  have htasks := sum_le_itemsBytes (snapshot.tasks.map (taskBytes ctx))
  rw [dossierBytes]
  omega

theorem widePlan_validated : validate defaultConfig.engine.maxTasks widePlan = .ok () := by
  decide +kernel

/-- The store of the run, and its job. -/
structure Wide (s : Store) (j : JobRow) : Prop where
  run : runOperations demoDigest wideRun Store.empty = some s
  job : j ∈ s.jobs ∧ j.id = Text.lit "job-1"
  count : (s.tasksOf j.id).length = 3
  tasks : ∀ task ∈ s.tasksOf j.id, wideTask s task =
    ⟨Text.lit "job-1", .completed, 1, List.replicate 16 wideCriterion⟩

theorem exists_wide : ∃ s j, Wide s j := by
  obtain ⟨s, hs, houtcome⟩ := Option.map_eq_some_iff.mp wideRun_outcome
  rw [wideOutcome, Prod.mk.injEq] at houtcome
  obtain ⟨hjobs, htasks⟩ := houtcome
  have hjob : Text.lit "job-1" ∈ s.jobs.rows.map JobRow.id := by
    rw [hjobs]
    exact List.mem_singleton.mpr rfl
  obtain ⟨j, hmem, hid⟩ := List.mem_map.mp hjob
  have htask : ∀ task ∈ s.tasks.rows, wideTask s task =
      ⟨Text.lit "job-1", .completed, 1, List.replicate 16 wideCriterion⟩ := by
    intro task hrow
    have hone := List.mem_map_of_mem (f := wideTask s) hrow
    rw [htasks] at hone
    exact List.eq_of_mem_replicate hone
  -- all tasks are the job's, in the order of their numbers
  have hall : s.tasksOf j.id = s.tasks.rows := by
    rw [(reachable_sound (runOperations_reachable hs)).tasks.tasksOf_eq, hid]
    refine List.filter_eq_self.mpr ?_
    intro task hrow
    exact beq_iff_eq.mpr (congrArg WideTask.jobId (htask task hrow))
  refine ⟨s, j, hs, ⟨hmem, hid⟩, ?_, ?_⟩
  · have hlength := congrArg List.length htasks
    rwa [List.length_map, List.length_replicate, ← hall] at hlength
  · rw [hall]
    exact htask

theorem Wide.completed {s : Store} {j : JobRow} (h : Wide s j) :
    ∀ task ∈ s.tasksOf j.id, task.state = .completed := by
  intro task htask
  exact congrArg WideTask.state (h.tasks task htask)

theorem Wide.dossierBytes {s : Store} {job : JobRow} (h : Wide s job)
    {snapshot : ProvenanceSnapshot NonFinite} (htasks : snapshot.tasks = s.tasksOf job.id) :
    maxDossierBytes < dossierBytes wideContext wideRequest job snapshot := by
  have hlarge : ∀ task ∈ s.tasksOf job.id, 192049 ≤ taskBytes wideContext task := by
    intro task htask
    exact taskBytes_wide wideContext (congrArg WideTask.acceptance (h.tasks task htask))
  have hsum := le_sum_map hlarge
  have hle := le_dossierBytes wideContext wideRequest job snapshot
  rw [h.count] at hsum
  rw [htasks] at hle
  rw [maxDossierBytes]
  omega

/-- The default configuration, a plan that is accepted under it, and a store in which its tasks
are completed with one attempt each: their dossier is not written. -/
theorem wide_plan_not_journaled :
    validate defaultConfig.engine.maxTasks widePlan = .ok () ∧
    ∃ s job snapshot, runOperations demoDigest wideRun Store.empty = some s ∧
      (job ∈ s.jobs ∧ job.id = Text.lit "job-1") ∧
      (s.tasksOf job.id).length = widePlan.length ∧
      (∀ task ∈ s.tasksOf job.id, task.state = .completed ∧
        attemptCount s task ≤ defaultConfig.engine.maxAttempts) ∧
      provenanceSnapshot wideContext.clock s job.id = some snapshot ∧
      jobDossier wideContext wideRequest job snapshot = raise dossierTooLarge := by
  refine ⟨widePlan_validated, ?_⟩
  obtain ⟨s, job, hwide⟩ := exists_wide
  obtain ⟨snapshot, hsnapshot, htasks, -⟩ := exists_provenanceSnapshot
    (runOperations_reachable hwide.run) wideContext.clock job.id
  have hdone : ∀ task ∈ snapshot.tasks, task.state = .completed := by
    rw [htasks]
    exact hwide.completed
  have hsummary : isText wideRequest.finalSummary = true := isText_lit _
  obtain ⟨content, -, hdossier⟩ := jobDossier_eq wideContext job hdone hsummary
  refine ⟨s, job, snapshot, hwide.run, hwide.job, hwide.count, ?_, hsnapshot, ?_⟩
  · intro task htask
    have hcount : attemptCount s task = 1 := congrArg WideTask.attempts (hwide.tasks task htask)
    refine ⟨hwide.completed task htask, ?_⟩
    rw [hcount]
    decide
  · rw [hdossier, if_pos (hwide.dossierBytes htasks)]

/-- The same store: what is raised is the size of the dossier. -/
theorem dossier_raised_wide : ∃ s job snapshot, job ∈ s.jobs ∧
    provenanceSnapshot wideContext.clock s job.id = some snapshot ∧
      (jobDossier wideContext wideRequest job snapshot = raise dossierTooLarge ↔
        maxDossierBytes < dossierBytes wideContext wideRequest job snapshot) := by
  obtain ⟨s, job, hwide⟩ := exists_wide
  obtain ⟨snapshot, hsnapshot, hraised, -⟩ := dossier_raised_iff wideContext
    wideRequest (runOperations_reachable hwide.run) hwide.completed
  have hsummary : isText wideRequest.finalSummary = true := isText_lit _
  refine ⟨s, job, snapshot, hwide.job.1, hsnapshot, ?_⟩
  rw [hraised, and_iff_right hsummary]

end OmarchyYolo
