import OmarchyYolo.BranchNames
import OmarchyYolo.Dossier
import OmarchyYolo.Lib.JsonLimits
import OmarchyYolo.Lib.JsonTables
import OmarchyYolo.Lib.PyRepr
import OmarchyYolo.Sandbox

/-!
# OmarchyYolo.LoadConfig — the configuration file

`load_config` reads a TOML document section by section. A setting that is absent has
its default, one that is there is checked, and the `hostile-repo` preset changes some
defaults and refuses what would weaken it.

* `loadConfig` — `load_config`, on the document that was parsed;
* `Config.postInit` — `__post_init__`;
* `LoadedConfig.WellFormed` — what the checks leave of a configuration;
* `loadConfig_ok`: what a document gives is well formed.
-/

namespace OmarchyYolo

open Py PyJson

/-! ## Values -/

/-- What `int(value)` raises. -/
inductive IntError where
  | typeError
  | valueError
  | overflowError
deriving DecidableEq, Repr

/-- What `str(value)` raises: the `ValueError` of an integer with more digits than it writes,
or the `RecursionError` of a table that is nested too deep, as dotted keys can write it. -/
inductive StrError where
  | valueError
  | recursionError
deriving DecidableEq, Repr

def StrError.exn : StrError → Exn
  | .valueError => .intLimitError
  | .recursionError => .recursionError

/-- What Python makes of the values of a document; `D` are its floats, dates and times. -/
structure Builtins (D : Type) where
  /-- The most digits of an integer that `str` writes. -/
  digits : Nat
  /-- `str(value)`, of a float, a date, a list or a table. -/
  shown : Json D → Except StrError Str
  /-- Lone surrogates are escaped in what is shown. -/
  isText_shown : ∀ value text, shown value = .ok text → isText text = true
  /-- `int(value)`, of a text; none where it is no numeral. -/
  numeral : Str → Option Int
  /-- `int(value)`, of a float or a date. -/
  intOf : D → Except IntError Int
  /-- `str.isprintable`, beyond ASCII. -/
  printable : Char → Bool

/-- A Python that reads nothing but integers as numbers. -/
def plainBuiltins {D : Type} : Builtins D where
  digits      := 4300
  shown _     := .ok []
  isText_shown := by
    rintro value text h
    cases h
    rfl
  numeral _   := none
  intOf _     := .error .valueError
  printable _ := false

/-- A configuration, with the identity of the commits. -/
structure LoadedConfig extends Config where
  commitName : Str := lit "Omarchy YOLO"
  commitEmail : Str := lit "omarchy-yolo@localhost"

section Load

variable {D : Type} (B : Builtins D)

/-- `str`. -/
def Builtins.str : Json D → Except Exn Str
  | .str text => .ok text
  | .bool b => .ok (if b then lit "True" else lit "False")
  | .int n => if digitCount n ≤ B.digits then .ok (dumpsInt n) else .error .intLimitError
  | value => (B.shown value).mapError StrError.exn

/-- `int`. -/
def Builtins.int : Json D → Except IntError Int
  | .int n => .ok n
  | .bool b => .ok (if b then 1 else 0)
  | .str text => match B.numeral text with
    | some n => .ok n
    | none => .error .valueError
  | .float x => B.intOf x
  | _ => .error .typeError

/-- `_section`. -/
def sectionOf (data : Members D) (key : Str) : Members D :=
  match data.get? key with
  | some (.obj ms) => ms
  | _ => .nil

/-- `table.get(key, default)`. -/
def setting (table : Members D) (key : String) (default : Json D := .null) : Json D :=
  (table.get? (lit key)).getD default

/-- `key in table`. -/
def holds (table : Members D) (key : String) : Bool := (table.get? (lit key)).isSome

/-- `_tuple_str`. -/
def tupleStr (value : Json D) (default : List Str := []) : Except Exn (List Str) :=
  match value with
  | .arr xs => xs.toList.mapM B.str
  | _ => .ok default

/-- `_bounded_int`. -/
def Builtins.boundedInt (value : Json D) (minimum maximum : Nat) (name : Str) : Except Exn Nat :=
  match B.int value with
  | .error .overflowError => .error .overflowError
  | .error _ => raise (name ++ lit " must be an integer")
  | .ok parsed => do
    rejectIf (¬ (minimum ≤ parsed ∧ parsed ≤ maximum))
      (name ++ lit " must be between " ++ decimal minimum ++ lit " and " ++ decimal maximum)
    return parsed.toNat

/-- `_strict_bool`. -/
def strictBool (value : Json D) (default : Bool) (name : Str) : Except Exn Bool :=
  match value with
  | .null => .ok default
  | .bool b => .ok b
  | _ => raise (name ++ lit " must be true or false")

/-- `_optional_bool`. -/
def optionalBool (value : Json D) (name : Str) : Except Exn (Option Bool) :=
  match value with
  | .null => .ok none
  | .bool b => .ok (some b)
  | _ => raise (name ++ lit " must be true or false")

/-- `_agent_name`, of the text of the value. -/
def agentName (value fieldName : Str) : Except Exn Str := do
  let name := strip value
  rejectIf (matchesAgentRe name = false) (fieldName ++ lit " must be a safe agent identifier")
  return name

/-- `_agent_names`. -/
def agentNames (value : Json D) (default : List Str) (fieldName : Str) :
    Except Exn (List Str) := do
  let names ← tupleStr B value default
  rejectIf (names = []) (fieldName ++ lit " must contain at least one agent")
  names.mapM fun name => agentName name fieldName

/-- The characters that an identity may not hold. -/
def isIdentityBreak (c : PyChar) : Bool :=
  c == .scalar '\x00' || c == .scalar '\r' || c == .scalar '\n'

/-- `_identity_value`, of the text of the value. -/
def identityValue (value fieldName : Str) (maximum : Nat) : Except Exn Str := do
  let identity := strip value
  rejectIf (identity = []) (fieldName ++ lit " cannot be empty")
  rejectIf (identity.any isIdentityBreak) (fieldName ++ lit " cannot contain control line breaks")
  rejectIf (maximum < identity.length)
    (fieldName ++ lit " cannot exceed " ++ decimal maximum ++ lit " characters")
  return identity

/-- The loop of `_environment_names` and `_agent_roles`: what is read of each item, without
the repeats. -/
def collectNew {α : Type} [DecidableEq α] (read : Str → Except Exn α) :
    List α → List Str → Except Exn (List α)
  | clean, [] => .ok clean
  | clean, raw :: names => do
    let item ← read raw
    collectNew read (if item ∈ clean then clean else clean ++ [item]) names

/-- `[A-Za-z_]`. -/
def isEnvStart (c : PyChar) : Bool :=
  match c with
  | .scalar c => ('A' ≤ c && c ≤ 'Z') || ('a' ≤ c && c ≤ 'z') || c == '_'
  | .surrogate _ _ => false

/-- `_ENV_NAME_RE`. -/
def matchesEnvNameRe : Str → Bool
  | c :: rest => isEnvStart c && rest.all fun d => isAlnum d || d == .scalar '_'
  | [] => false

def environmentName (fieldName raw : Str) : Except Exn Str := do
  let name := strip raw
  rejectIf (matchesEnvNameRe name = false)
    (fieldName ++ lit " contains an invalid environment variable name")
  return name

/-- `_environment_names`. -/
def environmentNames (value : Json D) (fieldName : Str) : Except Exn (List Str) := do
  collectNew (environmentName fieldName) [] (← tupleStr B value)

/-- The role of a name. -/
def AgentRole.ofValue? (value : Str) : Option AgentRole :=
  [AgentRole.worker, .planner, .reviewer, .integrator].find? (·.value = value)

def agentRole (fieldName raw : Str) : Except Exn AgentRole :=
  match AgentRole.ofValue? (lower (strip raw)) with
  | some role => .ok role
  | none => raise (fieldName ++ lit " contains invalid role " ++
      reprStr B.printable (lower (strip raw)) ++
      lit "; expected one of ['integrator', 'planner', 'reviewer', 'worker']")

/-- `_agent_roles`. -/
def agentRoles (value : Json D) (fieldName : Str) : Except Exn (List AgentRole) :=
  match value with
  | .null => .ok []
  | .arr xs => do collectNew (agentRole B fieldName) [] (← xs.toList.mapM B.str)
  | _ => raise (fieldName ++ lit " must be an array of role names")

/-! ## Sections -/

/-- `_SAFETY_PRESETS`. -/
def safetyPresets : List Str := [lit "custom", lit "hostile-repo", lit "trusted-local"]

/-- `_safety_preset`. -/
def loadSafetyPreset (data : Members D) : Except Exn Str := do
  let preset := lower (strip
    (← B.str (setting (sectionOf data (lit "safety")) "preset" (.str (lit "trusted-local")))))
  rejectIf (preset ∉ safetyPresets)
    (lit "safety.preset must be one of ['custom', 'hostile-repo', 'trusted-local']")
  return preset

/-- An integer of a section, with its default. -/
def intSetting (sectionName : String) (table : Members D) (key : String)
    (default minimum maximum : Nat) : Except Exn Nat :=
  B.boundedInt (setting table key (.int default)) minimum maximum
    (lit sectionName ++ lit "." ++ lit key)

/-- A boolean of a section, with its default. -/
def boolSetting (sectionName : String) (table : Members D) (key : String) (default : Bool) :
    Except Exn Bool :=
  strictBool (setting table key) default (lit sectionName ++ lit "." ++ lit key)

def loadEngine (e : Members D) : Except Exn Config.Engine := do
  rejectIf (holds e "final_review_chunk_files")
    (lit "engine.final_review_chunk_files was removed in v1.4.2; raw review shards are " ++
      lit "intentionally file-local")
  let executionProfile ← B.str (setting e "execution_profile" (.str (lit "yolo-worktree")))
  rejectIf (executionProfile ∉ [lit "yolo-worktree", lit "danger-yolo"])
    (lit "engine.execution_profile must be 'yolo-worktree' or 'danger-yolo'")
  let maxParallel ← intSetting B "engine" e "max_parallel" 4 1 64
  let maxGlobalWorkers ← intSetting B "engine" e "max_global_workers" 4 1 128
  let maxAttempts ← intSetting B "engine" e "max_attempts" 3 1 20
  let maxFinalCycles ← intSetting B "engine" e "max_final_cycles" 2 0 20
  let maxTasks ← intSetting B "engine" e "max_tasks" 12 1 256
  let agentTimeoutSeconds ← intSetting B "engine" e "agent_timeout_seconds" 3600 1 86400
  let gateTimeoutSeconds ← intSetting B "engine" e "gate_timeout_seconds" 1800 1 86400
  let plannerAgent ← agentName (← B.str (setting e "planner_agent" (.str (lit "codex"))))
    (lit "engine.planner_agent")
  let reviewerAgent ← agentName (← B.str (setting e "reviewer_agent" (.str (lit "claude"))))
    (lit "engine.reviewer_agent")
  let integratorAgent ← agentName (← B.str (setting e "integrator_agent" (.str (lit "codex"))))
    (lit "engine.integrator_agent")
  let workerAgents ← agentNames B (setting e "worker_agents")
    [lit "codex", lit "claude", lit "opencode"] (lit "engine.worker_agents")
  let autoApply ← boolSetting "engine" e "auto_apply" false
  let cleanupWorktrees ← boolSetting "engine" e "cleanup_worktrees" true
  let finalReviewChunkBytes ←
    intSetting B "engine" e "final_review_chunk_bytes" 60000 8000 120000
  let finalReviewMaxFiles ← intSetting B "engine" e "final_review_max_files" 512 1 4096
  let finalReviewAllowBinary ← boolSetting "engine" e "final_review_allow_binary" false
  return { maxParallel, maxGlobalWorkers, maxAttempts, maxFinalCycles, maxTasks,
           agentTimeoutSeconds, gateTimeoutSeconds, plannerAgent, reviewerAgent,
           integratorAgent, workerAgents, autoApply, cleanupWorktrees, executionProfile,
           finalReviewChunkBytes, finalReviewMaxFiles, finalReviewAllowBinary }

/-- `key in table and table[key] is not value`. -/
def contradicts (table : Members D) (key : String) (value : Bool) : Bool :=
  match table.get? (lit key) with
  | none => false
  | some (.bool b) => b != value
  | some _ => true

/-- `table.get(key) is True`. -/
def saysTrue (table : Members D) (key : String) : Bool :=
  match table.get? (lit key) with
  | some (.bool b) => b
  | _ => false

/-- The message of a setting that the preset forbids. -/
def presetConflict (path : String) : Str :=
  lit "safety.preset='hostile-repo' conflicts with " ++ lit path

/-- `False if hostile_preset and key not in s else _optional_bool(...)`. -/
def networkSetting (hostilePreset : Bool) (s : Members D) (key : String) :
    Except Exn (Option Bool) :=
  if hostilePreset ∧ holds s key = false then .ok (some false)
  else optionalBool (setting s key) (lit "sandbox." ++ lit key)

/-- `"backend" in s and str(s["backend"]) != "bwrap"`. -/
def otherBackend (s : Members D) : Except Exn Bool :=
  match s.get? (lit "backend") with
  | none => .ok false
  | some value => do return (← B.str value) ≠ lit "bwrap"

/-- What the preset refuses of the sandbox. -/
def rejectConflicts (hostilePreset : Bool) (s : Members D) : Except Exn Unit :=
  if hostilePreset = false then .ok () else do
  rejectIf (← otherBackend B s) (presetConflict "sandbox.backend")
  rejectIf (contradicts s "hostile_repo_mode" true) (presetConflict "sandbox.hostile_repo_mode")
  rejectIf (contradicts s "read_only_home" true) (presetConflict "sandbox.read_only_home")
  rejectIf (contradicts s "review_network" false) (presetConflict "sandbox.review_network")
  rejectIf (contradicts s "gate_network" false) (presetConflict "sandbox.gate_network")

def loadSandbox (hostilePreset : Bool) (s : Members D) : Except Exn Config.Sandbox := do
  rejectConflicts B hostilePreset s
  let backend ← B.str (setting s "backend"
    (.str (if hostilePreset then lit "bwrap" else lit "native")))
  rejectIf (backend ∉ [lit "native", lit "none", lit "bwrap"])
    (lit "sandbox.backend must be 'native', 'none', or 'bwrap'")
  let hostileRepoMode ← boolSetting "sandbox" s "hostile_repo_mode" hostilePreset
  rejectIf (hostileRepoMode ∧ backend ≠ lit "bwrap")
    (lit "sandbox.hostile_repo_mode requires sandbox.backend='bwrap'")
  let network ← boolSetting "sandbox" s "network" true
  let reviewNetwork ← networkSetting hostilePreset s "review_network"
  let gateNetwork ← networkSetting hostilePreset s "gate_network"
  let readOnlyHome ← boolSetting "sandbox" s "read_only_home" hostilePreset
  let writableHomePaths ← cleanHomePaths (← tupleStr B (setting s "writable_home_paths"))
  let gateEnvAllowlist ← environmentNames B (setting s "gate_env_allowlist")
    (lit "sandbox.gate_env_allowlist")
  let agentEnvAllowlist ← environmentNames B (setting s "agent_env_allowlist")
    (lit "sandbox.agent_env_allowlist")
  return { backend, network, reviewNetwork, gateNetwork, readOnlyHome, writableHomePaths,
           hostileRepoMode, gateEnvAllowlist, agentEnvAllowlist }

/-- The `[git]` section, and the name and address of the commits. -/
def loadGit (hostilePreset hostileRepoMode : Bool) (g : Members D) :
    Except Exn (Config.Git × Str × Str) := do
  rejectIf (hostilePreset ∧ saysTrue g "allow_repository_commands")
    (presetConflict "git.allow_repository_commands=true")
  let allowRepositoryCommands ←
    boolSetting "git" g "allow_repository_commands" (!hostileRepoMode)
  rejectIf (hostileRepoMode ∧ allowRepositoryCommands)
    (lit "sandbox.hostile_repo_mode requires git.allow_repository_commands=false")
  let requireCleanRepo ← boolSetting "git" g "require_clean_repo" true
  let branchPrefix ← branchPrefix (← B.str (setting g "branch_prefix" (.str (lit "yolo"))))
  let commitName ← identityValue (← B.str (setting g "commit_name" (.str (lit "Omarchy YOLO"))))
    (lit "git.commit_name") 200
  let commitEmail ← identityValue
    (← B.str (setting g "commit_email" (.str (lit "omarchy-yolo@localhost"))))
    (lit "git.commit_email") 320
  let commandTimeoutSeconds ← intSetting B "git" g "command_timeout_seconds" 120 5 900
  return ({ requireCleanRepo, branchPrefix, commandTimeoutSeconds, allowRepositoryCommands },
    commitName, commitEmail)

def loadGates (gatesSection : Members D) : Except Exn Config.Gates := do
  let commands ← tupleStr B (setting gatesSection "commands")
  let finalCommands ← tupleStr B (setting gatesSection "final_commands")
  return { commands, finalCommands }

def loadResources (r : Members D) : Except Exn ResourcePolicy := do
  let backend ← B.str (setting r "backend" (.str (lit "none")))
  rejectIf (backend ∉ [lit "none", lit "systemd"])
    (lit "resources.backend must be 'none' or 'systemd'")
  let memoryHighMib ← intSetting B "resources" r "memory_high_mib" 0 0 1048576
  let memoryMaxMib ← intSetting B "resources" r "memory_max_mib" 0 0 1048576
  rejectIf (memoryHighMib ≠ 0 ∧ memoryMaxMib ≠ 0 ∧ memoryMaxMib < memoryHighMib)
    (lit "resources.memory_high_mib cannot exceed resources.memory_max_mib")
  let tasksMax ← intSetting B "resources" r "tasks_max" 0 0 1000000
  let cpuQuotaPercent ← intSetting B "resources" r "cpu_quota_percent" 0 0 10000
  let ioWeight ← intSetting B "resources" r "io_weight" 0 0 10000
  return { backend, memoryMaxMib, memoryHighMib, tasksMax, cpuQuotaPercent, ioWeight }

/-- An agent, from its table. -/
def loadAgent (raw : Members D) (name : Str) (enabled : Bool) (command : List Str) :
    Except Exn AgentConfig := do
  let enabled ← strictBool (setting raw "enabled") enabled
    (lit "agents." ++ name ++ lit ".enabled")
  let command ← tupleStr B (setting raw "command") command
  let reviewCommand ← tupleStr B (setting raw "review_command")
  let roles ← agentRoles B (setting raw "roles") (lit "agents." ++ name ++ lit ".roles")
  return { enabled, command, reviewCommand, roles }

/-- The loop over `DEFAULT_AGENT_COMMANDS`. -/
def loadDefaultAgents (agents : Members D) :
    List (Str × List Str) → Except Exn (List (Str × AgentConfig))
  | [] => .ok []
  | (name, command) :: rest => do
    let agent ← loadAgent B (sectionOf agents name) name (name ≠ lit "gemini") command
    let others ← loadDefaultAgents agents rest
    return (name, agent) :: others

/-- The loop over the items of `[agents]`: those with the name of an agent that is there
are passed over. -/
def loadMoreAgents (agents : List (Str × AgentConfig)) :
    Members D → Except Exn (List (Str × AgentConfig))
  | .nil => .ok agents
  | .cons name raw items => do
    let safeName ← agentName name (lit "agents." ++ name)
    match raw with
    | .obj raw =>
      if safeName ∈ agents.map Prod.fst then loadMoreAgents agents items
      else do
        let agent ← loadAgent B raw safeName true []
        loadMoreAgents (agents ++ [(safeName, agent)]) items
    | _ => loadMoreAgents agents items

def loadAgents (agentsSection : Members D) : Except Exn (List (Str × AgentConfig)) := do
  let agents ← loadDefaultAgents B agentsSection defaultAgentCommands
  loadMoreAgents B agents agentsSection

/-! ## The configuration -/

/-- What the `hostile-repo` preset misses. -/
def presetViolations (config : Config) : List Str :=
  let sandbox := config.sandbox
  (if sandbox.backend ≠ lit "bwrap" then [lit "sandbox.backend=bwrap"] else []) ++
  (if sandbox.hostileRepoMode = false then [lit "sandbox.hostile_repo_mode=true"] else []) ++
  (if sandbox.readOnlyHome = false then [lit "sandbox.read_only_home=true"] else []) ++
  (if sandbox.networkFor (lit "review") then [lit "sandbox.review_network=false"] else []) ++
  (if sandbox.networkFor (lit "gate") then [lit "sandbox.gate_network=false"] else []) ++
  (if config.git.allowRepositoryCommands then [lit "git.allow_repository_commands=false"]
    else [])

/-- `__post_init__`. -/
def Config.postInit (config : Config) : Except Exn Unit := do
  rejectIf (config.safetyPreset ∉ safetyPresets)
    (lit "safety preset must be one of ['custom', 'hostile-repo', 'trusted-local']")
  rejectIf (config.sandbox.hostileRepoMode ∧ config.sandbox.backend ≠ lit "bwrap")
    (lit "sandbox.hostile_repo_mode requires sandbox.backend='bwrap'")
  rejectIf (config.sandbox.hostileRepoMode ∧ config.git.allowRepositoryCommands)
    (lit "sandbox.hostile_repo_mode requires git.allow_repository_commands=false")
  rejectIf (config.safetyPreset = lit "hostile-repo" ∧ presetViolations config ≠ [])
    (lit "safety preset 'hostile-repo' requires: " ++
      List.intercalate (lit ", ") (presetViolations config))

/-- `load_config`, on the document; on an empty one where there is no file. -/
def loadConfig (data : Members D) : Except Exn LoadedConfig := do
  let safetyPreset ← loadSafetyPreset B data
  let engine ← loadEngine B (sectionOf data (lit "engine"))
  let hostilePreset : Bool := safetyPreset = lit "hostile-repo"
  let sandbox ← loadSandbox B hostilePreset (sectionOf data (lit "sandbox"))
  let (git, commitName, commitEmail) ←
    loadGit B hostilePreset sandbox.hostileRepoMode (sectionOf data (lit "git"))
  let gates ← loadGates B (sectionOf data (lit "gates"))
  let resources ← loadResources B (sectionOf data (lit "resources"))
  let agents ← loadAgents B (sectionOf data (lit "agents"))
  let config : LoadedConfig :=
    { engine, git, gates, sandbox, resources, agents, safetyPreset, commitName, commitEmail }
  config.toConfig.postInit
  return config

end Load

/-! ## Well-formed configurations -/

structure Config.Engine.WellFormed (engine : Config.Engine) : Prop where
  maxParallel : 1 ≤ engine.maxParallel ∧ engine.maxParallel ≤ 64
  maxGlobalWorkers : 1 ≤ engine.maxGlobalWorkers ∧ engine.maxGlobalWorkers ≤ 128
  maxAttempts : 1 ≤ engine.maxAttempts ∧ engine.maxAttempts ≤ 20
  maxFinalCycles : engine.maxFinalCycles ≤ 20
  maxTasks : 1 ≤ engine.maxTasks ∧ engine.maxTasks ≤ 256
  agentTimeoutSeconds : 1 ≤ engine.agentTimeoutSeconds ∧ engine.agentTimeoutSeconds ≤ 86400
  gateTimeoutSeconds : 1 ≤ engine.gateTimeoutSeconds ∧ engine.gateTimeoutSeconds ≤ 86400
  plannerAgent : matchesAgentRe engine.plannerAgent = true
  reviewerAgent : matchesAgentRe engine.reviewerAgent = true
  integratorAgent : matchesAgentRe engine.integratorAgent = true
  someWorker : engine.workerAgents ≠ []
  workerAgents : ∀ name ∈ engine.workerAgents, matchesAgentRe name = true
  executionProfile : engine.executionProfile ∈ [lit "yolo-worktree", lit "danger-yolo"]
  finalReviewChunkBytes :
    8000 ≤ engine.finalReviewChunkBytes ∧ engine.finalReviewChunkBytes ≤ 120000
  finalReviewMaxFiles : 1 ≤ engine.finalReviewMaxFiles ∧ engine.finalReviewMaxFiles ≤ 4096

/-- A path as the check of the writable paths leaves it. -/
structure IsHomePath (path : Str) : Prop where
  stripped : stripSlashes path = path
  relative : ¬ (path = [] ∨ path = lit "." ∨ path = lit ".." ∨ lit "../" <+: path ∨
    lit "/../" <:+: path)

/-- Names of variables, each once. -/
def IsEnvNames (names : List Str) : Prop :=
  names.Nodup ∧ ∀ name ∈ names, matchesEnvNameRe name = true

structure Config.Sandbox.WellFormed (sandbox : Config.Sandbox) : Prop where
  backend : sandbox.backend ∈ [lit "native", lit "none", lit "bwrap"]
  hostile : sandbox.hostileRepoMode = true → sandbox.backend = lit "bwrap"
  writableHomePaths : ∀ path ∈ sandbox.writableHomePaths, IsHomePath path
  gateEnvAllowlist : IsEnvNames sandbox.gateEnvAllowlist
  agentEnvAllowlist : IsEnvNames sandbox.agentEnvAllowlist

structure ResourcePolicy.WellFormed (policy : ResourcePolicy) : Prop where
  backend : policy.backend ∈ [lit "none", lit "systemd"]
  memoryHighMib : policy.memoryHighMib ≤ 1048576
  memoryMaxMib : policy.memoryMaxMib ≤ 1048576
  memory : ¬ (policy.memoryHighMib ≠ 0 ∧ policy.memoryMaxMib ≠ 0 ∧
    policy.memoryMaxMib < policy.memoryHighMib)
  tasksMax : policy.tasksMax ≤ 1000000
  cpuQuotaPercent : policy.cpuQuotaPercent ≤ 10000
  ioWeight : policy.ioWeight ≤ 10000

/-- A name or an address of commits. -/
structure IsIdentity (identity : Str) (maximum : Nat) : Prop where
  stripped : strip identity = identity
  nonempty : identity ≠ []
  oneLine : identity.any isIdentityBreak = false
  short : identity.length ≤ maximum

/-- The agents: those with default commands first, each name once. -/
structure IsAgentTable (agents : List (Str × AgentConfig)) : Prop where
  defaults : defaultAgentCommands.map Prod.fst <+: agents.map Prod.fst
  nodup : (agents.map Prod.fst).Nodup
  names : ∀ agent ∈ agents, matchesAgentRe agent.1 = true
  roles : ∀ agent ∈ agents, agent.2.roles.Nodup

/-- What the preset promises of a configuration. -/
structure Config.Hostile (config : Config) : Prop where
  backend : config.sandbox.backend = lit "bwrap"
  hostileRepoMode : config.sandbox.hostileRepoMode = true
  readOnlyHome : config.sandbox.readOnlyHome = true
  reviewNetwork : config.sandbox.reviewNetwork = some false
  gateNetwork : config.sandbox.gateNetwork = some false
  allowRepositoryCommands : config.git.allowRepositoryCommands = false

/-- What the preset keeps off. -/
theorem Config.Hostile.network {config : Config} (h : config.Hostile) :
    config.sandbox.networkFor (lit "review") = false ∧
      config.sandbox.networkFor (lit "gate") = false := by
  have hother : lit "gate" ≠ lit "review" := by decide
  constructor
  · rw [SandboxConfig.networkFor, h.reviewNetwork, if_pos ⟨rfl, rfl⟩, Option.getD_some]
  · rw [SandboxConfig.networkFor, if_neg (fun hname => hother hname.1), if_pos rfl, h.gateNetwork]

structure LoadedConfig.WellFormed (config : LoadedConfig) : Prop where
  engine : config.engine.WellFormed
  sandbox : config.sandbox.WellFormed
  resources : config.resources.WellFormed
  branchPrefix : branchPrefix config.git.branchPrefix = .ok config.git.branchPrefix
  commandTimeoutSeconds :
    5 ≤ config.git.commandTimeoutSeconds ∧ config.git.commandTimeoutSeconds ≤ 900
  commitName : IsIdentity config.commitName 200
  commitEmail : IsIdentity config.commitEmail 320
  repositoryCommands : config.sandbox.hostileRepoMode = true →
    config.git.allowRepositoryCommands = false
  agents : IsAgentTable config.agents
  safetyPreset : config.safetyPreset ∈ safetyPresets
  hostile : config.safetyPreset = lit "hostile-repo" → config.toConfig.Hostile

/-- All texts of a configuration are Unicode; where nothing is said of one, it is ASCII as
far as the configuration is well formed. -/
structure LoadedConfig.IsText (config : LoadedConfig) : Prop where
  commands : ∀ command ∈ config.gates.commands, isText command = true
  finalCommands : ∀ command ∈ config.gates.finalCommands, isText command = true
  writableHomePaths : ∀ path ∈ config.sandbox.writableHomePaths, isText path = true
  commitName : isText config.commitName = true
  commitEmail : isText config.commitEmail = true
  agentCommand : ∀ agent ∈ config.agents, ∀ word ∈ agent.2.command, isText word = true
  reviewCommand : ∀ agent ∈ config.agents, ∀ word ∈ agent.2.reviewCommand, isText word = true

/-! ## What the checks leave -/

section Reading

variable {D : Type} {B : Builtins D} {table : Members D} {key : String}

theorem setting_eq {default x : Json D} (hget : table.get? (lit key) = some x) :
    setting table key default = x := by
  rw [setting, hget, Option.getD_some]

/-- A text that is trimmed at both ends is trimmed already. -/
theorem trim_trim (p : PyChar → Bool) (s : Str) :
    (((s.dropWhile p).rdropWhile p).dropWhile p).rdropWhile p =
      (s.dropWhile p).rdropWhile p := by
  have hfront : ((s.dropWhile p).rdropWhile p).dropWhile p = (s.dropWhile p).rdropWhile p := by
    cases hrest : (s.dropWhile p).rdropWhile p with
    | nil => rfl
    | cons c rest =>
      -- the first character is the one at which the front stopped
      have hpre : c :: rest <+: s.dropWhile p := hrest ▸ List.rdropWhile_prefix p _
      rcases hpre with ⟨after, hafter⟩
      have hc : ¬ p c = true := by
        have hsame := List.dropWhile_idempotent p s
        rw [← hafter, List.cons_append] at hsame
        intro hc
        rw [List.dropWhile_cons_of_pos hc] at hsame
        have hlength := (List.dropWhile_suffix (l := rest ++ after) p).length_le
        rw [hsame, List.length_cons] at hlength
        omega
      rw [List.dropWhile_cons_of_neg hc]
  rw [hfront, List.rdropWhile_idempotent]

theorem strip_strip (s : Str) : strip (strip s) = strip s := trim_trim isSpace s

theorem intSetting_ok {sectionName : String} {default minimum maximum n : Nat}
    (h : intSetting B sectionName table key default minimum maximum = .ok n) :
    minimum ≤ n ∧ n ≤ maximum := by
  rw [intSetting, Builtins.boundedInt] at h
  split at h
  · cases h
  · cases h
  · rcases bind_ok_iff.mp h with ⟨u, hbounds, hn⟩
    rw [rejectIf_eq_ok, not_not] at hbounds
    cases hn
    omega

theorem agentName_ok {value fieldName name : Str} (h : agentName value fieldName = .ok name) :
    matchesAgentRe name = true := by
  rcases bind_ok_iff.mp h with ⟨u, hname, hsame⟩
  cases hsame
  simpa using hname

theorem mapM_agentName_ok {values names : List Str} {fieldName : Str}
    (h : (values.mapM fun name => agentName name fieldName) = .ok names) :
    (values ≠ [] → names ≠ []) ∧ ∀ name ∈ names, matchesAgentRe name = true := by
  induction values generalizing names with
  | nil =>
    cases h
    exact ⟨id, fun name hname => absurd hname List.not_mem_nil⟩
  | cons value values ih =>
    rw [List.mapM_cons] at h
    rcases bind_ok_iff.mp h with ⟨name, hname, hrest⟩
    rcases bind_ok_iff.mp hrest with ⟨others, hothers, hnames⟩
    cases hnames
    exact ⟨fun _ => List.cons_ne_nil name others,
      List.forall_mem_cons.mpr ⟨agentName_ok hname, (ih hothers).2⟩⟩

theorem agentNames_ok {value : Json D} {default names : List Str} {fieldName : Str}
    (h : agentNames B value default fieldName = .ok names) :
    names ≠ [] ∧ ∀ name ∈ names, matchesAgentRe name = true := by
  rcases bind_ok_iff.mp h with ⟨values, -, hchecked⟩
  rcases bind_ok_iff.mp hchecked with ⟨u, hsome, hnames⟩
  rw [rejectIf_eq_ok] at hsome
  have hread := mapM_agentName_ok hnames
  exact ⟨hread.1 hsome, hread.2⟩

theorem identityValue_ok {value fieldName identity : Str} {maximum : Nat}
    (h : identityValue value fieldName maximum = .ok identity) : IsIdentity identity maximum := by
  simp only [identityValue, bind_ok_iff, rejectIf_eq_ok, exists_const] at h
  rcases h with ⟨hempty, hbreaks, hlong, hsame⟩
  cases hsame
  exact ⟨strip_strip value, hempty, by simpa using hbreaks, Nat.not_lt.mp hlong⟩

/-- What is collected was there before or is read of an item, and is there once. -/
theorem collectNew_ok {α : Type} [DecidableEq α] {read : Str → Except Exn α} {P : α → Prop}
    (hread : ∀ raw x, read raw = .ok x → P x) {raws : List Str} {clean items : List α}
    (h : collectNew read clean raws = .ok items) (hnodup : clean.Nodup)
    (hclean : ∀ x ∈ clean, P x) :
    items.Nodup ∧ ∀ x ∈ items, P x := by
  induction raws generalizing clean with
  | nil =>
    cases h
    exact ⟨hnodup, hclean⟩
  | cons raw raws ih =>
    rcases bind_ok_iff.mp h with ⟨x, hx, hrest⟩
    by_cases hmem : x ∈ clean
    · rw [if_pos hmem] at hrest
      exact ih hrest hnodup hclean
    · rw [if_neg hmem] at hrest
      refine ih hrest ?_ ?_
      · rw [List.nodup_append]
        refine ⟨hnodup, List.nodup_singleton x, ?_⟩
        intro y hy z hz heq
        rw [List.mem_singleton.mp hz] at heq
        exact hmem (heq ▸ hy)
      · intro y hy
        rcases List.mem_append.mp hy with hy | hy
        · exact hclean y hy
        · rw [List.mem_singleton.mp hy]
          exact hread raw x hx

theorem environmentNames_ok {value : Json D} {fieldName : Str} {names : List Str}
    (h : environmentNames B value fieldName = .ok names) : IsEnvNames names := by
  rcases bind_ok_iff.mp h with ⟨raws, -, hcollected⟩
  refine collectNew_ok ?_ hcollected List.nodup_nil (fun x hx => absurd hx List.not_mem_nil)
  intro raw name hname
  rcases bind_ok_iff.mp hname with ⟨u, hre, hsame⟩
  cases hsame
  simpa using hre

theorem agentRoles_ok {value : Json D} {fieldName : Str} {roles : List AgentRole}
    (h : agentRoles B value fieldName = .ok roles) : roles.Nodup := by
  unfold agentRoles at h
  split at h
  · cases h
    exact List.nodup_nil
  · rcases bind_ok_iff.mp h with ⟨raws, -, hcollected⟩
    exact (collectNew_ok (P := fun _ => True) (fun _ _ _ => trivial) hcollected List.nodup_nil
      (fun _ _ => trivial)).1
  · cases h

theorem cleanHomePaths_ok {raws paths : List Str} (h : cleanHomePaths raws = .ok paths) :
    ∀ path ∈ paths, IsHomePath path := by
  induction raws generalizing paths with
  | nil =>
    cases h
    exact fun path hpath => absurd hpath List.not_mem_nil
  | cons raw raws ih =>
    simp only [cleanHomePaths, bind_ok_iff, rejectIf_eq_ok, exists_const] at h
    rcases h with ⟨hrelative, clean, hclean, hsame⟩
    cases hsame
    exact List.forall_mem_cons.mpr ⟨⟨trim_trim _ _, hrelative⟩, ih hclean⟩

theorem loadEngine_ok {e : Members D} {engine : Config.Engine}
    (h : loadEngine B e = .ok engine) : engine.WellFormed := by
  simp only [loadEngine, bind_ok_iff, rejectIf_eq_ok, exists_const, not_not] at h
  rcases h with ⟨-, profile, -, hprofile, parallel, hparallel, global, hglobal, attempts, hattempts,
    cycles, hcycles, tasks, htasks, agent, hagent, gate, hgate, _, -, planner, hplanner, _, -,
    reviewer, hreviewer, _, -, integrator, hintegrator, workers, hworkers, apply, -, cleanup, -,
    bytes, hbytes, files, hfiles, binary, -, hsame⟩
  cases hsame
  exact
    { maxParallel := intSetting_ok hparallel
      maxGlobalWorkers := intSetting_ok hglobal
      maxAttempts := intSetting_ok hattempts
      maxFinalCycles := (intSetting_ok hcycles).2
      maxTasks := intSetting_ok htasks
      agentTimeoutSeconds := intSetting_ok hagent
      gateTimeoutSeconds := intSetting_ok hgate
      plannerAgent := agentName_ok hplanner
      reviewerAgent := agentName_ok hreviewer
      integratorAgent := agentName_ok hintegrator
      someWorker := (agentNames_ok hworkers).1
      workerAgents := (agentNames_ok hworkers).2
      executionProfile := hprofile
      finalReviewChunkBytes := intSetting_ok hbytes
      finalReviewMaxFiles := intSetting_ok hfiles }

theorem loadResources_ok {r : Members D} {policy : ResourcePolicy}
    (h : loadResources B r = .ok policy) : policy.WellFormed := by
  simp only [loadResources, bind_ok_iff, rejectIf_eq_ok, exists_const, not_not] at h
  rcases h with ⟨backend, -, hbackend, high, hhigh, max, hmax, hmemory, tasks, htasks, cpu, hcpu,
    io, hio,
    hsame⟩
  cases hsame
  exact
    { backend := hbackend
      memoryHighMib := (intSetting_ok hhigh).2
      memoryMaxMib := (intSetting_ok hmax).2
      memory := hmemory
      tasksMax := (intSetting_ok htasks).2
      cpuQuotaPercent := (intSetting_ok hcpu).2
      ioWeight := (intSetting_ok hio).2 }

/-- A boolean that the preset asks for has its value. -/
theorem boolSetting_of_not_contradicts {sectionName : String} {value b : Bool}
    (hkept : ¬ contradicts table key value = true)
    (h : boolSetting sectionName table key value = .ok b) : b = value := by
  rw [contradicts] at hkept
  rw [boolSetting, setting] at h
  cases hget : table.get? (lit key) with
  | none =>
    rw [hget] at h
    cases h
    rfl
  | some found =>
    rw [hget] at h hkept
    cases found with
    | bool found =>
      cases h
      simpa using hkept
    | _ => exact absurd rfl hkept

/-- A network that the preset turns off is off. -/
theorem networkSetting_of_not_contradicts {network : Option Bool}
    (hkept : ¬ contradicts table key false = true)
    (h : networkSetting true table key = .ok network) : network = some false := by
  rw [contradicts] at hkept
  rw [networkSetting, holds, setting] at h
  cases hget : table.get? (lit key) with
  | none =>
    rw [hget] at h
    cases h
    rfl
  | some found =>
    rw [hget] at h hkept
    cases found with
    | bool found =>
      cases h
      simpa using hkept
    | _ => exact absurd rfl hkept

/-- What the checks of the preset leave of the `[sandbox]` section. -/
theorem rejectConflicts_ok {s : Members D} (h : rejectConflicts B true s = .ok ()) :
    otherBackend B s = .ok false ∧
      ¬ contradicts s "hostile_repo_mode" true = true ∧
        ¬ contradicts s "read_only_home" true = true ∧
          ¬ contradicts s "review_network" false = true ∧
            ¬ contradicts s "gate_network" false = true := by
  rw [rejectConflicts, if_neg (Ne.symm Bool.false_ne_true)] at h
  simp only [bind_ok_iff, rejectIf_eq_ok, exists_const, Bool.not_eq_true] at h
  rcases h with ⟨other, hother, hsame, hmode, hhome, hreview, hgate⟩
  rw [hsame] at hother
  simp only [Bool.not_eq_true]
  exact ⟨hother, hmode, hhome, hreview, hgate⟩

/-- The backend under the preset. -/
theorem backend_of_kept {s : Members D} {backend : Str} (h : otherBackend B s = .ok false)
    (hbackend : B.str (setting s "backend" (.str (lit "bwrap"))) = .ok backend) :
    backend = lit "bwrap" := by
  cases hget : s.get? (lit "backend") with
  | none =>
    rw [setting, hget] at hbackend
    cases hbackend
    rfl
  | some found =>
    rw [setting_eq hget] at hbackend
    rw [otherBackend, hget] at h
    rcases bind_ok_iff.mp h with ⟨value, hvalue, hsame⟩
    cases hvalue.symm.trans hbackend
    simpa using Except.ok.inj hsame

theorem loadSandbox_ok {hostilePreset : Bool} {s : Members D} {sandbox : Config.Sandbox}
    (h : loadSandbox B hostilePreset s = .ok sandbox) :
    sandbox.WellFormed ∧ (hostilePreset = true → sandbox.backend = lit "bwrap" ∧
      sandbox.hostileRepoMode = true ∧ sandbox.readOnlyHome = true ∧
        sandbox.reviewNetwork = some false ∧ sandbox.gateNetwork = some false) := by
  simp only [loadSandbox, bind_ok_iff, rejectIf_eq_ok, exists_const, not_not, not_and] at h
  rcases h with ⟨u, hconflicts, backend, hread, hbackend, mode, hmode, hbwrap, network, -, review,
    hreview, gate, hgate, home, hhome, _, -, paths, hpaths, gateNames, hgateNames, agentNames,
    hagentNames, hsame⟩
  cases hsame
  constructor
  · exact
      { backend := hbackend
        hostile := hbwrap
        writableHomePaths := cleanHomePaths_ok hpaths
        gateEnvAllowlist := environmentNames_ok hgateNames
        agentEnvAllowlist := environmentNames_ok hagentNames }
  · rintro rfl
    rcases rejectConflicts_ok hconflicts with ⟨hkept, hmodeKept, hhomeKept, hreviewKept, hgateKept⟩
    exact ⟨backend_of_kept hkept hread, boolSetting_of_not_contradicts hmodeKept hmode,
      boolSetting_of_not_contradicts hhomeKept hhome,
      networkSetting_of_not_contradicts hreviewKept hreview,
      networkSetting_of_not_contradicts hgateKept hgate⟩

/-- A prefix that is accepted is accepted as it is. -/
theorem branchPrefix_self {value ref : Str} (h : branchPrefix value = .ok ref) :
    branchPrefix ref = .ok ref := by
  rcases bind_ok_iff.mp h with ⟨u, hkept, hsame⟩
  cases hsame
  rw [branchPrefix, strip_strip]
  exact bind_ok_iff.mpr ⟨u, hkept, rfl⟩

theorem loadGit_ok {hostilePreset hostileRepoMode : Bool} {g : Members D} {git : Config.Git}
    {commitName commitEmail : Str}
    (h : loadGit B hostilePreset hostileRepoMode g = .ok (git, commitName, commitEmail)) :
    (hostileRepoMode = true → git.allowRepositoryCommands = false) ∧
      branchPrefix git.branchPrefix = .ok git.branchPrefix ∧
        (5 ≤ git.commandTimeoutSeconds ∧ git.commandTimeoutSeconds ≤ 900) ∧
          IsIdentity commitName 200 ∧ IsIdentity commitEmail 320 := by
  simp only [loadGit, bind_ok_iff, rejectIf_eq_ok, exists_const, not_and, Bool.not_eq_true] at h
  rcases h with ⟨-, allow, -, hallow, clean, -, _, -, ref, href, _, -, name, hname, _, -, email,
    hemail, timeout, htimeout, hsame⟩
  cases hsame
  exact ⟨hallow, branchPrefix_self href, intSetting_ok htimeout, identityValue_ok hname,
    identityValue_ok hemail⟩

theorem loadAgent_ok {raw : Members D} {name : Str} {enabled : Bool} {command : List Str}
    {agent : AgentConfig} (h : loadAgent B raw name enabled command = .ok agent) :
    agent.roles.Nodup := by
  simp only [loadAgent, bind_ok_iff] at h
  rcases h with ⟨enabled, -, command, -, reviewCommand, -, roles, hroles, hsame⟩
  cases hsame
  exact agentRoles_ok hroles

theorem loadDefaultAgents_ok {table : Members D} {commands : List (Str × List Str)}
    {agents : List (Str × AgentConfig)} (h : loadDefaultAgents B table commands = .ok agents) :
    agents.map Prod.fst = commands.map Prod.fst ∧ ∀ agent ∈ agents, agent.2.roles.Nodup := by
  induction commands generalizing agents with
  | nil =>
    cases h
    exact ⟨rfl, fun agent hmem => absurd hmem List.not_mem_nil⟩
  | cons command commands ih =>
    rcases command with ⟨name, command⟩
    simp only [loadDefaultAgents, bind_ok_iff] at h
    rcases h with ⟨agent, hagent, others, hothers, hsame⟩
    cases hsame
    rcases ih hothers with ⟨hnames, hroles⟩
    exact ⟨congrArg (name :: ·) hnames, List.forall_mem_cons.mpr ⟨loadAgent_ok hagent, hroles⟩⟩

/-- The loop over the items keeps the agents that are there, and adds well-formed ones. -/
theorem loadMoreAgents_ok {known agents : List (Str × AgentConfig)} {table : Members D}
    (h : loadMoreAgents B known table = .ok agents) (hknown : IsAgentTable known) :
    IsAgentTable agents := by
  -- over the tables that are left; `known` has those that are done
  induction table generalizing known with
  | nil =>
    cases h
    exact hknown
  | cons name raw items ih =>
    rw [loadMoreAgents] at h
    rcases bind_ok_iff.mp h with ⟨safeName, hname, hrest⟩
    cases raw with
    | obj raw =>
      replace hrest : (if safeName ∈ known.map Prod.fst then loadMoreAgents B known items
        else loadAgent B raw safeName true [] >>= fun agent =>
          loadMoreAgents B (known ++ [(safeName, agent)]) items) = .ok agents := hrest
      -- a name that is known is passed over, or gets an agent of its own
      by_cases hmem : safeName ∈ known.map Prod.fst
      · rw [if_pos hmem] at hrest
        exact ih hrest hknown
      · rw [if_neg hmem] at hrest
        rcases bind_ok_iff.mp hrest with ⟨agent, hagent, hrest⟩
        apply ih hrest
        have hkeys : (known ++ [(safeName, agent)]).map Prod.fst =
            known.map Prod.fst ++ [safeName] := List.map_append
        -- the new agent comes last, under a name that is not taken
        constructor
        · rw [hkeys]
          exact hknown.defaults.trans (List.prefix_append _ _)
        · rw [hkeys, List.nodup_append]
          refine ⟨hknown.nodup, List.nodup_singleton safeName, ?_⟩
          intro taken htaken other hother heq
          rw [List.mem_singleton.mp hother] at heq
          exact hmem (heq ▸ htaken)
        · intro other hother
          rcases List.mem_append.mp hother with hother | hother
          · exact hknown.names other hother
          · rw [List.mem_singleton.mp hother]
            exact agentName_ok hname
        -- the roles of the new agent are those of its table
        · intro other hother
          rcases List.mem_append.mp hother with hother | hother
          · exact hknown.roles other hother
          · rw [List.mem_singleton.mp hother]
            exact loadAgent_ok hagent
    -- what is no table is passed over
    | _ => exact ih hrest hknown

theorem loadAgents_ok {table : Members D} {agents : List (Str × AgentConfig)}
    (h : loadAgents B table = .ok agents) : IsAgentTable agents := by
  rcases bind_ok_iff.mp h with ⟨known, hknown, hmore⟩
  rcases loadDefaultAgents_ok hknown with ⟨hnames, hroles⟩
  have hsafe : ∀ name ∈ defaultAgentCommands.map Prod.fst, matchesAgentRe name = true := by decide
  apply loadMoreAgents_ok hmore
  constructor
  · rw [hnames]
  · rw [hnames]
    decide
  · intro agent hagent
    exact hsafe agent.1 (hnames ▸ List.mem_map_of_mem hagent)
  · exact hroles

/-- What the parts are is well formed together. -/
theorem loaded_wellFormed {data s e g r a : Members D} {preset commitName commitEmail : Str}
    {engine : Config.Engine} {sandbox : Config.Sandbox} {git : Config.Git}
    {resources : ResourcePolicy} {agents : List (Str × AgentConfig)} (gates : Config.Gates)
    (hpreset : loadSafetyPreset B data = .ok preset) (hengine : loadEngine B e = .ok engine)
    (hsandbox : loadSandbox B (preset = lit "hostile-repo") s = .ok sandbox)
    (hgit : loadGit B (preset = lit "hostile-repo") sandbox.hostileRepoMode g =
      .ok (git, commitName, commitEmail))
    (hresources : loadResources B r = .ok resources) (hagents : loadAgents B a = .ok agents) :
    LoadedConfig.WellFormed { engine, git, gates, sandbox, resources, agents, commitName,
                              commitEmail, safetyPreset := preset } := by
  rcases bind_ok_iff.mp hpreset with ⟨value, -, hchecked⟩
  rcases bind_ok_iff.mp hchecked with ⟨u, hknown, hsame⟩
  cases hsame
  rcases loadSandbox_ok hsandbox with ⟨hwell, hmasked⟩
  rcases loadGit_ok hgit with ⟨hcommands, href, htimeout, hname, hemail⟩
  exact
    { engine := loadEngine_ok hengine
      sandbox := hwell
      resources := loadResources_ok hresources
      branchPrefix := href
      commandTimeoutSeconds := htimeout
      commitName := hname
      commitEmail := hemail
      repositoryCommands := hcommands
      agents := loadAgents_ok hagents
      safetyPreset := not_not.mp (rejectIf_eq_ok.mp hknown)
      hostile := by
        intro hhostile
        rcases hmasked (decide_eq_true hhostile) with ⟨hbackend, hmode, hhome, hreview, hgate⟩
        exact ⟨hbackend, hmode, hhome, hreview, hgate, hcommands hmode⟩ }

/-- What a document gives is well formed. -/
theorem loadConfig_ok {data : Members D} {config : LoadedConfig}
    (h : loadConfig B data = .ok config) : config.WellFormed := by
  simp only [loadConfig, bind_ok_iff] at h
  rcases h with ⟨preset, hpreset, engine, hengine, sandbox, hsandbox, ⟨git, name, email⟩, hgit,
    gates, -, resources, hresources, agents, hagents, u, -, hsame⟩
  cases hsame
  exact loaded_wellFormed _ hpreset hengine hsandbox hgit hresources hagents

end Reading

end OmarchyYolo
