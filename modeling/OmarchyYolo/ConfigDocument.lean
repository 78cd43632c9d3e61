import OmarchyYolo.Lib.JsonTables
import OmarchyYolo.LoadConfig

/-!
# OmarchyYolo.ConfigDocument — configurations as documents

A well-formed configuration can be written down: every setting as it is, but for the
paths below HOME, which get the slashes that `load_config` takes away. What is written is
TOML where the texts are Unicode, and only such texts are read of TOML. Together with
what the checks leave this says exactly which configurations there are.

* `document` — a document that says all of a configuration;
* `loadConfig_document`: it is read as the configuration;
* `loadConfig_range`: the configurations that TOML documents give are the well-formed ones
  with Unicode texts.
-/

namespace OmarchyYolo

open Py PyJson

/-! ## The document of a configuration -/

section Document

variable {D : Type}

def engineTable (engine : Config.Engine) : Members D := .ofList
  [(lit "execution_profile", .str engine.executionProfile),
   (lit "max_parallel", .int engine.maxParallel),
   (lit "max_global_workers", .int engine.maxGlobalWorkers),
   (lit "max_attempts", .int engine.maxAttempts),
   (lit "max_final_cycles", .int engine.maxFinalCycles),
   (lit "max_tasks", .int engine.maxTasks),
   (lit "agent_timeout_seconds", .int engine.agentTimeoutSeconds),
   (lit "gate_timeout_seconds", .int engine.gateTimeoutSeconds),
   (lit "planner_agent", .str engine.plannerAgent),
   (lit "reviewer_agent", .str engine.reviewerAgent),
   (lit "integrator_agent", .str engine.integratorAgent),
   (lit "worker_agents", textList engine.workerAgents),
   (lit "auto_apply", .bool engine.autoApply),
   (lit "cleanup_worktrees", .bool engine.cleanupWorktrees),
   (lit "final_review_chunk_bytes", .int engine.finalReviewChunkBytes),
   (lit "final_review_max_files", .int engine.finalReviewMaxFiles),
   (lit "final_review_allow_binary", .bool engine.finalReviewAllowBinary)]

/-- A setting that is left out where it has no value. -/
def optionalItem (key : String) : Option Bool → List (Str × Json D)
  | none => []
  | some b => [(lit key, .bool b)]

/-- A path that the check of the writable paths turns into this one. -/
def slashed (path : Str) : Str := lit "/" ++ path ++ lit "/"

def sandboxTable (sandbox : Config.Sandbox) : Members D := .ofList (
  [(lit "backend", .str sandbox.backend),
   (lit "network", .bool sandbox.network),
   (lit "read_only_home", .bool sandbox.readOnlyHome),
   (lit "writable_home_paths", textList (sandbox.writableHomePaths.map slashed)),
   (lit "hostile_repo_mode", .bool sandbox.hostileRepoMode),
   (lit "gate_env_allowlist", textList sandbox.gateEnvAllowlist),
   (lit "agent_env_allowlist", textList sandbox.agentEnvAllowlist)] ++
  optionalItem "review_network" sandbox.reviewNetwork ++
  optionalItem "gate_network" sandbox.gateNetwork)

def gitTable (git : Config.Git) (commitName commitEmail : Str) : Members D := .ofList
  [(lit "require_clean_repo", .bool git.requireCleanRepo),
   (lit "branch_prefix", .str git.branchPrefix),
   (lit "commit_name", .str commitName),
   (lit "commit_email", .str commitEmail),
   (lit "command_timeout_seconds", .int git.commandTimeoutSeconds),
   (lit "allow_repository_commands", .bool git.allowRepositoryCommands)]

def gatesTable (gates : Config.Gates) : Members D := .ofList
  [(lit "commands", textList gates.commands),
   (lit "final_commands", textList gates.finalCommands)]

def resourcesTable (policy : ResourcePolicy) : Members D := .ofList
  [(lit "backend", .str policy.backend),
   (lit "memory_max_mib", .int policy.memoryMaxMib),
   (lit "memory_high_mib", .int policy.memoryHighMib),
   (lit "tasks_max", .int policy.tasksMax),
   (lit "cpu_quota_percent", .int policy.cpuQuotaPercent),
   (lit "io_weight", .int policy.ioWeight)]

def agentTable (agent : AgentConfig) : Members D := .ofList
  [(lit "enabled", .bool agent.enabled),
   (lit "command", textList agent.command),
   (lit "review_command", textList agent.reviewCommand),
   (lit "roles", textList (agent.roles.map AgentRole.value))]

def agentItem (agent : Str × AgentConfig) : Str × Json D := (agent.1, .obj (agentTable agent.2))

/-- A document that says all of a configuration. -/
def document (config : LoadedConfig) : Members D := .ofList
  [(lit "safety", .obj (.ofList [(lit "preset", .str config.safetyPreset)])),
   (lit "engine", .obj (engineTable config.engine)),
   (lit "sandbox", .obj (sandboxTable config.sandbox)),
   (lit "git", .obj (gitTable config.git config.commitName config.commitEmail)),
   (lit "gates", .obj (gatesTable config.gates)),
   (lit "resources", .obj (resourcesTable config.resources)),
   (lit "agents", .obj (.ofList (config.agents.map agentItem)))]

end Document

/-! ## Values that are read as they are -/

section Reading

variable {D : Type} {B : Builtins D} {table : Members D} {key : String}

theorem boundedInt_int {minimum maximum n : Nat} {name : Str} (h : minimum ≤ n ∧ n ≤ maximum) :
    B.boundedInt (.int n) minimum maximum name = .ok n := by
  have hbounds : ¬ ¬ ((minimum : Int) ≤ n ∧ (n : Int) ≤ maximum) := by omega
  rw [Builtins.boundedInt, Builtins.int]
  exact bind_ok_iff.mpr ⟨(), rejectIf_eq_ok.mpr hbounds, rfl⟩

theorem intSetting_eq {sectionName : String} {default minimum maximum n : Nat}
    (hget : table.get? (lit key) = some (.int n)) (h : minimum ≤ n ∧ n ≤ maximum) :
    intSetting B sectionName table key default minimum maximum = .ok n := by
  rw [intSetting, setting_eq hget, boundedInt_int h]

theorem boolSetting_eq {sectionName : String} {default b : Bool}
    (hget : table.get? (lit key) = some (.bool b)) :
    boolSetting sectionName table key default = .ok b := by
  rw [boolSetting, setting_eq hget, strictBool]

/-- A list of texts is read as it is. -/
theorem tupleStr_textList (texts default : List Str) :
    tupleStr B (textList texts) default = .ok texts := by
  rw [textList, tupleStr, Elems.toList_ofList, mapM_ok_iff, List.forall₂_map_left_iff,
    List.forall₂_same]
  intro text _
  rfl

theorem tupleStr_eq {texts default : List Str}
    (hget : table.get? (lit key) = some (textList texts)) :
    tupleStr B (setting table key) default = .ok texts := by
  rw [setting_eq hget, tupleStr_textList]

theorem str_eq {default : Json D} {text : Str} (hget : table.get? (lit key) = some (.str text)) :
    B.str (setting table key default) = .ok text := by
  rw [setting_eq hget, Builtins.str]

theorem isIdChar_of_matchesAgentRe {name : Str} (h : matchesAgentRe name = true) :
    ∀ c ∈ name, isIdChar c = true := by
  cases name with
  | nil => cases h
  | cons c rest =>
    simp only [matchesAgentRe, Bool.and_eq_true, List.all_eq_true] at h
    intro d hd
    rcases List.mem_cons.mp hd with rfl | hd
    · simp only [isIdChar, h.1.1, Bool.true_or]
    · exact h.2 d hd

theorem agentName_eq {name fieldName : Str} (h : matchesAgentRe name = true) :
    agentName name fieldName = .ok name := by
  have hstrip := strip_eq_self fun c hc =>
    not_isSpace_of_isIdChar (isIdChar_of_matchesAgentRe h c hc)
  rw [agentName, hstrip]
  exact bind_ok_iff.mpr ⟨(), rejectIf_eq_ok.mpr (by simp [h]), rfl⟩

theorem mapM_agentName_eq {names : List Str} {fieldName : Str}
    (h : ∀ name ∈ names, matchesAgentRe name = true) :
    (names.mapM fun name => agentName name fieldName) = .ok names := by
  induction names with
  | nil => rfl
  | cons name names ih =>
    rw [List.forall_mem_cons] at h
    rw [List.mapM_cons, agentName_eq h.1, ih h.2]
    rfl

theorem agentNames_eq {names default : List Str} {fieldName : Str} (hsome : names ≠ [])
    (h : ∀ name ∈ names, matchesAgentRe name = true) :
    agentNames B (textList names) default fieldName = .ok names := by
  rw [agentNames, tupleStr_textList, ok_bind]
  exact bind_ok_iff.mpr ⟨(), rejectIf_eq_ok.mpr hsome, mapM_agentName_eq h⟩

theorem identityValue_eq {identity fieldName : Str} {maximum : Nat}
    (h : IsIdentity identity maximum) :
    identityValue identity fieldName maximum = .ok identity := by
  have hbreaks : ¬ identity.any isIdentityBreak = true := by
    rw [h.oneLine]
    exact Bool.false_ne_true
  rw [identityValue, h.stripped]
  refine bind_ok_iff.mpr ⟨(), rejectIf_eq_ok.mpr h.nonempty, ?_⟩
  refine bind_ok_iff.mpr ⟨(), rejectIf_eq_ok.mpr hbreaks, ?_⟩
  exact bind_ok_iff.mpr ⟨(), rejectIf_eq_ok.mpr (Nat.not_lt.mpr h.short), rfl⟩

/-- A list in which nothing is repeated is collected as it is. -/
theorem collectNew_eq {α : Type} [DecidableEq α] {read : Str → Except Exn α} {write : α → Str}
    {items clean : List α} (h : ∀ x ∈ items, read (write x) = .ok x)
    (hnodup : (clean ++ items).Nodup) :
    collectNew read clean (items.map write) = .ok (clean ++ items) := by
  induction items generalizing clean with
  | nil =>
    rw [List.append_nil]
    rfl
  | cons x items ih =>
    rw [List.forall_mem_cons] at h
    have hfresh : x ∉ clean := by
      intro hmem
      exact (List.nodup_append.mp hnodup).2.2 x hmem x List.mem_cons_self rfl
    have hsplit : clean ++ x :: items = (clean ++ [x]) ++ items :=
      (List.append_cons clean x items)
    rw [hsplit] at hnodup
    rw [List.map_cons, collectNew, h.1, ok_bind, if_neg hfresh, ih h.2 hnodup, hsplit]

theorem isIdChar_of_isEnvStart {c : PyChar} (h : isEnvStart c = true) : isIdChar c = true := by
  cases c with
  | surrogate low bits => cases h
  | scalar c =>
    simp only [isEnvStart, Bool.or_eq_true, Bool.and_eq_true, beq_iff_eq] at h
    simp only [isIdChar, isAlnum, Bool.or_eq_true, Bool.and_eq_true, beq_iff_eq,
      PyChar.scalar.injEq]
    tauto

theorem isIdChar_of_matchesEnvNameRe {name : Str} (h : matchesEnvNameRe name = true) :
    ∀ c ∈ name, isIdChar c = true := by
  cases name with
  | nil => cases h
  | cons c rest =>
    simp only [matchesEnvNameRe, Bool.and_eq_true, List.all_eq_true, Bool.or_eq_true] at h
    intro d hd
    rcases List.mem_cons.mp hd with rfl | hd
    · exact isIdChar_of_isEnvStart h.1
    · rcases h.2 d hd with hd | hd
      · simp only [isIdChar, hd, Bool.true_or]
      · simp only [isIdChar, hd, Bool.or_true, Bool.true_or]

theorem environmentName_eq {name fieldName : Str} (h : matchesEnvNameRe name = true) :
    environmentName fieldName name = .ok name := by
  have hstrip := strip_eq_self fun c hc =>
    not_isSpace_of_isIdChar (isIdChar_of_matchesEnvNameRe h c hc)
  rw [environmentName, hstrip]
  exact bind_ok_iff.mpr ⟨(), rejectIf_eq_ok.mpr (by simp [h]), rfl⟩

theorem environmentNames_eq {names : List Str} {fieldName : Str} (h : IsEnvNames names) :
    environmentNames B (textList names) fieldName = .ok names := by
  have hread : ∀ name ∈ names, environmentName fieldName (id name) = .ok name :=
    fun name hname => environmentName_eq (h.2 name hname)
  have hcollect := collectNew_eq hread (List.nil_append names ▸ h.1)
  rw [environmentNames, tupleStr_textList, ok_bind]
  rwa [List.map_id] at hcollect

theorem agentRole_value (role : AgentRole) (fieldName : Str) :
    agentRole B fieldName role.value = .ok role := by
  have hvalue : AgentRole.ofValue? (lower (strip role.value)) = some role := by
    cases role <;> decide
  rw [agentRole, hvalue]

theorem agentRoles_eq {roles : List AgentRole} {fieldName : Str} (h : roles.Nodup) :
    agentRoles B (textList (roles.map AgentRole.value)) fieldName = .ok roles := by
  have htexts := tupleStr_textList (B := B) (roles.map AgentRole.value) []
  have hread : ∀ role ∈ roles, agentRole B fieldName role.value = .ok role :=
    fun role _ => agentRole_value role fieldName
  have hcollect := collectNew_eq hread (List.nil_append roles ▸ h)
  rw [textList, tupleStr] at htexts
  rw [textList, agentRoles, htexts, ok_bind]
  exact hcollect

/-- Nothing is stripped of a text between two characters that are no space. -/
theorem strip_between {c d : PyChar} (hc : isSpace c = false) (hd : isSpace d = false) (s : Str) :
    strip (c :: (s ++ [d])) = c :: (s ++ [d]) := by
  have hdrop : ∀ (e : PyChar) (t : Str), isSpace e = false → (e :: t).dropWhile isSpace = e :: t :=
    fun e t he => List.dropWhile_cons_of_neg (by simp [he])
  rw [strip, lstrip, hdrop c _ hc, List.reverse_cons, List.reverse_append, List.reverse_singleton,
    List.singleton_append, List.cons_append, hdrop d _ hd]
  simp only [List.reverse_cons, List.reverse_append, List.reverse_reverse, List.nil_append,
    List.reverse_nil, List.cons_append]

/-- A text that keeps its ends loses the slashes around it. -/
theorem stripSlashes_slashed {path : Str} (h : IsHomePath path) :
    stripSlashes (strip (slashed path)) = path := by
  let slash : PyChar → Bool := (· == .scalar '/')
  have hne : path ≠ [] := fun hnil => h.relative (Or.inl hnil)
  have hstripped : (path.dropWhile slash).rdropWhile slash = path := h.stripped
  have hfront : path.dropWhile slash = path := by
    have hlonger := (List.rdropWhile_prefix slash (path.dropWhile slash)).length_le
    rw [hstripped] at hlonger
    exact (List.dropWhile_suffix slash).eq_of_length_le hlonger
  have hback : path.rdropWhile slash = path := by
    rwa [hfront] at hstripped
  have hshape : slashed path = .scalar '/' :: (path ++ [.scalar '/']) := rfl
  rw [hshape, strip_between (by decide) (by decide)]
  -- the slash before the path goes, and the path's own first character stays
  have hdrop : (PyChar.scalar '/' :: (path ++ [.scalar '/'])).dropWhile slash =
      path ++ [.scalar '/'] := by
    rw [List.dropWhile_cons_of_pos (by decide)]
    cases path with
    | nil => exact absurd rfl hne
    | cons c rest =>
      have hc : ¬ slash c = true := by
        intro hc
        rw [List.dropWhile_cons_of_pos hc] at hfront
        have hshorter := (List.dropWhile_suffix (p := slash) (l := rest)).length_le
        rw [hfront, List.length_cons] at hshorter
        omega
      rw [List.cons_append, List.dropWhile_cons_of_neg hc]
  calc stripSlashes (PyChar.scalar '/' :: (path ++ [PyChar.scalar '/']))
      = (path ++ [PyChar.scalar '/']).rdropWhile slash := congrArg (List.rdropWhile slash) hdrop
    _ = path.rdropWhile slash := List.rdropWhile_concat_pos slash path _ (by decide)
    _ = path := hback

theorem cleanHomePaths_slashed {paths : List Str} (h : ∀ path ∈ paths, IsHomePath path) :
    cleanHomePaths (paths.map slashed) = .ok paths := by
  induction paths with
  | nil => rfl
  | cons path paths ih =>
    rw [List.forall_mem_cons] at h
    rw [List.map_cons, cleanHomePaths, stripSlashes_slashed h.1]
    refine bind_ok_iff.mpr ⟨(), rejectIf_eq_ok.mpr h.1.relative, ?_⟩
    rw [ih h.2]
    rfl

/-! ## Sections that are read as they are -/

theorem bind_ok {α β : Type} {x : Except Exn α} {f : α → Except Exn β} {a : α} {b : β}
    (hx : x = .ok a) (hf : f a = .ok b) : (x >>= f) = .ok b :=
  bind_ok_iff.mpr ⟨a, hx, hf⟩

theorem pass_ok {β : Type} {condition : Prop} [Decidable condition] {message : Str}
    {shown : List Str} {f : Unit → Except Exn β} {b : β} (h : ¬ condition) (hf : f () = .ok b) :
    (rejectIf condition message shown >>= f) = .ok b :=
  bind_ok (rejectIf_eq_ok.mpr h) hf

theorem loadEngine_table {engine : Config.Engine} (h : engine.WellFormed) :
    loadEngine B (engineTable engine) = .ok engine := by
  rw [loadEngine]
  apply pass_ok Bool.false_ne_true
  apply bind_ok (str_eq rfl)
  apply pass_ok (not_not.mpr h.executionProfile)
  apply bind_ok (intSetting_eq rfl h.maxParallel)
  apply bind_ok (intSetting_eq rfl h.maxGlobalWorkers)
  apply bind_ok (intSetting_eq rfl h.maxAttempts)
  apply bind_ok (intSetting_eq rfl ⟨Nat.zero_le _, h.maxFinalCycles⟩)
  apply bind_ok (intSetting_eq rfl h.maxTasks)
  apply bind_ok (intSetting_eq rfl h.agentTimeoutSeconds)
  apply bind_ok (intSetting_eq rfl h.gateTimeoutSeconds)
  apply bind_ok (str_eq rfl)
  apply bind_ok (agentName_eq h.plannerAgent)
  apply bind_ok (str_eq rfl)
  apply bind_ok (agentName_eq h.reviewerAgent)
  apply bind_ok (str_eq rfl)
  apply bind_ok (agentName_eq h.integratorAgent)
  apply bind_ok (agentNames_eq h.someWorker h.workerAgents)
  apply bind_ok (boolSetting_eq rfl)
  apply bind_ok (boolSetting_eq rfl)
  apply bind_ok (intSetting_eq rfl h.finalReviewChunkBytes)
  apply bind_ok (intSetting_eq rfl h.finalReviewMaxFiles)
  apply bind_ok (boolSetting_eq rfl)
  rfl

theorem networkSetting_eq {hostilePreset : Bool} {value : Option Bool}
    (hget : table.get? (lit key) = value.map .bool)
    (h : hostilePreset = true → value = some false) :
    networkSetting hostilePreset table key = .ok value := by
  rw [networkSetting, holds, hget]
  cases value with
  | none =>
    have hcustom : ¬ (hostilePreset = true ∧ false = false) := fun hpreset => by
      cases h hpreset.1
    rw [Option.map_none, Option.isSome_none, if_neg hcustom, setting, hget]
    rfl
  | some b =>
    rw [Option.map_some, Option.isSome_some, if_neg (fun hpreset => by cases hpreset.2), setting,
      hget]
    rfl

theorem contradicts_eq {value : Bool} (hget : table.get? (lit key) = some (.bool value)) :
    ¬ contradicts table key value = true := by
  have hsame : contradicts table key value = (value != value) := by
    rw [contradicts, hget]
  rw [hsame, bne_self_eq_false]
  exact Bool.false_ne_true

theorem sandboxTable_get (sandbox : Config.Sandbox) :
    (sandboxTable sandbox : Members D).get? (lit "review_network") =
        sandbox.reviewNetwork.map .bool ∧
      (sandboxTable sandbox : Members D).get? (lit "gate_network") =
        sandbox.gateNetwork.map .bool := by
  unfold sandboxTable
  cases sandbox.reviewNetwork <;> cases sandbox.gateNetwork <;> exact ⟨rfl, rfl⟩

theorem loadSandbox_table {config : Config} {hostilePreset : Bool}
    (h : config.sandbox.WellFormed) (hhostile : hostilePreset = true → config.Hostile) :
    loadSandbox B hostilePreset (sandboxTable config.sandbox) = .ok config.sandbox := by
  have hpaths : (sandboxTable config.sandbox : Members D).get? (lit "writable_home_paths") =
      some (textList (config.sandbox.writableHomePaths.map slashed)) := rfl
  have hnetworks := sandboxTable_get (D := D) config.sandbox
  -- the preset conflicts with none of these settings, which are as it sets them
  have hconflicts : rejectConflicts B hostilePreset (sandboxTable config.sandbox) = .ok () := by
    cases hostilePreset with
    | false => rfl
    | true =>
      have hostile := hhostile rfl
      have hbackend : otherBackend B (sandboxTable config.sandbox) =
          .ok (decide (config.sandbox.backend ≠ lit "bwrap")) := rfl
      have hmode : (sandboxTable config.sandbox : Members D).get? (lit "hostile_repo_mode") =
          some (.bool config.sandbox.hostileRepoMode) := rfl
      have hhome : (sandboxTable config.sandbox : Members D).get? (lit "read_only_home") =
          some (.bool config.sandbox.readOnlyHome) := rfl
      have hreview := hnetworks.1
      have hgate := hnetworks.2
      rw [hostile.backend, decide_eq_false (not_not.mpr rfl)] at hbackend
      rw [hostile.hostileRepoMode] at hmode
      rw [hostile.readOnlyHome] at hhome
      rw [hostile.reviewNetwork, Option.map_some] at hreview
      rw [hostile.gateNetwork, Option.map_some] at hgate
      rw [rejectConflicts, if_neg (Ne.symm Bool.false_ne_true)]
      apply bind_ok hbackend
      apply pass_ok Bool.false_ne_true
      apply pass_ok (contradicts_eq hmode)
      apply pass_ok (contradicts_eq hhome)
      apply pass_ok (contradicts_eq hreview)
      exact rejectIf_eq_ok.mpr (contradicts_eq hgate)
  -- the checks in the order of the source
  rw [loadSandbox]
  apply bind_ok hconflicts
  apply bind_ok (str_eq rfl)
  apply pass_ok (not_not.mpr h.backend)
  apply bind_ok (boolSetting_eq rfl)
  apply pass_ok (fun hmode => hmode.2 (h.hostile hmode.1))
  apply bind_ok (boolSetting_eq rfl)
  apply bind_ok (networkSetting_eq hnetworks.1 (fun hpreset => (hhostile hpreset).reviewNetwork))
  apply bind_ok (networkSetting_eq hnetworks.2 (fun hpreset => (hhostile hpreset).gateNetwork))
  apply bind_ok (boolSetting_eq rfl)
  apply bind_ok (tupleStr_eq hpaths)
  apply bind_ok (cleanHomePaths_slashed h.writableHomePaths)
  apply bind_ok (environmentNames_eq h.gateEnvAllowlist)
  apply bind_ok (environmentNames_eq h.agentEnvAllowlist)
  rfl

theorem loadGit_table {config : LoadedConfig} {hostilePreset : Bool} (h : config.WellFormed)
    (hhostile : hostilePreset = true → config.toConfig.Hostile) :
    loadGit B hostilePreset config.sandbox.hostileRepoMode
        (gitTable config.git config.commitName config.commitEmail) =
      .ok (config.git, config.commitName, config.commitEmail) := by
  rw [loadGit]
  have hallowed : saysTrue (D := D) (gitTable config.git config.commitName config.commitEmail)
      "allow_repository_commands" = config.git.allowRepositoryCommands := rfl
  apply pass_ok
  · rintro ⟨hpreset, htrue⟩
    rw [hallowed, (hhostile hpreset).allowRepositoryCommands] at htrue
    cases htrue
  apply bind_ok (boolSetting_eq rfl)
  apply pass_ok
  · rintro ⟨hmode, hallow⟩
    rw [h.repositoryCommands hmode] at hallow
    cases hallow
  apply bind_ok (boolSetting_eq rfl)
  apply bind_ok (str_eq rfl)
  apply bind_ok h.branchPrefix
  apply bind_ok (str_eq rfl)
  apply bind_ok (identityValue_eq h.commitName)
  apply bind_ok (str_eq rfl)
  apply bind_ok (identityValue_eq h.commitEmail)
  apply bind_ok (intSetting_eq rfl h.commandTimeoutSeconds)
  rfl

theorem loadGates_table (gates : Config.Gates) : loadGates B (gatesTable gates) = .ok gates := by
  rw [loadGates]
  apply bind_ok (tupleStr_eq rfl)
  apply bind_ok (tupleStr_eq rfl)
  rfl

theorem loadResources_table {policy : ResourcePolicy} (h : policy.WellFormed) :
    loadResources B (resourcesTable policy) = .ok policy := by
  rw [loadResources]
  apply bind_ok (str_eq rfl)
  apply pass_ok (not_not.mpr h.backend)
  apply bind_ok (intSetting_eq rfl ⟨Nat.zero_le _, h.memoryHighMib⟩)
  apply bind_ok (intSetting_eq rfl ⟨Nat.zero_le _, h.memoryMaxMib⟩)
  apply pass_ok h.memory
  apply bind_ok (intSetting_eq rfl ⟨Nat.zero_le _, h.tasksMax⟩)
  apply bind_ok (intSetting_eq rfl ⟨Nat.zero_le _, h.cpuQuotaPercent⟩)
  apply bind_ok (intSetting_eq rfl ⟨Nat.zero_le _, h.ioWeight⟩)
  rfl

theorem loadAgent_table {agent : AgentConfig} {name : Str} {enabled : Bool} {command : List Str}
    (h : agent.roles.Nodup) :
    loadAgent B (agentTable agent) name enabled command = .ok agent := by
  rw [loadAgent]
  apply bind_ok (a := agent.enabled) rfl
  apply bind_ok (tupleStr_eq rfl)
  apply bind_ok (tupleStr_eq rfl)
  apply bind_ok (agentRoles_eq h)
  rfl

section Agents

variable {agents items : List (Str × AgentConfig)}

theorem map_agentItem_keys (agents : List (Str × AgentConfig)) :
    (agents.map (agentItem (D := D))).map Prod.fst = agents.map Prod.fst := by
  rw [List.map_map]
  rfl

/-- An agent that is written is found under its name. -/
theorem sectionOf_agentItem {agent : Str × AgentConfig} (hnodup : (agents.map Prod.fst).Nodup)
    (hmem : agent ∈ agents) :
    sectionOf (.ofList (agents.map agentItem)) agent.1 = (agentTable agent.2 : Members D) := by
  have hkeys : ((agents.map (agentItem (D := D))).map Prod.fst).Nodup := by
    rwa [map_agentItem_keys]
  have hget := (mem_iff_dictGet? hkeys).mp (List.mem_map_of_mem (f := agentItem) hmem)
  rw [sectionOf, Members.get?_ofList, hget]

theorem loadDefaultAgents_table (hnodup : (agents.map Prod.fst).Nodup)
    {commands : List (Str × List Str)} (hnames : items.map Prod.fst = commands.map Prod.fst)
    (hitems : ∀ agent ∈ items, agent ∈ agents ∧ agent.2.roles.Nodup) :
    loadDefaultAgents B (.ofList (agents.map agentItem)) commands = .ok items := by
  induction commands generalizing items with
  | nil =>
    rw [List.map_eq_nil_iff.mp hnames]
    rfl
  | cons command commands ih =>
    rcases command with ⟨name, command⟩
    rcases items with _ | ⟨agent, items⟩
    · cases hnames
    rw [List.map_cons, List.map_cons, List.cons.injEq] at hnames
    rcases hnames with ⟨rfl, hrest⟩
    rw [List.forall_mem_cons] at hitems
    rw [loadDefaultAgents, sectionOf_agentItem hnodup hitems.1.1]
    apply bind_ok (loadAgent_table hitems.1.2)
    apply bind_ok (ih hrest hitems.2)
    rfl

/-- Agents whose names are there already are passed over. -/
theorem loadMoreAgents_known {known : List (Str × AgentConfig)} {rest : List (Str × Json D)}
    (h : ∀ agent ∈ items, agent.1 ∈ known.map Prod.fst ∧ matchesAgentRe agent.1 = true) :
    loadMoreAgents B known (.ofList (items.map agentItem ++ rest)) =
      loadMoreAgents B known (.ofList rest) := by
  induction items with
  | nil => rfl
  | cons agent items ih =>
    rw [List.forall_mem_cons] at h
    rw [List.map_cons, List.cons_append, agentItem, Members.ofList, loadMoreAgents,
      agentName_eq h.1.2, ok_bind]
    show (if _ then _ else _) = _
    rw [if_pos h.1.1, ih h.2]

/-- Agents with names of their own are added in their order. -/
theorem loadMoreAgents_new {known : List (Str × AgentConfig)}
    (hnodup : ((known ++ items).map Prod.fst).Nodup)
    (h : ∀ agent ∈ items, matchesAgentRe agent.1 = true ∧ agent.2.roles.Nodup) :
    loadMoreAgents B known (.ofList (items.map agentItem)) = .ok (known ++ items) := by
  induction items generalizing known with
  | nil =>
    rw [List.append_nil]
    rfl
  | cons agent items ih =>
    rw [List.forall_mem_cons] at h
    have hsplit : known ++ agent :: items = (known ++ [agent]) ++ items :=
      List.append_cons known agent items
    have hfresh : agent.1 ∉ known.map Prod.fst := by
      intro hmem
      rw [List.map_append, List.nodup_append] at hnodup
      exact hnodup.2.2 agent.1 hmem agent.1 List.mem_cons_self rfl
    rw [hsplit] at hnodup
    rw [List.map_cons, agentItem, Members.ofList, loadMoreAgents, agentName_eq h.1.1, ok_bind]
    show (if _ then _ else _) = _
    rw [if_neg hfresh, hsplit]
    exact bind_ok (loadAgent_table h.1.2) (ih hnodup h.2)

theorem loadAgents_table (h : IsAgentTable agents) :
    loadAgents B (.ofList (agents.map agentItem)) = .ok agents := by
  let front := agents.take defaultAgentCommands.length
  let others := agents.drop defaultAgentCommands.length
  have hsplit : front ++ others = agents := List.take_append_drop _ agents
  have hfront : front.map Prod.fst = defaultAgentCommands.map Prod.fst := by
    rw [List.map_take, List.prefix_iff_eq_take.mp h.defaults, List.length_map]
  have hinside : ∀ agent ∈ front, agent ∈ agents := fun agent hmem => List.mem_of_mem_take hmem
  rw [loadAgents]
  apply bind_ok (loadDefaultAgents_table h.nodup hfront
    fun agent hmem => ⟨hinside agent hmem, h.roles agent (hinside agent hmem)⟩)
  -- the items come again: those with default commands are known, the others are new
  have hknown : ∀ agent ∈ front, agent.1 ∈ front.map Prod.fst ∧ matchesAgentRe agent.1 = true :=
    fun agent hmem => ⟨List.mem_map_of_mem hmem, h.names agent (hinside agent hmem)⟩
  have hnew : loadMoreAgents B front (.ofList (others.map agentItem)) = .ok (front ++ others) :=
    loadMoreAgents_new (hsplit.symm ▸ h.nodup) fun agent hmem =>
      ⟨h.names agent (List.mem_of_mem_drop hmem), h.roles agent (List.mem_of_mem_drop hmem)⟩
  have hitems : agents.map (agentItem (D := D)) = front.map agentItem ++ others.map agentItem := by
    rw [← List.map_append, hsplit]
  rw [hitems, loadMoreAgents_known hknown, hnew, hsplit]

end Agents

/-! ## Documents that are read as they are -/

/-- The preset's own check finds nothing missing. -/
theorem Config.Hostile.presetViolations {config : Config} (h : config.Hostile) :
    presetViolations config = [] := by
  simp only [OmarchyYolo.presetViolations, h.backend, h.hostileRepoMode, h.readOnlyHome,
    h.network.1, h.network.2, h.allowRepositoryCommands, ne_eq, not_true_eq_false,
    Bool.true_eq_false, Bool.false_eq_true, if_false, List.append_nil]

/-- `__post_init__` has nothing to say after the checks of the sections. -/
theorem LoadedConfig.WellFormed.postInit {config : LoadedConfig} (h : config.WellFormed) :
    config.toConfig.postInit = .ok () := by
  rw [Config.postInit]
  apply pass_ok (not_not.mpr h.safetyPreset)
  apply pass_ok (fun hmode => hmode.2 (h.sandbox.hostile hmode.1))
  apply pass_ok
  · rintro ⟨hmode, hallow⟩
    rw [h.repositoryCommands hmode] at hallow
    cases hallow
  · rw [rejectIf_eq_ok]
    rintro ⟨hpreset, hmissing⟩
    exact hmissing (h.hostile hpreset).presetViolations

theorem loadSafetyPreset_document {config : LoadedConfig}
    (h : config.safetyPreset ∈ safetyPresets) :
    loadSafetyPreset B (document config) = .ok config.safetyPreset := by
  have hpreset : B.str (setting (sectionOf (document config) (lit "safety")) "preset"
      (.str (lit "trusted-local"))) = .ok config.safetyPreset := rfl
  have hsame : lower (strip config.safetyPreset) = config.safetyPreset := by
    have hall : ∀ preset ∈ safetyPresets, lower (strip preset) = preset := by decide
    exact hall _ h
  rw [loadSafetyPreset, hpreset, ok_bind, hsame]
  exact pass_ok (not_not.mpr h) rfl

theorem loadConfig_document {config : LoadedConfig} (h : config.WellFormed) :
    loadConfig B (document config) = .ok config := by
  have hhostile : decide (config.safetyPreset = lit "hostile-repo") = true →
      config.toConfig.Hostile := fun hpreset => h.hostile (of_decide_eq_true hpreset)
  rw [loadConfig]
  apply bind_ok (loadSafetyPreset_document h.safetyPreset)
  apply bind_ok (loadEngine_table h.engine)
  apply bind_ok (loadSandbox_table h.sandbox hhostile)
  apply bind_ok (loadGit_table h hhostile)
  apply bind_ok (loadGates_table config.gates)
  apply bind_ok (loadResources_table h.resources)
  apply bind_ok (loadAgents_table h.agents)
  exact bind_ok h.postInit rfl

/-! ## Documents that TOML can write down -/

theorem textList_isToml {texts : List Str} (h : ∀ text ∈ texts, isText text = true) :
    (textList texts : Json D).IsToml := by
  rw [textList, Json.IsToml, Elems.isToml_iff, Elems.toList_ofList, List.forall_mem_map]
  exact h

theorem isText_of_isIdChar {name : Str} (h : ∀ c ∈ name, isIdChar c = true) :
    isText name = true := by
  rw [isText, List.all_eq_true]
  intro c hc
  have hchar := h c hc
  cases c with
  | scalar c => rfl
  | surrogate low bits => cases hchar

theorem isText_branchPrefix {ref : Str} (h : branchPrefix ref = .ok ref) : isText ref = true := by
  rw [isText, List.all_eq_true]
  intro c hc
  rcases (isIdChar_of_matchesBranchPrefixRe (branchPrefix_ok h).1).2 c hc with hchar | rfl
  · cases c with
    | scalar c => rfl
    | surrogate low bits => cases hchar
  · rfl

/-- A text that is one of some literals is Unicode. -/
theorem isText_of_mem {text : Str} {choices : List Str} (h : text ∈ choices)
    (hall : choices.all isText = true) : isText text = true :=
  List.all_eq_true.mp hall text h

/-- The tables that are written hold no key twice, and Unicode texts. -/
theorem engineTable_isToml {engine : Config.Engine} (h : engine.WellFormed) :
    (engineTable engine : Members D).IsToml := by
  have hname : ∀ {name : Str}, matchesAgentRe name = true → isText name = true :=
    fun hre => isText_of_isIdChar (isIdChar_of_matchesAgentRe hre)
  have hprofile := isText_of_mem h.executionProfile (by decide)
  have hworkers := textList_isToml (D := D) fun name hmem => hname (h.workerAgents name hmem)
  apply Members.isToml_ofList
  · simp only [List.map_cons, List.map_nil]
    decide
  · simp only [List.forall_mem_cons, List.not_mem_nil, isText_lit, Json.IsToml, hprofile,
      hname h.plannerAgent, hname h.reviewerAgent, hname h.integratorAgent, hworkers,
      IsEmpty.forall_iff, implies_true, and_self]

theorem sandboxTable_isToml {sandbox : Config.Sandbox} (h : sandbox.WellFormed)
    (hpaths : ∀ path ∈ sandbox.writableHomePaths, isText path = true) :
    (sandboxTable sandbox : Members D).IsToml := by
  have hbackend := isText_of_mem h.backend (by decide)
  have hnames : ∀ {names : List Str}, IsEnvNames names → (textList names : Json D).IsToml :=
    fun henv => textList_isToml fun name hmem =>
      isText_of_isIdChar (isIdChar_of_matchesEnvNameRe (henv.2 name hmem))
  have hslashed : (textList (sandbox.writableHomePaths.map slashed) : Json D).IsToml := by
    apply textList_isToml
    rw [List.forall_mem_map]
    intro path hpath
    rw [slashed, isText_append, isText_append, isText_lit, hpaths path hpath, Bool.and_self,
      Bool.and_self]
  have hgate := hnames h.gateEnvAllowlist
  have hagent := hnames h.agentEnvAllowlist
  unfold sandboxTable
  cases sandbox.reviewNetwork <;> cases sandbox.gateNetwork <;> apply Members.isToml_ofList
  all_goals
    simp only [optionalItem, List.cons_append, List.nil_append, List.append_nil, List.map_cons,
      List.map_nil, List.forall_mem_cons, List.not_mem_nil, isText_lit, Json.IsToml, hbackend,
      hslashed, hgate, hagent, IsEmpty.forall_iff, implies_true, and_self]
  all_goals decide

theorem gitTable_isToml {config : LoadedConfig} (h : config.WellFormed) (htext : config.IsText) :
    (gitTable config.git config.commitName config.commitEmail : Members D).IsToml := by
  apply Members.isToml_ofList
  · simp only [List.map_cons, List.map_nil]
    decide
  · simp only [List.forall_mem_cons, List.not_mem_nil, isText_lit, Json.IsToml,
      isText_branchPrefix h.branchPrefix, htext.commitName, htext.commitEmail,
      IsEmpty.forall_iff, implies_true, and_self]

theorem resourcesTable_isToml {policy : ResourcePolicy} (h : policy.WellFormed) :
    (resourcesTable policy : Members D).IsToml := by
  have hbackend := isText_of_mem h.backend (by decide)
  apply Members.isToml_ofList
  · simp only [List.map_cons, List.map_nil]
    decide
  · simp only [List.forall_mem_cons, List.not_mem_nil, isText_lit, Json.IsToml, hbackend,
      IsEmpty.forall_iff, implies_true, and_self]

theorem agentTable_isToml {agent : AgentConfig}
    (hcommand : ∀ word ∈ agent.command, isText word = true)
    (hreview : ∀ word ∈ agent.reviewCommand, isText word = true) :
    (agentTable agent : Members D).IsToml := by
  have hroles : (textList (agent.roles.map AgentRole.value) : Json D).IsToml := by
    apply textList_isToml
    rw [List.forall_mem_map]
    intro role _
    cases role <;> decide
  apply Members.isToml_ofList
  · simp only [List.map_cons, List.map_nil]
    decide
  · simp only [List.forall_mem_cons, List.not_mem_nil, isText_lit, Json.IsToml,
      textList_isToml hcommand, textList_isToml hreview, hroles, IsEmpty.forall_iff,
      implies_true, and_self]

/-- What is written is a TOML document. -/
theorem document_isToml {config : LoadedConfig} (h : config.WellFormed) (htext : config.IsText) :
    (document config : Members D).IsToml := by
  have hpreset := isText_of_mem h.safetyPreset (by decide)
  have hsafety : (Members.ofList [(lit "preset", (.str config.safetyPreset : Json D))]).IsToml :=
    ⟨⟨List.not_mem_nil, isText_lit _⟩, hpreset, trivial⟩
  have hgates : (gatesTable config.gates : Members D).IsToml := by
    apply Members.isToml_ofList
    · simp only [List.map_cons, List.map_nil]
      decide
    · simp only [List.forall_mem_cons, List.not_mem_nil, isText_lit,
        textList_isToml htext.commands, textList_isToml htext.finalCommands, IsEmpty.forall_iff,
        implies_true, and_self]
  have hagents : (Members.ofList (config.agents.map (agentItem (D := D)))).IsToml := by
    apply Members.isToml_ofList
    · rw [map_agentItem_keys]
      exact h.agents.nodup
    · intro item hitem
      rcases List.mem_map.mp hitem with ⟨agent, hagent, rfl⟩
      exact ⟨isText_of_isIdChar (isIdChar_of_matchesAgentRe (h.agents.names agent hagent)),
        agentTable_isToml (htext.agentCommand agent hagent) (htext.reviewCommand agent hagent)⟩
  apply Members.isToml_ofList
  · simp only [List.map_cons, List.map_nil]
    decide
  · simp only [List.forall_mem_cons, List.not_mem_nil, isText_lit, Json.IsToml, hsafety,
      engineTable_isToml h.engine, sandboxTable_isToml h.sandbox htext.writableHomePaths,
      gitTable_isToml h htext, hgates, resourcesTable_isToml h.resources, hagents,
      IsEmpty.forall_iff, implies_true, and_self]

/-! ## Texts that are read of a TOML document -/

theorem sectionOf_isToml {data : Members D} (h : data.IsToml) (name : Str) :
    (sectionOf data name).IsToml := by
  unfold sectionOf
  split
  · rename_i hget
    exact h.get? hget
  · trivial

theorem isText_strip {s : Str} (h : isText s = true) : isText (strip s) = true := by
  refine isText_of_subset (fun c hc => ?_) h
  exact (List.dropWhile_suffix isSpace).subset ((List.rdropWhile_prefix isSpace _).subset hc)

theorem isText_str {value : Json D} {text : Str} (hvalue : value.IsToml)
    (h : B.str value = .ok text) : isText text = true := by
  unfold Builtins.str at h
  split at h
  · cases h
    exact hvalue
  · cases h
    split_ifs <;> exact isText_lit _
  · split_ifs at h
    cases h
    exact isText_dumpsInt _
  · cases hshown : B.shown value with
    | ok text =>
      rw [hshown] at h
      cases h
      exact B.isText_shown _ _ hshown
    | error e =>
      rw [hshown] at h
      cases h

theorem isText_setting {default text : Str} (htable : table.IsToml)
    (hdefault : isText default = true)
    (h : B.str (setting table key (.str default)) = .ok text) : isText text = true := by
  refine isText_str ?_ h
  cases hget : table.get? (lit key) with
  | none => rwa [setting, hget, Option.getD_none]
  | some value => exact setting_eq hget ▸ htable.get? hget

theorem isText_tupleStr {default texts : List Str} (htable : table.IsToml)
    (hdefault : ∀ text ∈ default, isText text = true)
    (h : tupleStr B (setting table key) default = .ok texts) :
    ∀ text ∈ texts, isText text = true := by
  unfold tupleStr at h
  split at h
  · rename_i xs hvalue
    have hxs : (Json.arr xs).IsToml := by
      cases hget : table.get? (lit key) with
      | none =>
        rw [setting, hget] at hvalue
        cases hvalue
      | some value =>
        rw [setting_eq hget] at hvalue
        exact hvalue ▸ htable.get? hget
    rw [Json.IsToml, Elems.isToml_iff] at hxs
    rw [mapM_ok_iff] at h
    generalize xs.toList = items at h hxs
    induction h with
    | nil => exact fun text htext => absurd htext List.not_mem_nil
    | cons hread _ ih =>
      rw [List.forall_mem_cons] at hxs ⊢
      exact ⟨isText_str hxs.1 hread, ih hxs.2⟩
  · cases h
    exact hdefault

theorem isText_cleanHomePaths {raws paths : List Str} (h : cleanHomePaths raws = .ok paths)
    (hraws : ∀ raw ∈ raws, isText raw = true) : ∀ path ∈ paths, isText path = true := by
  induction raws generalizing paths with
  | nil =>
    cases h
    exact fun path hpath => absurd hpath List.not_mem_nil
  | cons raw raws ih =>
    simp only [cleanHomePaths, bind_ok_iff, rejectIf_eq_ok, exists_const] at h
    rcases h with ⟨-, clean, hclean, hsame⟩
    cases hsame
    rw [List.forall_mem_cons] at hraws
    refine List.forall_mem_cons.mpr ⟨?_, ih hclean hraws.2⟩
    refine isText_of_subset (fun c hc => ?_) (isText_strip hraws.1)
    exact (List.dropWhile_suffix _).subset ((List.rdropWhile_prefix _ _).subset hc)

theorem isText_identityValue {value fieldName identity : Str} {maximum : Nat}
    (h : identityValue value fieldName maximum = .ok identity) (hvalue : isText value = true) :
    isText identity = true := by
  simp only [identityValue, bind_ok_iff, rejectIf_eq_ok, exists_const] at h
  rcases h with ⟨-, -, -, hsame⟩
  cases hsame
  exact isText_strip hvalue

/-- The commands of an agent are Unicode. -/
def AgentConfig.IsText (agent : AgentConfig) : Prop :=
  (∀ word ∈ agent.command, isText word = true) ∧ ∀ word ∈ agent.reviewCommand, isText word = true

theorem loadAgent_isText {raw : Members D} {name : Str} {enabled : Bool} {command : List Str}
    {agent : AgentConfig} (hraw : raw.IsToml) (hcommand : ∀ word ∈ command, isText word = true)
    (h : loadAgent B raw name enabled command = .ok agent) : agent.IsText := by
  simp only [loadAgent, bind_ok_iff] at h
  rcases h with ⟨enabled, -, command, hread, reviewCommand, hreview, roles, -, hsame⟩
  cases hsame
  exact ⟨isText_tupleStr hraw hcommand hread,
    isText_tupleStr hraw (fun word hword => absurd hword List.not_mem_nil) hreview⟩

theorem loadDefaultAgents_isText {commands : List (Str × List Str)}
    {agents : List (Str × AgentConfig)} (htable : table.IsToml)
    (hcommands : ∀ command ∈ commands, ∀ word ∈ command.2, isText word = true)
    (h : loadDefaultAgents B table commands = .ok agents) : ∀ agent ∈ agents, agent.2.IsText := by
  induction commands generalizing agents with
  | nil =>
    cases h
    exact fun agent hagent => absurd hagent List.not_mem_nil
  | cons command commands ih =>
    rcases command with ⟨name, command⟩
    rw [List.forall_mem_cons] at hcommands
    simp only [loadDefaultAgents, bind_ok_iff] at h
    rcases h with ⟨agent, hagent, others, hothers, hsame⟩
    cases hsame
    exact List.forall_mem_cons.mpr ⟨loadAgent_isText (sectionOf_isToml htable name)
      hcommands.1 hagent,
      ih hcommands.2 hothers⟩

theorem loadMoreAgents_isText {known agents : List (Str × AgentConfig)} (htable : table.IsToml)
    (hknown : ∀ agent ∈ known, agent.2.IsText) (h : loadMoreAgents B known table = .ok agents) :
    ∀ agent ∈ agents, agent.2.IsText := by
  induction table generalizing known with
  | nil =>
    cases h
    exact hknown
  | cons name raw items ih =>
    rw [loadMoreAgents] at h
    rcases bind_ok_iff.mp h with ⟨safeName, -, hrest⟩
    cases raw with
    | obj raw =>
      replace hrest : (if safeName ∈ known.map Prod.fst then loadMoreAgents B known items
        else loadAgent B raw safeName true [] >>= fun agent =>
          loadMoreAgents B (known ++ [(safeName, agent)]) items) = .ok agents := hrest
      split_ifs at hrest
      · exact ih htable.2.2 hknown hrest
      · rcases bind_ok_iff.mp hrest with ⟨agent, hagent, hrest⟩
        refine ih htable.2.2 ?_ hrest
        rw [List.forall_mem_append, List.forall_mem_singleton]
        exact ⟨hknown, loadAgent_isText htable.2.1 (fun word hword => absurd hword List.not_mem_nil)
          hagent⟩
    | _ => exact ih htable.2.2 hknown hrest

/-- What is read of a TOML document is Unicode. -/
theorem loadConfig_isText {data : Members D} {config : LoadedConfig} (hdata : data.IsToml)
    (h : loadConfig B data = .ok config) : config.IsText := by
  have hnone : ∀ text ∈ ([] : List Str), isText text = true :=
    fun text htext => absurd htext List.not_mem_nil
  simp only [loadConfig, bind_ok_iff] at h
  rcases h with ⟨preset, -, engine, -, sandbox, hsandbox, ⟨git, name, email⟩, hgit, gates, hgates,
    resources, -, agents, hagents, u, -, hsame⟩
  cases hsame
  simp only [loadSandbox, bind_ok_iff, rejectIf_eq_ok, exists_const] at hsandbox
  simp only [loadGit, bind_ok_iff, rejectIf_eq_ok, exists_const] at hgit
  simp only [loadGates, bind_ok_iff] at hgates
  rcases hsandbox with ⟨u, -, backend, -, -, mode, -, -, network, -, review, -, gate, -, home, -,
    raws, hraws, paths, hpaths, gateNames, -, agentNames, -, hsandbox⟩
  rcases hgit with ⟨-, allow, -, -, clean, -, _, -, ref, -, rawName, hrawName, name', hname,
    rawEmail, hrawEmail, email', hemail, timeout, -, hgit⟩
  rcases hgates with ⟨commands, hcommands, finalCommands, hfinalCommands, hgates⟩
  rcases bind_ok_iff.mp hagents with ⟨known, hknown, hmore⟩
  cases hsandbox
  cases hgit
  cases hgates
  have htables := sectionOf_isToml hdata
  have htexts := loadMoreAgents_isText (htables _)
    (loadDefaultAgents_isText (htables _) (by decide) hknown) hmore
  exact
    { commands := isText_tupleStr (htables _) hnone hcommands
      finalCommands := isText_tupleStr (htables _) hnone hfinalCommands
      writableHomePaths := isText_cleanHomePaths hpaths (isText_tupleStr (htables _) hnone hraws)
      commitName :=
        isText_identityValue hname (isText_setting (htables _) (isText_lit _) hrawName)
      commitEmail :=
        isText_identityValue hemail (isText_setting (htables _) (isText_lit _) hrawEmail)
      agentCommand := fun agent hagent => (htexts agent hagent).1
      reviewCommand := fun agent hagent => (htexts agent hagent).2 }

end Reading

/-- The configurations that TOML documents give are the well-formed ones with Unicode texts. -/
theorem loadConfig_range {D : Type} (B : Builtins D) (config : LoadedConfig) :
    (∃ data : Members D, data.IsToml ∧ loadConfig B data = .ok config) ↔
      config.WellFormed ∧ config.IsText := by
  constructor
  · rintro ⟨data, htoml, hdata⟩
    exact ⟨loadConfig_ok hdata, loadConfig_isText htoml hdata⟩
  · rintro ⟨h, htext⟩
    exact ⟨document config, document_isToml h htext, loadConfig_document h⟩

end OmarchyYolo
